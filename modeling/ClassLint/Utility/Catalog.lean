import ClassLint.Utility.Nesting

/-!
# The catalog of utilities

Which base utilities exist, which of them lay out their children, which only mark an
element for others to refer to, and which belong to the table layout that the target
surface does not have.

A family is written as the beginning that all its members share; a member goes on after
that beginning.  A value in balanced square brackets is accepted for any utility.
-/

namespace ClassLint

namespace Catalog

/-- Utilities that take no value. -/
def standalone : List Text :=
  Text.ofStrings [
    "flex", "inline-flex", "grid", "inline-grid", "block", "inline-block", "inline",
    "hidden", "contents", "flow-root", "container", "static", "relative", "absolute",
    "fixed", "sticky", "flex-row", "flex-row-reverse", "flex-col", "flex-col-reverse",
    "flex-wrap", "flex-wrap-reverse", "flex-nowrap", "flex-1", "flex-auto",
    "flex-initial", "flex-none", "grow", "shrink", "italic", "not-italic", "underline",
    "overline", "line-through", "no-underline", "uppercase", "lowercase", "capitalize",
    "normal-case", "truncate", "antialiased", "subpixel-antialiased", "visible",
    "invisible", "rounded", "border", "shadow", "ring", "ring-inset", "outline",
    "drop-shadow", "blur", "grayscale", "invert", "sepia", "transition", "transform",
    "isolate", "isolation-auto", "sr-only", "not-sr-only"]

/-- Beginnings of the utilities that take a value. -/
def families : List Text :=
  Text.ofStrings [
    "p-", "px-", "py-", "pt-", "pr-", "pb-", "pl-", "ps-", "pe-", "m-", "mx-", "my-",
    "mt-", "mr-", "mb-", "ml-", "ms-", "me-", "gap-", "space-x-", "space-y-", "w-",
    "h-", "size-", "min-w-", "max-w-", "min-h-", "max-h-", "aspect-", "basis-",
    "inset-", "top-", "right-", "bottom-", "left-", "start-", "end-", "z-",
    "overflow-", "object-", "order-", "grow-", "shrink-", "flex-", "items-",
    "justify-", "self-", "content-", "place-", "grid-cols-", "grid-rows-",
    "grid-flow-", "col-", "row-", "auto-cols-", "auto-rows-", "columns-", "float-",
    "clear-", "text-", "font-", "leading-", "tracking-", "line-clamp-", "whitespace-",
    "break-", "decoration-", "underline-offset-", "indent-", "align-", "list-",
    "placeholder-", "bg-", "from-", "via-", "to-", "rounded-", "border-", "divide-",
    "outline-", "ring-", "ring-offset-", "shadow-", "drop-shadow-", "opacity-",
    "blur-", "brightness-", "contrast-", "grayscale-", "hue-rotate-", "invert-",
    "saturate-", "sepia-", "backdrop-", "mix-blend-", "scale-", "rotate-",
    "translate-x-", "translate-y-", "skew-x-", "skew-y-", "origin-", "transition-",
    "duration-", "delay-", "ease-", "animate-", "cursor-", "pointer-events-",
    "select-", "resize-", "scroll-", "touch-", "accent-", "caret-", "fill-", "stroke-",
    "will-change-"]

/-- Table layout utilities that take no value. -/
def tableStandalone : List Text :=
  Text.ofStrings [
    "table", "inline-table", "table-caption", "table-cell", "table-column",
    "table-column-group", "table-footer-group", "table-header-group",
    "table-row-group", "table-row", "table-auto", "table-fixed", "border-collapse",
    "border-separate", "caption-top", "caption-bottom"]

/-- Beginnings of table layout utilities. -/
def tableFamilies : List Text :=
  Text.ofStrings [
    "border-spacing-", "table-"]

/-- Utilities without a value that lay out the children of an element. -/
def layoutStandalone : List Text :=
  Text.ofStrings [
    "flex", "inline-flex", "grid", "inline-grid", "flex-row", "flex-row-reverse",
    "flex-col", "flex-col-reverse", "flex-wrap", "flex-wrap-reverse", "flex-nowrap"]

/-- Beginnings of the utilities with a value that lay out the children of an element. -/
def layoutFamilies : List Text :=
  Text.ofStrings [
    "gap-", "space-x-", "space-y-", "items-", "justify-", "content-", "place-content-",
    "place-items-", "grid-cols-", "grid-rows-", "grid-flow-", "auto-cols-",
    "auto-rows-", "divide-"]

/-- The base without one leading minus sign, unless a second one follows or nothing does. -/
def unsigned : Text → Text
  | '-' :: c :: s => if c = '-' then '-' :: c :: s else c :: s
  | s => s

/-- Whether the base belongs to the table layout. -/
def isTableLayout (base : Text) : Bool :=
  tableStandalone.contains base || tableFamilies.any base.startsWith

/-- Whether the base lays out the children of an element. -/
def isLayout (base : Text) : Bool :=
  layoutStandalone.contains base || layoutFamilies.any base.continues

/-- Whether the value only names an element for the selectors of other elements. -/
def isMarker (value : Text) : Bool :=
  value == "group".toList || value == "peer".toList || value.continues "peer/".toList

/-- Whether the base is a utility: an arbitrary value in balanced brackets always is, a table
layout utility never is, and of the others exactly the listed ones are, with or without sign. -/
def isUtility (base : Text) : Bool :=
  base.hasBalancedBrackets ||
    (!isTableLayout base &&
      (standalone.contains (unsigned base) || families.any (unsigned base).continues))

end Catalog

end ClassLint
