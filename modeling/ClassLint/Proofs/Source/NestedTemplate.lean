import ClassLint.Proofs.Source.LoneCall

/-!
# Templates in templates

A template with an interpolated expression is no class string.  The expression may have parentheses,
braces, strings and further templates in it, but a search that passes over the template only looks
for the next backtick.  So it passes over the whole template where no backtick stands in the
expressions.  Where one does, the search takes the beginning of the inner template for the end of
the outer one, reads the inner template as text of arguments, and takes its end for the beginning of
another template.  What follows the inner template, up to the end of the outer one, is then a class
string unless a further expression begins in it.

**Results.**
* `isInterpolated_iff`: a template is interpolated exactly if it is no literal.
* `argumentText_of_nested`: how the search reads a template with another one in it.
* `interpolated_template`: what is reported of a template, and of a literal behind it.
-/

namespace ClassLint

/-! ## The grammar of templates -/

/-- The text of a template, or an expression that is interpolated in it. -/
inductive TemplatePart where
  | text
  | expression

/-- The bytes are the whole of such a part, with all strings, parentheses and braces closed. -/
inductive IsTemplatePart : TemplatePart → List UInt8 → Prop
  | empty
      (part : TemplatePart) :
      IsTemplatePart part []
  | escaped
      (b : UInt8) {rest : List UInt8}
      (hrest : IsTemplatePart .text rest) :
      IsTemplatePart .text (Byte.ofAscii '\\' :: b :: rest)
  | plain
      {b : UInt8} {rest : List UInt8}
      (hescape : b ≠ Byte.ofAscii '\\')
      (hquote : b ≠ Byte.ofAscii '`')
      (hinterpolation : b = Byte.ofAscii '$' → rest.head? ≠ some (Byte.ofAscii '{'))
      (hrest : IsTemplatePart .text rest) :
      IsTemplatePart .text (b :: rest)
  | interpolation
      {expression rest : List UInt8}
      (hexpression : IsTemplatePart .expression expression)
      (hrest : IsTemplatePart .text rest) :
      IsTemplatePart .text
        (Byte.ofAscii '$' :: Byte.ofAscii '{' :: (expression ++ Byte.ofAscii '}' :: rest))
  | code
      {b : UInt8} {rest : List UInt8}
      (hb : b ∉ Byte.ofAsciiText "\\\"'`()\x7b\x7d")
      (hrest : IsTemplatePart .expression rest) :
      IsTemplatePart .expression (b :: rest)
  | string
      {quote : UInt8} {content rest : List UInt8}
      (hquote : quote = Byte.ofAscii '"' ∨ quote = Byte.ofAscii '\'')
      (hcontent : LiteralContent quote content)
      (hrest : IsTemplatePart .expression rest) :
      IsTemplatePart .expression (quote :: (content ++ quote :: rest))
  | template
      {inner rest : List UInt8}
      (hinner : IsTemplatePart .text inner)
      (hrest : IsTemplatePart .expression rest) :
      IsTemplatePart .expression (Byte.ofAscii '`' :: (inner ++ Byte.ofAscii '`' :: rest))
  | parenthesized
      {inner rest : List UInt8}
      (hinner : IsTemplatePart .expression inner)
      (hrest : IsTemplatePart .expression rest) :
      IsTemplatePart .expression (Byte.ofAscii '(' :: (inner ++ Byte.ofAscii ')' :: rest))
  | braced
      {inner rest : List UInt8}
      (hinner : IsTemplatePart .expression inner)
      (hrest : IsTemplatePart .expression rest) :
      IsTemplatePart .expression (Byte.ofAscii '{' :: (inner ++ Byte.ofAscii '}' :: rest))

/-- What stands between the backticks of a template with at least one interpolated expression. -/
def IsInterpolated (inner : List UInt8) : Prop :=
  ∃ front expression back,
    LiteralContent (Byte.ofAscii '`') front ∧ IsTemplatePart .expression expression ∧
      IsTemplatePart .text back ∧
      inner = front ++ Byte.ofAscii '$' :: Byte.ofAscii '{' ::
        (expression ++ Byte.ofAscii '}' :: back)

/-- A literal does not go on over the beginning of an expression. -/
theorem not_literalContent_of_interpolation
    {front : List UInt8}
    (hfront : LiteralContent (Byte.ofAscii '`') front)
    (rest : List UInt8) :
    ¬ LiteralContent (Byte.ofAscii '`')
      (front ++ Byte.ofAscii '$' :: Byte.ofAscii '{' :: rest) := by
  induction hfront with
  | empty =>
      intro h
      cases h with
      | plain _ _ _ hinterpolation _ => exact hinterpolation rfl rfl rfl
  | escaped b _ ih => exact fun h => ih h.of_escaped
  | plain hescape _ _ _ _ ih => exact fun h => ih (h.of_plain hescape)

theorem IsTemplatePart.of_literalContent_append
    {front rest : List UInt8}
    (hfront : LiteralContent (Byte.ofAscii '`') front)
    (hrest : IsTemplatePart .text rest)
    (hhead : rest.head? ≠ some (Byte.ofAscii '{')) :
    IsTemplatePart .text (front ++ rest) := by
  induction hfront with
  | empty => exact hrest
  | escaped b _ ih => exact .escaped b ih
  | @plain b content hescape hquote _ hinterpolation _ ih =>
      refine .plain hescape hquote (fun hb => ?_) ih
      cases content with
      | nil => exact hhead
      | cons c content => exact hinterpolation hb rfl

/-- A template is interpolated exactly if it is no literal. -/
theorem isInterpolated_iff
    {inner : List UInt8} :
    IsInterpolated inner ↔
      IsTemplatePart .text inner ∧ ¬ LiteralContent (Byte.ofAscii '`') inner := by
  constructor
  · rintro ⟨front, expression, back, hfront, hexpression, hback, rfl⟩
    refine ⟨.of_literalContent_append hfront (.interpolation hexpression hback) ?_,
      not_literalContent_of_interpolation hfront _⟩
    have hne : some (Byte.ofAscii '$') ≠ some (Byte.ofAscii '{') := by decide
    exact hne
  · rintro ⟨hinner, hliteral⟩
    generalize hpart : TemplatePart.text = part at hinner
    induction hinner with
    | empty _ => exact absurd .empty hliteral
    | @escaped b rest _ ih =>
        obtain ⟨front, expression, back, hfront, hexpression, hback, rfl⟩ :=
          ih (fun h => hliteral (.escaped b h)) hpart
        exact ⟨_, expression, back, .escaped b hfront, hexpression, hback, rfl⟩
    | @plain b rest hescape hquote hinterpolation _ ih =>
        have hrest : ¬ LiteralContent (Byte.ofAscii '`') rest := fun h =>
          hliteral (.plain hescape hquote (fun _ => rfl) (fun hb _ => hinterpolation hb) h)
        obtain ⟨front, expression, back, hfront, hexpression, hback, rfl⟩ := ih hrest hpart
        have hhead : b = Byte.ofAscii '$' → front.head? ≠ some (Byte.ofAscii '{') := by
          intro hb
          cases front with
          | nil => exact Option.some_ne_none _ ∘ Eq.symm
          | cons c front => exact hinterpolation hb
        exact ⟨b :: front, expression, back,
          .plain hescape hquote (fun _ => rfl) (fun hb _ => hhead hb) hfront, hexpression, hback,
          rfl⟩
    | interpolation hexpression hrest => exact ⟨[], _, _, .empty, hexpression, hrest, rfl⟩
    | code | string | template | parenthesized | braced => cases hpart

/-! ## What the search makes of a template -/

/-- An interpolated template without another backtick is passed over. -/
theorem argumentText_of_interpolated
    {inner : List UInt8}
    (hinterpolated : IsInterpolated inner)
    (hinner : StringContent (Byte.ofAscii '`') inner) :
    ArgumentText (quoted (Byte.ofAscii '`') inner) [] :=
  .string (by decide) hinner (isInterpolated_iff.1 hinterpolated).2 .empty

/-- The parts of a template with another one in an expression: the text up to the expression, the
expression up to the inner template, the inner template, the rest of the expression, and the text
behind it. -/
def nested (front before content after back : List UInt8) : List UInt8 :=
  front ++ Byte.ofAscii '$' :: Byte.ofAscii '{' :: (before ++ Byte.ofAscii '`' ::
    (content ++ Byte.ofAscii '`' :: (after ++ Byte.ofAscii '}' :: back)))

/-- Behind the inner template another string begins. -/
theorem argumentText_of_nested
    {front before content after back : List UInt8} {found : List (List UInt8)}
    (hfront : LiteralContent (Byte.ofAscii '`') front)
    (hbefore : StringContent (Byte.ofAscii '`') before)
    (hcontent : ArgumentText content found)
    (hback : LiteralContent (Byte.ofAscii '`') (after ++ Byte.ofAscii '}' :: back)) :
    ArgumentText (quoted (Byte.ofAscii '`') (nested front before content after back))
      (found ++ [after ++ Byte.ofAscii '}' :: back]) := by
  have hbacktick : Byte.isQuote (Byte.ofAscii '`') = true := by decide
  have hopening :
      StringContent (Byte.ofAscii '`')
        (front ++ Byte.ofAscii '$' :: Byte.ofAscii '{' :: before) :=
    hfront.stringContent.append
      (.plain (by decide) (by decide) (.plain (by decide) (by decide) hbefore))
  have hexpression := not_literalContent_of_interpolation hfront before
  have hread := ArgumentText.string hbacktick hopening hexpression
    (hcontent.append (.literal hbacktick hback .empty))
  simpa only [quoted, nested, List.append_assoc, List.cons_append] using hread

/-- A source that is a call with the given arguments. -/
def callOf (arguments : Text) : Text :=
  "tw(".toList ++ (arguments ++ [')'])

/-- A string in double quotes behind another argument. -/
def followedBy (argument value : Text) : Text :=
  argument ++ (", \"".toList ++ (value ++ ['"']))

theorem bytes_callOf
    (arguments : Text) :
    (callOf arguments).bytes =
      Byte.ofAsciiText "tw(" ++ (arguments.bytes ++ [Byte.ofAscii ')']) := by
  rw [callOf, Text.bytes_append, Text.bytes_append]
  rfl

theorem bytes_followedBy
    (argument value : Text) :
    (followedBy argument value).bytes =
      argument.bytes ++ (Byte.ofAsciiText ", " ++ quoted (Byte.ofAscii '"') value.bytes) := by
  rw [followedBy, Text.bytes_append, Text.bytes_append, Text.bytes_append]
  rfl

section Reports

variable {template : Text} {inner : List UInt8} {found : List (List UInt8)}
  (htemplate : template.bytes = quoted (Byte.ofAscii '`') inner)
  (hquiet : IsQuiet template.bytes)
  (hread : ArgumentText template.bytes found)
include htemplate hquiet hread

theorem bytes_classStrings_template :
    (callOf template).classStrings.map (fun c => c.value.bytes) = found := by
  refine Text.classStrings_of_lone_call (bytes_callOf template) hread ?_
  rw [htemplate] at hquiet ⊢
  exact hquiet.quoted_append (by decide) (isQuiet_of_not_mem (by decide) (by decide))

theorem bytes_classStrings_template_followedBy
    {value : Text}
    (hvalue : LiteralContent (Byte.ofAscii '"') value.bytes)
    (hquietValue : IsQuiet (quoted (Byte.ofAscii '"') value.bytes)) :
    (callOf (followedBy template value)).classStrings.map (fun c => c.value.bytes) =
      found ++ [value.bytes] := by
  refine Text.classStrings_of_lone_call (bytes_callOf _) ?_ ?_
  · rw [bytes_followedBy]
    refine hread.append (.plain (by decide) (by decide) (by decide)
      (.plain (by decide) (by decide) (by decide) ?_))
    exact .literal (by decide) hvalue .empty
  · have hlast : IsQuiet (quoted (Byte.ofAscii '"') value.bytes ++ [Byte.ofAscii ')']) :=
      hquietValue.quoted_append (by decide) (isQuiet_of_not_mem (by decide) (by decide))
    have hmore :
        IsQuiet (Byte.ofAsciiText ", " ++
          (quoted (Byte.ofAscii '"') value.bytes ++ [Byte.ofAscii ')'])) :=
      hlast.append_of_not_mem (by decide) (by decide)
    rw [htemplate] at hquiet
    rw [bytes_followedBy, htemplate, List.append_assoc, List.append_assoc]
    exact hquiet.quoted_append (by decide) hmore

end Reports

/--
**What is reported of a template.**  Let a template have at least one interpolated expression, and
neither it nor a string that follows it announce an attribute or a call.  If no further backtick
stands in its expressions, whatever parentheses, braces and strings they have, nothing of it is
reported.  However it is read as text of arguments, the literals that it is read to have are
reported.  So if another template stands in an expression, the rest of the expression is reported
together with the text behind it, unless an expression begins there as well.  In all cases the
string that follows is reported besides.
-/
theorem interpolated_template
    {template value : Text} {inner : List UInt8}
    (htemplate : template.bytes = quoted (Byte.ofAscii '`') inner)
    (hinterpolated : IsInterpolated inner)
    (hquiet : IsQuiet template.bytes)
    (hvalue : LiteralContent (Byte.ofAscii '"') value.bytes)
    (hquietValue : IsQuiet (quoted (Byte.ofAscii '"') value.bytes)) :
    (StringContent (Byte.ofAscii '`') inner →
      (callOf template).classStrings = [] ∧
      (callOf (followedBy template value)).classStrings.map ClassString.value = [value]) ∧
    (∀ found, ArgumentText template.bytes found →
      (callOf template).classStrings.map (fun c => c.value.bytes) = found ∧
      (callOf (followedBy template value)).classStrings.map (fun c => c.value.bytes) =
        found ++ [value.bytes]) ∧
    ∀ front before content after back found, inner = nested front before content after back →
      LiteralContent (Byte.ofAscii '`') front → StringContent (Byte.ofAscii '`') before →
      ArgumentText content found →
      LiteralContent (Byte.ofAscii '`') (after ++ Byte.ofAscii '}' :: back) →
      (callOf template).classStrings.map (fun c => c.value.bytes) =
        found ++ [after ++ Byte.ofAscii '}' :: back] ∧
      (callOf (followedBy template value)).classStrings.map (fun c => c.value.bytes) =
        found ++ [after ++ Byte.ofAscii '}' :: back] ++ [value.bytes] := by
  have hreports {found : List (List UInt8)} (hread : ArgumentText template.bytes found) :=
    And.intro (bytes_classStrings_template htemplate hquiet hread)
      (bytes_classStrings_template_followedBy htemplate hquiet hread hvalue hquietValue)
  refine ⟨?_, fun found => hreports, ?_⟩
  · intro hinner
    have hread := argumentText_of_interpolated hinterpolated hinner
    rw [← htemplate] at hread
    obtain ⟨halone, hfollowed⟩ := hreports hread
    refine ⟨List.map_eq_nil_iff.1 halone, ?_⟩
    obtain ⟨c, hc, hbytes⟩ := List.map_eq_singleton_iff.1 hfollowed
    rw [hc, List.map_singleton, Text.eq_of_bytes_eq hbytes]
  · rintro front before content after back found rfl hfront hbefore hcontent hback
    have hread := argumentText_of_nested hfront hbefore hcontent hback
    rw [← htemplate] at hread
    exact hreports hread

/-- A parenthesis in a string of an expression, and a template in an expression. -/
theorem interpolated_template_parenthesisAndTemplate :
    (callOf "`a$\x7bf(\"(\")\x7d`".toList).classStrings = [] ∧
      (callOf (followedBy "`a$\x7bf(\"(\")\x7d`".toList "m-2".toList)).classStrings.map
        ClassString.value = ["m-2".toList] ∧
      (callOf "`a$\x7b`$\x7bb\x7d`:d\x7d`".toList).classStrings.map (fun c => c.value.bytes) =
        [Byte.ofAsciiText ":d\x7d"] := by
  have hvalue : LiteralContent (Byte.ofAscii '"') (Text.bytes "m-2".toList) :=
    .plain (by decide) (by decide) (by decide) (by decide)
      (.plain (by decide) (by decide) (by decide) (by decide)
        (.plain (by decide) (by decide) (by decide) (by decide) .empty))
  have hquietValue : IsQuiet (quoted (Byte.ofAscii '"') (Text.bytes "m-2".toList)) :=
    isQuiet_of_not_mem (by decide) (by decide)
  have hfront : LiteralContent (Byte.ofAscii '`') (Byte.ofAsciiText "a") :=
    .plain (by decide) (by decide) (by decide) (by decide) .empty
  have hlaws (template : Text) {inner : List UInt8}
      (hc : Byte.ofAscii 'c' ∉ template.bytes) (ht : Byte.ofAscii 't' ∉ template.bytes)
      (htemplate : template.bytes = quoted (Byte.ofAscii '`') inner)
      (hinterpolated : IsInterpolated inner) :=
    interpolated_template htemplate hinterpolated (isQuiet_of_not_mem hc ht) hvalue hquietValue
  have hparenthesis : IsInterpolated (Byte.ofAsciiText "a$\x7bf(\"(\")\x7d") := by
    have hstring : LiteralContent (Byte.ofAscii '"') (Byte.ofAsciiText "(") :=
      .plain (by decide) (by decide) (by decide) (by decide) .empty
    exact ⟨Byte.ofAsciiText "a", Byte.ofAsciiText "f(\"(\")", [], hfront,
      .code (by decide) (.parenthesized (.string (Or.inl rfl) hstring (.empty _)) (.empty _)),
      .empty _, by decide⟩
  have hnested :
      IsInterpolated (nested (Byte.ofAsciiText "a") [] (Byte.ofAsciiText "$\x7bb\x7d")
        (Byte.ofAsciiText ":d") []) := by
    have hinner : IsTemplatePart .text (Byte.ofAsciiText "$\x7bb\x7d") :=
      .interpolation (.code (by decide) (.empty _)) (.empty _)
    exact ⟨Byte.ofAsciiText "a", Byte.ofAsciiText "`$\x7bb\x7d`:d", [], hfront,
      .template hinner (.code (by decide) (.code (by decide) (.empty _))), .empty _, by decide⟩
  have hskipped :
      StringContent (Byte.ofAscii '`') (Byte.ofAsciiText "a$\x7bf(\"(\")\x7d") := by
    repeat first
      | exact .empty
      | refine .plain (by decide) (by decide) ?_
  have hcontent : ArgumentText (Byte.ofAsciiText "$\x7bb\x7d") [] := by
    repeat first
      | exact .empty
      | refine .plain (by decide) (by decide) (by decide) ?_
  have hback : LiteralContent (Byte.ofAscii '`') (Byte.ofAsciiText ":d\x7d") :=
    .plain (by decide) (by decide) (by decide) (by decide)
      (.plain (by decide) (by decide) (by decide) (by decide)
        (.plain (by decide) (by decide) (by decide) (by decide) .empty))
  obtain ⟨hwhole, -, -⟩ := hlaws "`a$\x7bf(\"(\")\x7d`".toList (by decide) (by decide) (by decide)
    hparenthesis
  obtain ⟨-, -, hbehind⟩ := hlaws "`a$\x7b`$\x7bb\x7d`:d\x7d`".toList (by decide) (by decide)
    (by decide) hnested
  obtain ⟨halone, hfollowed⟩ := hwhole hskipped
  obtain ⟨hrest, -⟩ := hbehind _ [] _ _ [] [] rfl hfront .empty hcontent hback
  exact ⟨halone, hfollowed, hrest⟩

/-- In a template with another one, what follows the inner one is reported. -/
theorem nestedTemplate_reported :
    let template : Text := "`p-$\x7b`m-2`\x7d`".toList
    (∃ inner, template.bytes = quoted (Byte.ofAscii '`') inner ∧ IsInterpolated inner) ∧
      IsQuiet template.bytes ∧
      (callOf template).classStrings.map ClassString.value = ["\x7d".toList] := by
  intro template
  have hfront : LiteralContent (Byte.ofAscii '`') (Byte.ofAsciiText "p-") :=
    .plain (by decide) (by decide) (by decide) (by decide)
      (.plain (by decide) (by decide) (by decide) (by decide) .empty)
  have hinner : IsTemplatePart .text (Byte.ofAsciiText "m-2") :=
    .plain (by decide) (by decide) (by decide)
      (.plain (by decide) (by decide) (by decide)
        (.plain (by decide) (by decide) (by decide) (.empty _)))
  have hreported : (callOf template).classStrings = [⟨⟨1, 14⟩, "\x7d".toList⟩] := by
    decide +kernel
  refine ⟨⟨Byte.ofAsciiText "p-$\x7b`m-2`\x7d", by decide, Byte.ofAsciiText "p-",
    Byte.ofAsciiText "`m-2`", [], hfront, .template hinner (.empty _), .empty _, by decide⟩,
    isQuiet_of_not_mem (by decide) (by decide), ?_⟩
  rw [hreported]
  rfl

end ClassLint
