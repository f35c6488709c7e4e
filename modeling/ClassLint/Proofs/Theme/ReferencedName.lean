import ClassLint.Config
import ClassLint.Proofs.Text.Trimming

/-!
# Names that references can have

A reference is the name of a property, alone or in parentheses or in `var(…)`, with blanks around
each of these parts and with or without a fallback behind a comma.  The reader looks for the parts
from the outside in: it trims, takes away the parentheses, cuts at the first comma, and trims again.
So a name may hold parentheses of its own, but neither a blank nor a comma.

**Results.**
* `referencedProperty?_of_enclosed`: what is read between parentheses.
* `names_iff`: the inside of a reference to a name, and how the reader finds the name in it.
* `referencedProperty?_eq_some_iff`: the texts that refer to a name are exactly the references.
* `referenced_names`: which names are read from references, and which of them a theme can define.
-/

namespace ClassLint

namespace Text

/-- A name that a reference can have. -/
structure IsReferable (name : Text) : Prop where
  dashes : name.startsWith "--".toList = true
  longer : 2 < name.length
  blank : name.hasBlank = false
  comma : ',' ∉ name

/-- The inside of a reference: a name between blanks, and a fallback if a comma follows. -/
inductive Names (name : Text) : Text → Prop
  | alone
      {left right : Text}
      (hleft : IsBlankText left)
      (hright : IsBlankText right) :
      Names name (left ++ (name ++ right))
  | withFallback
      {left right : Text}
      (hleft : IsBlankText left)
      (hright : IsBlankText right)
      (fallback : Text) :
      Names name (left ++ (name ++ right) ++ ',' :: fallback)

/-- A reference to a name: its inside alone, or in parentheses between blanks. -/
inductive RefersTo (name : Text) : Text → Prop
  | bare
      {inner : Text}
      (hinner : Names name inner) :
      RefersTo name inner
  | enclosed
      {opening before after inner : Text}
      (hopening : opening = "(".toList ∨ opening = "var(".toList)
      (hbefore : IsBlankText before)
      (hafter : IsBlankText after)
      (hinner : Names name inner) :
      RefersTo name (before ++ (opening ++ (inner ++ ")".toList) ++ after))

/-- The references to a name without blanks, alone and with a fallback. -/
def references (name fallback : Text) : List Text :=
  [name,
   "(".toList ++ (name ++ ")".toList),
   "var(".toList ++ (name ++ ")".toList),
   "(".toList ++ (name ++ ',' :: fallback ++ ")".toList),
   "var(".toList ++ (name ++ ',' :: fallback ++ ")".toList)]

/-! ## Names -/

theorem continues_dashes_iff
    {name : Text} :
    name.continues "--".toList = true ↔ name.startsWith "--".toList = true ∧ 2 < name.length := by
  constructor
  · intro h
    obtain ⟨c, rest, rfl⟩ := continues_iff.1 h
    exact ⟨startsWith_append _ _, by simp⟩
  · rintro ⟨hstarts, hlength⟩
    obtain ⟨rest, rfl⟩ := startsWith_iff.1 hstarts
    cases rest with
    | nil => simp at hlength
    | cons c rest => exact continues_iff.2 ⟨c, rest, rfl⟩

theorem isPropertyReference_iff
    {name : Text} :
    name.isPropertyReference = true ↔
      (name.startsWith "--".toList = true ∧ 2 < name.length) ∧ name.hasBlank = false := by
  rw [isPropertyReference, Bool.and_eq_true, continues_dashes_iff, Bool.not_eq_true']

theorem isReferable_iff
    {name : Text} :
    name.IsReferable ↔ name.isPropertyReference = true ∧ ',' ∉ name := by
  rw [isPropertyReference_iff]
  constructor
  · intro h
    exact ⟨⟨⟨h.dashes, h.longer⟩, h.blank⟩, h.comma⟩
  · rintro ⟨⟨⟨hdashes, hlonger⟩, hblank⟩, hcomma⟩
    exact ⟨hdashes, hlonger, hblank, hcomma⟩

/-! ## The inside of a reference -/

theorem upTo_around
    {left right name : Text}
    (hleft : IsBlankText left)
    (hright : IsBlankText right)
    (hcomma : ',' ∉ name) :
    upTo ',' (left ++ (name ++ right)) = left ++ (name ++ right) := by
  have hblank : isBlank ',' = false := by decide
  apply upTo_of_not_mem
  rw [List.mem_append, List.mem_append, not_or, not_or]
  exact ⟨hleft.not_mem hblank, hcomma, hright.not_mem hblank⟩

theorem names_iff
    {name inner : Text}
    (hname : name.IsReferable) :
    Names name inner ↔ (inner.upTo ',').trim = name := by
  have htrim : name.trim = name := trim_of_hasBlank hname.blank
  constructor
  · intro h
    cases h with
    | alone hleft hright =>
        rw [upTo_around hleft hright hname.comma, trim_around hleft hright, htrim]
    | withFallback hleft hright fallback =>
        rw [upTo_append_cons, upTo_around hleft hright hname.comma, trim_around hleft hright,
          htrim]
  · intro h
    obtain ⟨left, right, hleft, hright, hfront⟩ := exists_eq_around_trim (inner.upTo ',')
    rw [h] at hfront
    rcases upTo_cases ',' inner with hwhole | ⟨fallback, hcut⟩
    · rw [hwhole, hfront]
      exact .alone hleft hright
    · rw [hcut, hfront]
      exact .withFallback hleft hright fallback

theorem Names.self
    (name : Text) :
    Names name name := by
  have halone : Names name ([] ++ (name ++ [])) := .alone isBlankText_nil isBlankText_nil
  simpa using halone

theorem Names.before_fallback
    {right : Text}
    (hright : IsBlankText right)
    (name fallback : Text) :
    Names name (name ++ right ++ ',' :: fallback) := by
  have hfallback : Names name ([] ++ (name ++ right) ++ ',' :: fallback) :=
    .withFallback isBlankText_nil hright fallback
  simpa using hfallback

/-- Blanks around the inside belong to the blanks around the name, or to the fallback. -/
theorem Names.around
    {name inner before after : Text}
    (h : Names name inner)
    (hbefore : IsBlankText before)
    (hafter : IsBlankText after) :
    Names name (before ++ (inner ++ after)) := by
  cases h with
  | @alone left right hleft hright =>
      have halone : Names name (before ++ left ++ (name ++ (right ++ after))) :=
        .alone (hbefore.append hleft) (hright.append hafter)
      simpa using halone
  | @withFallback left right hleft hright fallback =>
      have hfallback :
          Names name (before ++ left ++ (name ++ right) ++ ',' :: (fallback ++ after)) :=
        .withFallback (hbefore.append hleft) hright (fallback ++ after)
      simpa using hfallback

/-- Trimmed, the inside of a reference begins with the name. -/
theorem Names.trim
    {name inner : Text}
    (hname : name.IsReferable)
    (h : Names name inner) :
    (∃ rest, inner.trim = name ++ rest) ∧ Names name inner.trim := by
  have hne : name ≠ [] := by
    rintro rfl
    have hlonger := hname.longer
    simp at hlonger
  cases h with
  | @alone left right hleft hright =>
      have htrim : Text.trim (left ++ (name ++ right)) = name := by
        rw [trim_around hleft hright, trim_of_hasBlank hname.blank]
      rw [htrim]
      exact ⟨⟨[], (List.append_nil name).symm⟩, .self name⟩
  | @withFallback left right hleft hright fallback =>
      have htrim :
          Text.trim (left ++ (name ++ right) ++ ',' :: fallback) =
            name ++ right ++ ',' :: trimTail fallback := by
        have haround := trim_around hleft isBlankText_nil (name ++ (right ++ ',' :: fallback))
        rw [List.append_nil, trim_append_of_hasBlank hne hname.blank,
          trimTail_append_cons_of_not_blank (by decide)] at haround
        simpa using haround
      rw [htrim]
      exact ⟨⟨right ++ ',' :: trimTail fallback, by simp⟩,
        .before_fallback hright name (trimTail fallback)⟩

/-! ## The reader -/

theorem trim_parenthesized
    {opening : Text}
    (hopening : opening = "(".toList ∨ opening = "var(".toList)
    (inner : Text) :
    trim (opening ++ (inner ++ ")".toList)) = opening ++ (inner ++ ")".toList) := by
  rcases hopening with rfl | rfl
  · exact trim_enclosed (by decide) (by decide) (by decide) inner
  · exact trim_enclosed (by decide) (by decide) (by decide) inner

theorem referencedProperty?_of_enclosed
    {opening inner value : Text}
    (hopening : opening = "(".toList ∨ opening = "var(".toList)
    (h : value.trim = opening ++ (inner ++ ")".toList)) :
    value.referencedProperty? =
      if (inner.upTo ',').trim.isPropertyReference then some (inner.upTo ',').trim else none := by
  have hopened :
      dropLead? (opening ++ (inner ++ ")".toList)) opening = some (inner ++ ")".toList) :=
    dropLead?_eq_some_iff.2 rfl
  have hclosed : dropTail? (inner ++ ")".toList) [')'] = some inner :=
    dropTail?_eq_some_iff.2 rfl
  unfold referencedProperty?
  rw [h]
  rcases hopening with rfl | rfl
  · have hvar : dropLead? ("(".toList ++ (inner ++ ")".toList)) "var(".toList = none := rfl
    have hparen :
        dropLead? ("(".toList ++ (inner ++ ")".toList)) ['('] = some (inner ++ ")".toList) :=
      hopened
    simp only [hvar, hparen, hclosed, Option.bind_some]
  · simp only [hopened, hclosed, Option.bind_some]

theorem referencedProperty?_of_dashes
    {value : Text}
    (h : value.trim.startsWith "--".toList = true) :
    value.referencedProperty? =
      if (value.trim.upTo ',').trim.isPropertyReference then some (value.trim.upTo ',').trim
      else none := by
  obtain ⟨rest, hrest⟩ := startsWith_iff.1 h
  have hvar : value.trim.dropLead? "var(".toList = none := by
    rw [hrest]
    rfl
  have hparen : value.trim.dropLead? ['('] = none := by
    rw [hrest]
    rfl
  simp only [referencedProperty?, hvar, hparen, Option.bind_some]

/-- A name is read from what is left without blanks, parentheses and a fallback. -/
theorem exists_of_referencedProperty?
    {value name : Text}
    (h : value.referencedProperty? = some name) :
    ∃ inner, name = (inner.upTo ',').trim ∧ name.isPropertyReference = true ∧
      (value.trim = inner ∨
        ∃ opening, (opening = "(".toList ∨ opening = "var(".toList) ∧
          value.trim = opening ++ (inner ++ ")".toList)) := by
  obtain ⟨inner, hinner, hname⟩ := Option.bind_eq_some_iff.1 h
  refine ⟨inner, ?_⟩
  dsimp only at hname
  split at hname
  · next hreference =>
      cases hname
      refine ⟨rfl, hreference, ?_⟩
      split at hinner
      · next opened _ hopened =>
          refine Or.inr ⟨"var(".toList, Or.inr rfl, ?_⟩
          rw [dropLead?_eq_some_iff.1 hopened, dropTail?_eq_some_iff.1 hinner]
          rfl
      · next opened _ hopened =>
          refine Or.inr ⟨"(".toList, Or.inl rfl, ?_⟩
          rw [dropLead?_eq_some_iff.1 hopened, dropTail?_eq_some_iff.1 hinner]
          rfl
      · exact Or.inl (Option.some.inj hinner)
  · cases hname

theorem isReferable_of_referencedProperty?
    {value name : Text}
    (h : value.referencedProperty? = some name) :
    name.IsReferable := by
  obtain ⟨inner, hname, hreference, -⟩ := exists_of_referencedProperty? h
  refine isReferable_iff.2 ⟨hreference, ?_⟩
  intro hmem
  obtain ⟨left, right, -, -, hsplit⟩ := exists_eq_around_trim (inner.upTo ',')
  rw [← hname] at hsplit
  apply not_mem_upTo ',' inner
  rw [hsplit]
  exact List.mem_append_right left (List.mem_append_left right hmem)

theorem refersTo_of_referencedProperty?
    {value name : Text}
    (h : value.referencedProperty? = some name) :
    RefersTo name value := by
  have hreferable := isReferable_of_referencedProperty? h
  obtain ⟨inner, hname, -, hvalue⟩ := exists_of_referencedProperty? h
  have hinner : Names name inner := (names_iff hreferable).2 hname.symm
  obtain ⟨before, after, hbefore, hafter, haround⟩ := exists_eq_around_trim value
  rcases hvalue with rfl | ⟨opening, hopening, henclosed⟩
  · rw [haround]
    exact .bare (hinner.around hbefore hafter)
  · rw [haround, henclosed]
    exact .enclosed hopening hbefore hafter hinner

theorem referencedProperty?_of_refersTo
    {value name : Text}
    (hname : name.IsReferable)
    (h : RefersTo name value) :
    value.referencedProperty? = some name := by
  have hreference := (isReferable_iff.1 hname).1
  cases h with
  | bare hinner =>
      obtain ⟨⟨rest, hrest⟩, htrimmed⟩ := hinner.trim hname
      have hdashes : value.trim.startsWith "--".toList = true := by
        obtain ⟨stem, hstem⟩ := startsWith_iff.1 hname.dashes
        rw [hrest, hstem, List.append_assoc]
        exact startsWith_append _ _
      rw [referencedProperty?_of_dashes hdashes, (names_iff hname).1 htrimmed, if_pos hreference]
  | @enclosed opening before after inner hopening hbefore hafter hinner =>
      have htrim :
          Text.trim (before ++ (opening ++ (inner ++ ")".toList) ++ after)) =
            opening ++ (inner ++ ")".toList) := by
        rw [trim_around hbefore hafter, trim_parenthesized hopening]
      rw [referencedProperty?_of_enclosed hopening htrim, (names_iff hname).1 hinner,
        if_pos hreference]

theorem referencedProperty?_eq_some_iff
    {value name : Text} :
    value.referencedProperty? = some name ↔ name.IsReferable ∧ RefersTo name value := by
  constructor
  · intro h
    exact ⟨isReferable_of_referencedProperty? h, refersTo_of_referencedProperty? h⟩
  · rintro ⟨hname, h⟩
    exact referencedProperty?_of_refersTo hname h

theorem exists_referencedProperty?_iff
    {name : Text} :
    (∃ value : Text, value.referencedProperty? = some name) ↔ name.IsReferable := by
  constructor
  · rintro ⟨value, h⟩
    exact isReferable_of_referencedProperty? h
  · intro h
    exact ⟨name, referencedProperty?_of_refersTo h (.bare (.self name))⟩

theorem refersTo_of_mem_references
    {name fallback value before after : Text}
    (hvalue : value ∈ name.references fallback)
    (hbefore : IsBlankText before)
    (hafter : IsBlankText after) :
    RefersTo name (before ++ (value ++ after)) := by
  have halone : Names name name := .self name
  have hfallback : Names name (name ++ ',' :: fallback) := by
    simpa using Names.before_fallback isBlankText_nil name fallback
  simp only [references, List.mem_cons, List.not_mem_nil, or_false] at hvalue
  rcases hvalue with rfl | rfl | rfl | rfl | rfl
  · exact .bare (.alone hbefore hafter)
  · exact .enclosed (Or.inl rfl) hbefore hafter halone
  · exact .enclosed (Or.inr rfl) hbefore hafter halone
  · exact .enclosed (Or.inl rfl) hbefore hafter hfallback
  · exact .enclosed (Or.inr rfl) hbefore hafter hfallback

end Text

/-! ## Names that a theme can define -/

theorem Config.isVariableName_iff
    {name : Text} :
    isVariableName name = true ↔
      (name.startsWith "--".toList = true ∧ 2 < name.length) ∧ name.hasBlank = false := by
  rw [← Text.continues_dashes_iff, isVariableName, Text.isPropertyName, Bool.and_eq_true]
  constructor
  · rintro ⟨hdashes, hproperty⟩
    split at hproperty
    · cases hproperty
    · next hblank =>
        rw [Bool.or_eq_true, not_or] at hblank
        exact ⟨hproperty, eq_false_of_ne_true hblank.2⟩
  · rintro ⟨hcontinues, hblank⟩
    have hdashes := Text.startsWith_of_continues hcontinues
    have hne : name.isEmpty = false := by
      obtain ⟨c, rest, rfl⟩ := Text.continues_iff.1 hcontinues
      rfl
    refine ⟨hdashes, ?_⟩
    rw [hne, hblank, hdashes]
    exact hcontinues

/--
**Names in references.**  A text refers to a name exactly if it is a reference to it and the name
can stand in one: it begins with two hyphens, goes on after them, and has neither a blank nor a
comma.  Every such name is read from each way to write a reference, whatever the fallback is and
whatever blanks stand around it.  A theme can define all of these names, and of the names that it
can define those with a comma are the ones that no reference has.
-/
theorem referenced_names
    (name : Text) :
    (∀ value : Text,
      value.referencedProperty? = some name ↔ name.IsReferable ∧ Text.RefersTo name value) ∧
    ((∃ value : Text, value.referencedProperty? = some name) ↔ name.IsReferable) ∧
    (name.IsReferable → ∀ fallback before after : Text,
      Text.IsBlankText before → Text.IsBlankText after → ∀ value ∈ name.references fallback,
        Text.referencedProperty? (before ++ (value ++ after)) = some name) ∧
    (∀ value : Text, value.referencedProperty? = some name →
      Config.isVariableName name = true) ∧
    (Config.isVariableName name = true →
      ((∃ value : Text, value.referencedProperty? = some name) ↔ ',' ∉ name)) := by
  refine ⟨fun _ => Text.referencedProperty?_eq_some_iff, Text.exists_referencedProperty?_iff,
    ?_, ?_, ?_⟩
  · intro hname fallback before after hbefore hafter value hvalue
    exact Text.referencedProperty?_of_refersTo hname
      (Text.refersTo_of_mem_references hvalue hbefore hafter)
  · intro value hvalue
    have hname := Text.isReferable_of_referencedProperty? hvalue
    exact Config.isVariableName_iff.2 ⟨⟨hname.dashes, hname.longer⟩, hname.blank⟩
  · intro hvariable
    rw [Text.exists_referencedProperty?_iff, Text.isReferable_iff, Text.isPropertyReference_iff]
    exact and_iff_right (Config.isVariableName_iff.1 hvariable)

/-- A name with parentheses of its own, behind a blank beyond ASCII and in front of a fallback with
more of them; and a name that a theme can define and no reference has. -/
theorem referenced_names_parentheses :
    Text.referencedProperty? (['\u3000'] ++ ("var(--a)é(, f(x) )".toList ++ ['\n'])) =
        some "--a)é(".toList ∧
      Config.isVariableName "--a)é(".toList = true ∧
      Config.isVariableName "--a,b".toList = true ∧
      ¬ ∃ value : Text, value.referencedProperty? = some "--a,b".toList := by
  have hname : Text.IsReferable "--a)é(".toList :=
    ⟨by decide, by decide, by simp [Text.hasBlank, isBlank], by decide⟩
  have hbefore : Text.IsBlankText ['\u3000'] := by simp [Text.IsBlankText, isBlank]
  have hafter : Text.IsBlankText ['\n'] := by simp [Text.IsBlankText, isBlank]
  have hcall : "var(--a)é(, f(x) )".toList ∈ Text.references "--a)é(".toList " f(x) ".toList := by
    decide
  have hcomma : Config.isVariableName "--a,b".toList = true := by decide
  have hread := (referenced_names _).2.2.1 hname _ _ _ hbefore hafter _ hcall
  refine ⟨hread, (referenced_names _).2.2.2.1 _ hread, hcomma, ?_⟩
  rw [(referenced_names _).2.2.2.2 hcomma]
  decide

end ClassLint
