import ClassLint.Proofs.Theme.Exclusion

/-!
# Spellings of a theme token

A utility names a theme token in parentheses or in brackets, directly or in a call of `var`, and
a hint may stand in front of the name.  All of these are references to the same token; what a hint
decides is the kind of the token, or that there is none.

Which family a utility belongs to is found by going through a table from its front.  No beginning
in the table is the beginning of a later one, so the first one that fits is the longest.

**Results.**
* `afterFamily?_eq_some_iff`: in such a table the beginning that is found is the longest one.
* `hintedValue?_of_mem_tokenSpellings`: each spelling is read as its hint and a reference.
* `reference?_of_mem_families`, `reference?_of_mem_lengthHintedFamilies`: what a spelling refers
  to behind the beginning of a family.
* `token_spellings`: all spellings refer to the same token, and tables find the longest beginning.
-/

namespace ClassLint

namespace Text

/-! ## The longest beginning -/

/-- No beginning in the table is the beginning of a later one. -/
def LongestFirst {α : Type} (table : List (Text × α)) : Prop :=
  table.Pairwise fun earlier later => later.1.startsWith earlier.1 = false

instance {α : Type} (table : List (Text × α)) : Decidable (LongestFirst table) :=
  inferInstanceAs (Decidable (List.Pairwise _ table))

/-- Of two beginnings of one text the longer one begins with the shorter one. -/
theorem startsWith_of_length_le
    {base shorter longer : Text}
    (hshorter : base.startsWith shorter = true)
    (hlonger : base.startsWith longer = true)
    (hlength : shorter.length ≤ longer.length) :
    longer.startsWith shorter = true := by
  obtain ⟨rest, hrest⟩ := startsWith_iff.1 hshorter
  obtain ⟨tail, htail⟩ := startsWith_iff.1 hlonger
  obtain ⟨between, hbetween⟩ :=
    List.prefix_of_prefix_length_le ⟨rest, hrest.symm⟩ ⟨tail, htail.symm⟩ hlength
  exact startsWith_iff.2 ⟨between, hbetween.symm⟩

/-- A beginning that does not begin with another one of the same text is shorter. -/
theorem length_lt_of_startsWith
    {base lead other : Text}
    (hlead : base.startsWith lead = true)
    (hother : base.startsWith other = true)
    (hapart : other.startsWith lead = false) :
    other.length < lead.length := by
  by_contra hlong
  rw [startsWith_of_length_le hlead hother (Nat.le_of_not_lt hlong)] at hapart
  cases hapart

section Table

variable {α : Type} {table : List (Text × α)}

theorem afterFamily?_cons_append
    (lead raw : Text) (item : α) (table : List (Text × α)) :
    afterFamily? ((lead, item) :: table) (lead ++ raw) = some (item, raw) := by
  have hdrop : dropLead? (lead ++ raw) lead = some raw := dropLead?_eq_some_iff.2 rfl
  simp only [afterFamily?, List.findSome?_cons, hdrop, Option.map_some]

theorem afterFamily?_cons_of_startsWith_eq_false
    {base lead : Text}
    (h : base.startsWith lead = false)
    (item : α) (table : List (Text × α)) :
    base.afterFamily? ((lead, item) :: table) = base.afterFamily? table := by
  have hdrop : base.dropLead? lead = none :=
    Option.isNone_iff_eq_none.1 (Option.isSome_eq_false_iff.1 h)
  simp only [afterFamily?, List.findSome?_cons, hdrop, Option.map_none]

theorem afterFamily?_eq_none_iff
    {base : Text} :
    base.afterFamily? table = none ↔ ∀ entry ∈ table, base.startsWith entry.1 = false := by
  rw [afterFamily?, List.findSome?_eq_none_iff]
  constructor
  · intro h entry hentry
    have hdrop := Option.map_eq_none_iff.1 (h entry hentry)
    rw [startsWith, hdrop]
    rfl
  · intro h entry hentry
    have hdrop : base.dropLead? entry.1 = none :=
      Option.isNone_iff_eq_none.1 (Option.isSome_eq_false_iff.1 (h entry hentry))
    simp only [hdrop, Option.map_none]

/-- The beginning that is found is the longest one that the table has for the text. -/
theorem afterFamily?_eq_some_iff
    (hlongest : LongestFirst table)
    {base raw : Text} {item : α} :
    base.afterFamily? table = some (item, raw) ↔
      ∃ lead, (lead, item) ∈ table ∧ base = lead ++ raw ∧
        ∀ entry ∈ table, base.startsWith entry.1 = true → entry.1.length ≤ lead.length := by
  induction table with
  | nil => simp [afterFamily?]
  | cons first table ih =>
      obtain ⟨front, found⟩ := first
      obtain ⟨hfirst, htable⟩ := List.pairwise_cons.1 hlongest
      cases hstarts : base.startsWith front with
      | true =>
          obtain ⟨rest, rfl⟩ := startsWith_iff.1 hstarts
          have hlater (entry : Text × α) (hentry : entry ∈ table)
              (hother : startsWith (front ++ rest) entry.1 = true) :
              entry.1.length < front.length :=
            length_lt_of_startsWith hstarts hother (hfirst entry hentry)
          rw [afterFamily?_cons_append]
          constructor
          · intro h
            cases h
            refine ⟨front, List.mem_cons_self, rfl, ?_⟩
            intro entry hentry hother
            rcases List.mem_cons.1 hentry with rfl | hentry
            · exact Nat.le_refl _
            · exact Nat.le_of_lt (hlater entry hentry hother)
          · rintro ⟨lead, hlead, hsplit, hmax⟩
            rcases List.mem_cons.1 hlead with heq | hlead
            · cases heq
              rw [List.append_cancel_left hsplit]
            · have hfront : front.length ≤ lead.length := hmax _ List.mem_cons_self hstarts
              have hshort := hlater _ hlead (startsWith_iff.2 ⟨raw, hsplit⟩)
              exact absurd hshort (Nat.not_lt_of_le hfront)
      | false =>
          rw [afterFamily?_cons_of_startsWith_eq_false hstarts, ih htable]
          constructor
          · rintro ⟨lead, hlead, hsplit, hmax⟩
            refine ⟨lead, List.mem_cons_of_mem _ hlead, hsplit, ?_⟩
            intro entry hentry hother
            rcases List.mem_cons.1 hentry with rfl | hentry
            · rw [hstarts] at hother
              cases hother
            · exact hmax entry hentry hother
          · rintro ⟨lead, hlead, hsplit, hmax⟩
            rcases List.mem_cons.1 hlead with heq | hlead
            · cases heq
              rw [startsWith_iff.2 ⟨raw, hsplit⟩] at hstarts
              cases hstarts
            · exact ⟨lead, hlead, hsplit, fun entry hentry =>
                hmax entry (List.mem_cons_of_mem _ hentry)⟩

/-- No longer family goes on with a character that the table does not have. -/
theorem afterFamily?_append_cons
    {lead : Text} {item : α} {c : Char}
    (hlongest : LongestFirst table)
    (hentry : (lead, item) ∈ table)
    (hc : ∀ entry ∈ table, c ∉ entry.1)
    (rest : Text) :
    (lead ++ c :: rest).afterFamily? table = some (item, c :: rest) := by
  refine (afterFamily?_eq_some_iff hlongest).2 ⟨lead, hentry, rfl, ?_⟩
  intro entry hother hstarts
  by_contra hlong
  have hsplit : lead ++ c :: rest = lead ++ [c] ++ rest := by simp
  have hlead : startsWith (lead ++ c :: rest) (lead ++ [c]) = true := by
    rw [hsplit]
    exact startsWith_append _ _
  have hlength : (lead ++ [c]).length ≤ entry.1.length := by
    simpa using Nat.lt_of_not_le hlong
  obtain ⟨tail, htail⟩ := startsWith_iff.1 (startsWith_of_length_le hlead hstarts hlength)
  apply hc entry hother
  rw [htail]
  simp

end Table

/-! ## Spellings -/

/-- A name of a theme token without the characters that references and hints are written with. -/
structure IsPlainToken (name : Text) : Prop where
  dashes : name.startsWith "--".toList = true
  longer : 2 < name.length
  plain : ∀ c ∈ name, isBlank c = false ∧ c ∉ ",:()[]".toList

/-- A value behind a hint, if there is one. -/
def withHint : Option Text → Text → Text
  | none, value => value
  | some hint, value => hint ++ ':' :: value

/-- The values that refer to a name: the name alone, and a call of `var`. -/
def tokenValues (name : Text) : List Text :=
  [name, "var(".toList ++ (name ++ ")".toList)]

/-- The references to a name with the given hint, in parentheses and in brackets: `(hint:name)`,
`[hint:name]`, `(hint:var(name))` and `[hint:var(name)]`. -/
def tokenSpellings (hint : Option Text) (name : Text) : List Text :=
  name.tokenValues.flatMap fun value =>
    [('(', ')'), ('[', ']')].map fun (opening, closing) =>
      opening :: (withHint hint value ++ [closing])

/-- Whether the text has nothing but lower case letters and hyphens. -/
def hasHintLetters (hint : Text) : Bool :=
  hint.all fun c => c.isLower || c == '-'

/-! ## Reading a spelling -/

theorem cutAtFirst?_of_not_mem
    {mark : Char} {s : Text}
    (h : mark ∉ s) :
    cutAtFirst? mark s = none := by
  rw [Option.eq_none_iff_forall_ne_some]
  rintro ⟨left, right⟩ hcut
  apply h
  rw [append_of_cutAtFirst? hcut]
  exact List.mem_append_right left List.mem_cons_self

theorem cutAtFirst?_append_cons
    {mark : Char} {left : Text}
    (h : mark ∉ left)
    (right : Text) :
    cutAtFirst? mark (left ++ mark :: right) = some (left, right) := by
  induction left with
  | nil => simp [cutAtFirst?]
  | cons c left ih =>
      have hne : c ≠ mark := fun e => h (e ▸ List.mem_cons_self)
      have hrest := ih fun hmem => h (List.mem_cons_of_mem c hmem)
      simp only [List.cons_append, cutAtFirst?, if_neg hne, hrest, Option.map_some]

theorem not_mem_colon_of_hasHintLetters
    {hint : Text}
    (h : hint.hasHintLetters = true) :
    ':' ∉ hint := by
  intro hmem
  have hcolon := List.all_eq_true.1 h ':' hmem
  revert hcolon
  decide

/-- Between parentheses or brackets a hint is looked for in front of the first colon. -/
theorem hintedValue?_enclosed
    {opening closing : Char}
    (hpair : (opening, closing) ∈ [('(', ')'), ('[', ']')])
    (inner : Text) :
    hintedValue? (opening :: (inner ++ [closing])) =
      some (match inner.cutAtFirst? ':' with
        | some (hint, value) => if hint.isHint then (some hint, value) else (none, inner)
        | none => (none, inner)) := by
  have henclosed : between? (opening :: (inner ++ [closing])) [opening] [closing] = some inner :=
    between?_eq_some_iff.2 rfl
  have hread :
      ((between? (opening :: (inner ++ [closing])) ['('] [')']).or
        (between? (opening :: (inner ++ [closing])) ['['] [']'])) = some inner := by
    simp only [List.mem_cons, Prod.mk.injEq, List.not_mem_nil, or_false] at hpair
    rcases hpair with ⟨rfl, rfl⟩ | ⟨rfl, rfl⟩
    · rw [henclosed, Option.some_or]
    · have hparen : between? ('[' :: (inner ++ [']'])) ['('] [')'] = none := rfl
      rw [henclosed, hparen, Option.none_or]
  rw [hintedValue?]
  exact congrArg (Option.map _) hread

section Value

variable {name value : Text} (hname : name.IsPlainToken) (hvalue : value ∈ name.tokenValues)
include hname

theorem IsPlainToken.isReferable :
    name.IsReferable := by
  have hblank : name.hasBlank = false := by
    rw [hasBlank, List.any_eq_false]
    intro c hc
    rw [(hname.plain c hc).1]
    decide
  exact ⟨hname.dashes, hname.longer, hblank, fun hc => (hname.plain _ hc).2 (by decide)⟩

include hvalue

theorem referencedProperty?_of_mem_tokenValues :
    value.referencedProperty? = some name := by
  apply referencedProperty?_of_refersTo hname.isReferable
  simp only [tokenValues, List.mem_cons, List.not_mem_nil, or_false] at hvalue
  rcases hvalue with rfl | rfl
  · exact .bare (.self _)
  · simpa using RefersTo.enclosed (Or.inr rfl) isBlankText_nil isBlankText_nil (.self name)

theorem not_mem_colon_of_mem_tokenValues :
    ':' ∉ value := by
  have hcolon : ':' ∉ name := fun hc => (hname.plain _ hc).2 (by decide)
  simp only [tokenValues, List.mem_cons, List.not_mem_nil, or_false] at hvalue
  rcases hvalue with rfl | rfl
  · exact hcolon
  · rw [List.mem_append, List.mem_append, not_or, not_or]
    exact ⟨by decide, hcolon, by decide⟩

end Value

/-- No reference begins with a colon. -/
theorem referencedProperty?_colon
    (s : Text) :
    referencedProperty? (':' :: s) = none := by
  rw [Option.eq_none_iff_forall_ne_some]
  intro name h
  obtain ⟨inner, hname, hreference, hvalue⟩ := exists_of_referencedProperty? h
  rw [trim_cons_of_not_blank (by decide)] at hvalue
  rcases hvalue with rfl | ⟨opening, rfl | rfl, hopened⟩
  · have hfront : upTo ',' (':' :: trimTail s) = ':' :: upTo ',' (trimTail s) := rfl
    rw [hname, hfront, trim_cons_of_not_blank (by decide)] at hreference
    cases hreference
  · cases hopened
  · cases hopened

/-- A spelling without a hint is read as one, and a spelling with a hint is read with it. -/
theorem hintedValue?_of_mem_tokenSpellings
    {hint : Option Text} {name spelling : Text}
    (hname : name.IsPlainToken)
    (hhint : ∀ h ∈ hint, h.hasHintLetters = true)
    (hempty : hint ≠ some [])
    (hspelling : spelling ∈ tokenSpellings hint name) :
    ∃ value ∈ name.tokenValues, spelling.hintedValue? = some (hint, value) := by
  obtain ⟨value, hvalue, henclosed⟩ := List.mem_flatMap.1 hspelling
  obtain ⟨⟨opening, closing⟩, hpair, rfl⟩ := List.mem_map.1 henclosed
  refine ⟨value, hvalue, ?_⟩
  rw [hintedValue?_enclosed hpair]
  cases hint with
  | none =>
      have hcut := cutAtFirst?_of_not_mem (not_mem_colon_of_mem_tokenValues hname hvalue)
      simp only [withHint, hcut]
  | some hint =>
      have hletters : hint.hasHintLetters = true := hhint hint rfl
      have hcolon := not_mem_colon_of_hasHintLetters hletters
      have hisHint : hint.isHint = true := by
        cases hint with
        | nil => exact absurd rfl hempty
        | cons c rest => exact hletters
      simp only [withHint, cutAtFirst?_append_cons hcolon, hisHint, if_true]

/-- A colon with nothing in front of it is not taken for a hint, and then belongs to the value. -/
theorem hintedValue?_of_emptyHint
    {name spelling : Text}
    (hspelling : spelling ∈ tokenSpellings (some []) name) :
    ∃ value, spelling.hintedValue? = some (none, ':' :: value) := by
  obtain ⟨value, -, henclosed⟩ := List.mem_flatMap.1 hspelling
  obtain ⟨⟨opening, closing⟩, hpair, rfl⟩ := List.mem_map.1 henclosed
  refine ⟨value, ?_⟩
  rw [hintedValue?_enclosed hpair]
  rfl

theorem exists_cons_of_mem_tokenSpellings
    {hint : Option Text} {name spelling : Text}
    (hspelling : spelling ∈ tokenSpellings hint name) :
    ∃ c rest, (c = '(' ∨ c = '[') ∧ spelling = c :: rest := by
  obtain ⟨value, -, henclosed⟩ := List.mem_flatMap.1 hspelling
  obtain ⟨⟨opening, closing⟩, hpair, rfl⟩ := List.mem_map.1 henclosed
  simp only [List.mem_cons, Prod.mk.injEq, List.not_mem_nil, or_false] at hpair
  rcases hpair with ⟨rfl, rfl⟩ | ⟨rfl, rfl⟩
  · exact ⟨_, _, Or.inl rfl, rfl⟩
  · exact ⟨_, _, Or.inr rfl, rfl⟩

end Text

namespace TokenKind

open Text

/-! ## Spellings behind a family -/

theorem longestFirst_families :
    LongestFirst families := by
  decide +kernel

theorem longestFirst_lengthHintedFamilies :
    LongestFirst lengthHintedFamilies := by
  decide

theorem eq_font_iff_of_mem_families :
    ∀ entry ∈ families, entry.2 = .font ↔ entry.1 = "font-".toList := by
  decide +kernel

/-- No family has a character that a spelling opens with. -/
theorem not_mem_of_mem_families :
    ∀ entry ∈ families ++ lengthHintedFamilies, '(' ∉ entry.1 ∧ '[' ∉ entry.1 := by
  decide +kernel

theorem not_mem_of_opening
    {c : Char} {entry : Text × TokenKind}
    (hc : c = '(' ∨ c = '[')
    (hentry : entry ∈ families ++ lengthHintedFamilies) :
    c ∉ entry.1 := by
  obtain ⟨hparen, hbracket⟩ := not_mem_of_mem_families entry hentry
  rcases hc with rfl | rfl
  · exact hparen
  · exact hbracket

section Families

variable {lead hint name spelling : Text} {kind : TokenKind}

theorem reference?_append_of_mem_families
    {hint : Option Text}
    (hfamily : (lead, kind) ∈ families)
    (hspelling : spelling ∈ tokenSpellings hint name) :
    reference? (lead ++ spelling) =
      (spelling.hintedValue?).bind fun (hint, value) =>
        (kind.underHint? hint).bind fun kind =>
          (value.referencedProperty?).map fun property => (kind, property) := by
  have hother : ∀ entry ∈ lengthHintedFamilies, diverges lead entry.1 = true := fun entry hentry =>
    diverges_colorFamilies _ hfamily _ (lead_mem_colorFamilies entry hentry)
  obtain ⟨c, rest, hc, rfl⟩ := exists_cons_of_mem_tokenSpellings hspelling
  rw [reference?, afterFamily?_append_eq_none hother,
    afterFamily?_append_cons longestFirst_families hfamily fun entry hentry =>
      not_mem_of_opening hc (List.mem_append_left _ hentry)]
  rfl

theorem reference?_append_of_mem_lengthHintedFamilies
    {hint : Option Text}
    (hfamily : (lead, kind) ∈ lengthHintedFamilies)
    (hspelling : spelling ∈ tokenSpellings hint name) :
    reference? (lead ++ spelling) =
      (spelling.hintedValue?).bind fun (hint, value) =>
        if hint == some "length".toList then
          (value.referencedProperty?).map fun property => (kind, property)
        else none := by
  obtain ⟨c, rest, hc, rfl⟩ := exists_cons_of_mem_tokenSpellings hspelling
  rw [reference?,
    afterFamily?_append_cons longestFirst_lengthHintedFamilies hfamily fun entry hentry =>
      not_mem_of_opening hc (List.mem_append_right _ hentry)]

/-- Behind most families a hint decides the kind of the token. -/
theorem reference?_of_mem_families
    {hint : Option Text}
    (hfamily : (lead, kind) ∈ families)
    (hname : name.IsPlainToken)
    (hhint : ∀ h ∈ hint, h.hasHintLetters = true)
    (hspelling : spelling ∈ tokenSpellings hint name) :
    reference? (lead ++ spelling) = (kind.underHint? hint).map fun kind => (kind, name) := by
  rw [reference?_append_of_mem_families hfamily hspelling]
  by_cases hempty : hint = some []
  · subst hempty
    obtain ⟨value, hread⟩ := hintedValue?_of_emptyHint hspelling
    rw [hread, Option.bind_some]
    simp only [referencedProperty?_colon, Option.map_none]
    exact Option.bind_fun_none _
  · obtain ⟨value, hvalue, hread⟩ :=
      hintedValue?_of_mem_tokenSpellings hname hhint hempty hspelling
    rw [hread, Option.bind_some]
    simp only [referencedProperty?_of_mem_tokenValues hname hvalue, Option.map_some]
    exact (Option.map_eq_bind ..).symm

/-- Behind the families that are for colors as well, only the hint of a length makes a token. -/
theorem reference?_of_mem_lengthHintedFamilies
    {hint : Option Text}
    (hfamily : (lead, kind) ∈ lengthHintedFamilies)
    (hname : name.IsPlainToken)
    (hhint : ∀ h ∈ hint, h.hasHintLetters = true)
    (hspelling : spelling ∈ tokenSpellings hint name) :
    reference? (lead ++ spelling) =
      if hint = some "length".toList then some (kind, name) else none := by
  rw [reference?_append_of_mem_lengthHintedFamilies hfamily hspelling]
  by_cases hempty : hint = some []
  · subst hempty
    obtain ⟨value, hread⟩ := hintedValue?_of_emptyHint hspelling
    rw [hread]
    rfl
  · obtain ⟨value, hvalue, hread⟩ :=
      hintedValue?_of_mem_tokenSpellings hname hhint hempty hspelling
    rw [hread]
    simp only [Option.bind_some, beq_iff_eq, referencedProperty?_of_mem_tokenValues hname hvalue,
      Option.map_some]

end Families

theorem underHint?_of_ne_length
    {lead hint : Text} {kind : TokenKind}
    (hfamily : (lead, kind) ∈ families)
    (hhint : hint ≠ "length".toList) :
    kind.underHint? (some hint) =
      if lead = "font-".toList ∧ hint = "weight".toList then some .fontWeight else none := by
  have hfont : kind = .font ↔ lead = "font-".toList := eq_font_iff_of_mem_families _ hfamily
  simp only [underHint?, Bool.and_eq_true, beq_iff_eq, hfont, if_neg hhint]
  exact if_congr and_comm rfl rfl

theorem longestFirst_of_mem
    {table : List (Text × TokenKind)}
    (h : table ∈ [families, lengthHintedFamilies]) :
    LongestFirst table := by
  simp only [List.mem_cons, List.not_mem_nil, or_false] at h
  rcases h with rfl | rfl
  · exact longestFirst_families
  · exact longestFirst_lengthHintedFamilies

/--
**All spellings of a theme token mean the same.**  Behind the beginning of a family, a name in
parentheses or in brackets, alone or in a call of `var`, refers to the token of the family's kind,
without a hint and with the hint of a length.  The hint of a weight makes the token of a font one of
a font's weight; every other hint leaves no token.  Behind the families that are for colors as well,
the hint of a length makes a token, and without it there is none.  In either table, the beginning
that is found for a text is the longest of those that it has.
-/
theorem token_spellings :
    (∀ name : Text, name.IsPlainToken →
      (∀ lead kind, (lead, kind) ∈ families →
        (∀ hint ∈ [none, some "length".toList], ∀ spelling ∈ tokenSpellings hint name,
          reference? (lead ++ spelling) = some (kind, name)) ∧
        (∀ hint : Text, hint.hasHintLetters = true → hint ≠ "length".toList →
          ∀ spelling ∈ tokenSpellings (some hint) name,
            reference? (lead ++ spelling) =
              if lead = "font-".toList ∧ hint = "weight".toList then some (.fontWeight, name)
              else none)) ∧
      (∀ lead kind, (lead, kind) ∈ lengthHintedFamilies →
        (∀ spelling ∈ tokenSpellings (some "length".toList) name,
          reference? (lead ++ spelling) = some (kind, name)) ∧
        (∀ hint : Option Text, (∀ h ∈ hint, h.hasHintLetters = true) →
          hint ≠ some "length".toList → ∀ spelling ∈ tokenSpellings hint name,
            reference? (lead ++ spelling) = none))) ∧
    (∀ table ∈ [families, lengthHintedFamilies], ∀ base : Text,
      (∀ kind raw, base.afterFamily? table = some (kind, raw) ↔
        ∃ lead, (lead, kind) ∈ table ∧ base = lead ++ raw ∧
          ∀ entry ∈ table, base.startsWith entry.1 = true → entry.1.length ≤ lead.length) ∧
      (base.afterFamily? table = none ↔ ∀ entry ∈ table, base.startsWith entry.1 = false)) := by
  have hlength : ∀ h ∈ some "length".toList, hasHintLetters h = true := by
    rintro h ⟨⟩
    decide
  refine ⟨fun name hname => ⟨fun lead kind hfamily => ⟨?_, ?_⟩, fun lead kind hfamily => ⟨?_, ?_⟩⟩,
    fun table htable base => ⟨fun kind raw => ?_, afterFamily?_eq_none_iff⟩⟩
  · intro hint hhint spelling hspelling
    simp only [List.mem_cons, List.not_mem_nil, or_false] at hhint
    rcases hhint with rfl | rfl
    · exact reference?_of_mem_families hfamily hname (by simp) hspelling
    · rw [reference?_of_mem_families hfamily hname hlength hspelling]
      rfl
  · intro hint hletters hhint spelling hspelling
    have hsome : ∀ h ∈ some hint, hasHintLetters h = true := by
      rintro h ⟨⟩
      exact hletters
    rw [reference?_of_mem_families hfamily hname hsome hspelling,
      underHint?_of_ne_length hfamily hhint]
    split
    · rfl
    · rfl
  · intro spelling hspelling
    rw [reference?_of_mem_lengthHintedFamilies hfamily hname hlength hspelling, if_pos rfl]
  · intro hint hletters hhint spelling hspelling
    rw [reference?_of_mem_lengthHintedFamilies hfamily hname hletters hspelling, if_neg hhint]
  · exact afterFamily?_eq_some_iff (longestFirst_of_mem htable)

/-- A family that begins as a shorter one does, the hint of a weight, and a family that is for
colors as well, with a name that has a letter beyond ASCII and a slash. -/
theorem token_spellings_nestedFamily :
    let name : Text := "--é/x".toList
    IsPlainToken name ∧
      reference? "inset-x-[length:var(--é/x)]".toList = some (.spacing, name) ∧
      reference? "font-[weight:--é/x]".toList = some (.fontWeight, name) ∧
      reference? "ring-offset-[var(--é/x)]".toList = none := by
  intro name
  have hname : IsPlainToken name := ⟨by decide, by decide, by simp [name, isBlank]⟩
  have hinset : ("inset-x-".toList, spacing) ∈ families := by decide +kernel
  have hfont : ("font-".toList, font) ∈ families := by decide +kernel
  have hoffset : ("ring-offset-".toList, ringOffset) ∈ lengthHintedFamilies := by decide
  have hinsetSplit :
      "inset-x-[length:var(--é/x)]".toList =
        "inset-x-".toList ++ "[length:var(--é/x)]".toList := by
    decide
  have hfontSplit :
      "font-[weight:--é/x]".toList = "font-".toList ++ "[weight:--é/x]".toList := by
    decide
  have hoffsetSplit :
      "ring-offset-[var(--é/x)]".toList = "ring-offset-".toList ++ "[var(--é/x)]".toList := by
    decide
  obtain ⟨hfamilies, hhinted⟩ := token_spellings.1 name hname
  refine ⟨hname, ?_, ?_, ?_⟩
  · rw [hinsetSplit]
    exact (hfamilies _ _ hinset).1 (some "length".toList) (by decide) _ (by decide)
  · rw [hfontSplit]
    exact (hfamilies _ _ hfont).2 "weight".toList (by decide) (by decide) _ (by decide)
  · rw [hoffsetSplit]
    exact (hhinted _ _ hoffset).2 none (by simp) (by decide) _ (by decide)

end TokenKind

end ClassLint
