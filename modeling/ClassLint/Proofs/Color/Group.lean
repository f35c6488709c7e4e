import ClassLint.Proofs.Color.Chain
import ClassLint.Proofs.Conflict.Family

/-!
# Colors and conflict groups

Whether a utility gives a color and which group it conflicts in are decided from its text
apart from each other.  Both agree: a utility that gives a color conflicts as a color.

Without a theme color of its name, a value that gives a color begins as one of a few forms:
a reference, an arbitrary value in brackets, a keyword, or a name of the palette.  No group
other than that of the color has a value that begins so.

**Results.**
* `beginsColor_of_resolveValue`: how a value that gives a color begins.
* `BeginsColor.startsWith_eq_false`: it does not begin as other values do.
* `colorGroup_of_resolve`: the group of a utility that gives a color.
-/

namespace ClassLint

namespace Text

/-! ## References in parentheses and values in brackets -/

/-- A color or a reference to one may begin so inside of brackets. -/
def opensColor (c : Char) : Bool :=
  isBlank c || c == 'c' || c == 'v' || c == '-' || c == '#' || c.toLower == 'o'

/-- The reference of a color may begin so inside of parentheses. -/
def opensReference (c : Char) : Bool :=
  isBlank c || c == 'c' || c == '-'

/-- A property name that a value may refer to begins with two hyphens. -/
theorem eq_hyphen_of_isPropertyReference
    {c : Char} {s : Text}
    (h : isPropertyReference (c :: s) = true) :
    c = '-' := by
  have hcontinues := (Bool.and_eq_true_iff.1 h).1
  by_cases hc : '-' = c
  · exact hc.symm
  · have hlead : dropLead? (c :: s) "--".toList = none := dropLead?_cons_of_ne hc _ s
    unfold continues at hcontinues
    rw [hlead] at hcontinues
    cases hcontinues

theorem opensReference_of_referencedProperty?
    {c : Char} {s name : Text}
    (h : referencedProperty? ('(' :: c :: s) = some name) :
    isBlank c = true ∨ c = '-' := by
  cases hc : isBlank c with
  | true => exact Or.inl rfl
  | false =>
      right
      have htrim : trim ('(' :: c :: s) = '(' :: c :: trimTail s := by
        rw [trim_cons_of_not_blank (by decide), trimTail_cons_of_not_blank hc]
      have hvar : dropLead? ('(' :: c :: trimTail s) "var(".toList = none := rfl
      have hopen : dropLead? ('(' :: c :: trimTail s) ['('] = some (c :: trimTail s) := rfl
      unfold referencedProperty? at h
      simp only [htrim, hvar, hopen] at h
      obtain ⟨inner, hinner, hname⟩ := Option.bind_eq_some_iff.1 h
      have hsplit := dropTail?_eq_some_iff.1 hinner
      have hreference : isPropertyReference (inner.upTo ',').trim = true := by
        split at hname
        · next hyes => exact hyes
        · cases hname
      cases inner with
      | nil => cases hreference
      | cons b inner =>
          have hb : c = b := by
            simpa using congrArg List.head? hsplit
          subst hb
          by_cases hcomma : c = ','
          · subst hcomma
            cases hreference
          · have hupTo : upTo ',' (c :: inner) = c :: upTo ',' inner := by
              simp [upTo, hcomma]
            rw [hupTo, trim_cons_of_not_blank hc] at hreference
            exact eq_hyphen_of_isPropertyReference hreference

theorem opensReference_of_colorReference?
    {s name : Text}
    (h : colorReference? ('(' :: s) = some name) :
    ∃ c rest, s = c :: rest ∧ opensReference c = true := by
  have hbrackets : between? ('(' :: s) ['['] [']'] = none := rfl
  have hopen : startsWith ('(' :: s) ['('] = true := by
    cases s <;> rfl
  unfold colorReference? at h
  simp only [hbrackets, hopen, Bool.true_or, if_true] at h
  cases hhint : dropLead? ('(' :: s) "(color:".toList with
  | some hinted =>
      have hsplit := dropLead?_eq_some_iff.1 hhint
      cases hsplit
      exact ⟨'c', "olor:".toList ++ hinted, rfl, by decide⟩
  | none =>
      rw [hhint] at h
      cases s with
      | nil => cases h
      | cons c rest =>
          refine ⟨c, rest, rfl, ?_⟩
          rcases opensReference_of_referencedProperty? h with hblank | rfl
          · simp [opensReference, hblank]
          · decide

/-- A reference in brackets begins so, with or without a hint. -/
theorem opensColor_of_isReferenceLead
    {inner : Text}
    (h : (inner.withoutLead "color:".toList).isReferenceLead = true) :
    ∃ c rest, inner = c :: rest ∧ opensColor c = true := by
  rcases withoutLead_cases inner "color:".toList with hhint | ⟨-, hplain⟩
  · exact ⟨'c', "olor:".toList ++ inner.withoutLead "color:".toList, hhint, by decide⟩
  · rw [hplain] at h
    rcases Bool.or_eq_true_iff.1 h with hvar | hdashes
    · obtain ⟨rest, hsplit⟩ := startsWith_iff.1 hvar
      exact ⟨'v', "ar(".toList ++ rest, hsplit, by decide⟩
    · obtain ⟨rest, hsplit⟩ := startsWith_iff.1 hdashes
      exact ⟨'-', '-' :: rest, hsplit, by decide⟩

theorem ofHex?_eq_none
    {c : Char}
    (hblank : isBlank c = false)
    (hne : '#' ≠ c)
    (s : Text) :
    Rgba.ofHex? (c :: s) = none := by
  unfold Rgba.ofHex? Rgba8.ofHex?
  rw [trim_cons_of_not_blank hblank]
  split
  · next digits hsplit =>
      cases hsplit
      exact absurd rfl hne
  · rfl

theorem ofText?_eq_none
    {c : Char}
    (hblank : isBlank c = false)
    (hne : 'o' ≠ c.toLower)
    (s : Text) :
    Oklch.ofText? (c :: s) = none := by
  have hfirst : 'o' ≠ (if c = '_' then ' ' else c).toLower := by
    split
    · decide
    · exact hne
  unfold Oklch.ofText?
  simp only [trim_cons_of_not_blank hblank, List.map_cons, lower]
  unfold between?
  rw [show "oklch(".toList = 'o' :: "klch(".toList from rfl, dropLead?_cons_of_ne hfirst]
  rfl

theorem opensColor_of_ofArbitrary
    {inner : Text}
    (h : ColorReading.ofArbitrary inner ≠ .nothing) :
    ∃ c rest, inner = c :: rest ∧ opensColor c = true := by
  cases inner with
  | nil => exact absurd rfl h
  | cons c rest =>
      refine ⟨c, rest, rfl, ?_⟩
      cases hopens : opensColor c with
      | true => rfl
      | false =>
          exfalso
          apply h
          simp only [opensColor, Bool.or_eq_false_iff, beq_eq_false_iff_ne] at hopens
          obtain ⟨⟨⟨⟨⟨hblank, hc⟩, hv⟩, hhyphen⟩, hhash⟩, ho⟩ := hopens
          have htrim : trim (c :: rest) = c :: trimTail rest := trim_cons_of_not_blank hblank rest
          have hhint : withoutLead (c :: trimTail rest) "color:".toList = c :: trimTail rest :=
            withoutLead_cons_of_ne hc.symm _ _
          have hvar : startsWith (c :: trimTail rest) "var(".toList = false :=
            startsWith_cons_of_ne hv.symm _ _
          have hdashes : startsWith (c :: trimTail rest) "--".toList = false :=
            startsWith_cons_of_ne hhyphen.symm _ _
          unfold ColorReading.ofArbitrary
          simp only [htrim, hhint, hvar, hdashes, Bool.or_self, Bool.false_eq_true, if_false,
            ofText?_eq_none hblank ho.symm, ofHex?_eq_none hblank hhash.symm]
          rfl

/-! ## How colors begin -/

theorem mem_digits_of_isDigit
    {c : Char}
    (h : c.isDigit = true) :
    c ∈ "0123456789".toList := by
  have hrange : 48 ≤ c.toNat ∧ c.toNat ≤ 57 := by
    simpa [Char.isDigit, UInt32.le_iff_toNat_le] using h
  have hdigits : ∀ n ∈ List.range' 48 10, Char.ofNat n ∈ "0123456789".toList := by
    decide
  rw [← Char.ofNat_toNat c]
  exact hdigits c.toNat (List.mem_range'_1.2 ⟨hrange.1, by omega⟩)

theorem opensColor_eq_false_of_isDigit
    {c : Char}
    (h : (c.isDigit || c == '.') = true) :
    opensColor c = false := by
  rcases Bool.or_eq_true_iff.1 h with hdigit | hpoint
  · have hdigits : ("0123456789".toList.all fun c => !opensColor c) = true := by
      decide
    have hc := List.all_eq_true.1 hdigits c (mem_digits_of_isDigit hdigit)
    simpa using hc
  · rw [beq_iff_eq.1 hpoint]
    decide

/-- Whole words, or beginnings, that colors are written with. -/
def colorLeads : List Text :=
  ofStrings ["var(", "--", "white", "black", "transparent", "current", "inherit"] ++
    Palette.names.map fun name => name ++ ['-']

/-- A text begins as a value does that gives a color without a theme color of its name. -/
inductive BeginsColor : Text → Prop
  | lead
      {lead : Text}
      (h : lead ∈ colorLeads)
      (rest : Text) :
      BeginsColor (lead ++ rest)
  | reference
      {c : Char}
      (h : opensReference c = true)
      (rest : Text) :
      BeginsColor ('(' :: c :: rest)
  | arbitrary
      {c : Char}
      (h : opensColor c = true)
      (rest : Text) :
      BeginsColor ('[' :: c :: rest)

/-- Beginnings of values that the families treat apart from their lists of words. -/
def specialLeads : List Text :=
  ofStrings [
    "shadow", "spacing", "collapse", "separate", "inset", "offset-", "px", "(length:", "[length:",
    "x-", "y-", "t-", "r-", "b-", "l-", "s-", "e-"]

/-- Beginnings of values that set something other than a color. -/
def nonColorLeads : List Text :=
  specialLeads ++ ConflictGroup.backgroundNonColors ++ ConflictGroup.textNonColors ++
    ConflictGroup.lineStyles

theorem mem_nonColorLeads_iff
    {lead : Text} :
    lead ∈ nonColorLeads ↔
      lead ∈ specialLeads ∨ lead ∈ ConflictGroup.backgroundNonColors ∨
        lead ∈ ConflictGroup.textNonColors ∨ lead ∈ ConflictGroup.lineStyles := by
  simp only [nonColorLeads, List.mem_append, or_assoc]

namespace BeginsColor

theorem append
    {s : Text}
    (h : BeginsColor s)
    (t : Text) :
    BeginsColor (s ++ t) := by
  cases h with
  | lead hlead rest =>
      rw [List.append_assoc]
      exact .lead hlead _
  | reference hopens rest => exact .reference hopens (rest ++ t)
  | arbitrary hopens rest => exact .arbitrary hopens (rest ++ t)

/-- Whether no color begins as the given beginning does. -/
def isApart (lead : Text) : Bool :=
  (colorLeads.all fun color => diverges color lead) &&
    match lead with
    | '(' :: c :: _ => !opensReference c
    | '[' :: c :: _ => !opensColor c
    | c :: _ => c != '(' && c != '['
    | [] => false

theorem isApart_of_mem_nonColorLeads :
    ∀ lead ∈ nonColorLeads, isApart lead = true := by
  decide +kernel

theorem isApart_eq_false_of_eq_append
    {s lead rest : Text}
    (h : BeginsColor s)
    (hsplit : s = lead ++ rest) :
    isApart lead = false := by
  cases h with
  | @lead color hcolor tail =>
      have hdiverges : diverges color lead = false := diverges_eq_false_of_append_eq hsplit
      have hall : (colorLeads.all fun color => diverges color lead) = false := by
        rw [List.all_eq_false]
        exact ⟨color, hcolor, by simp [hdiverges]⟩
      simp [isApart, hall]
  | @reference c hopens tail =>
      rcases lead with _ | ⟨a, _ | ⟨b, lead⟩⟩
      · simp [isApart]
      · cases hsplit
        simp [isApart]
      · cases hsplit
        simp [isApart, hopens]
  | @arbitrary c hopens tail =>
      rcases lead with _ | ⟨a, _ | ⟨b, lead⟩⟩
      · simp [isApart]
      · cases hsplit
        simp [isApart]
      · cases hsplit
        simp [isApart, hopens]

theorem startsWith_eq_false
    {s : Text}
    (h : BeginsColor s)
    (lead : Text)
    (hlead : lead ∈ nonColorLeads) :
    s.startsWith lead = false := by
  cases hstarts : s.startsWith lead with
  | false => rfl
  | true =>
      obtain ⟨rest, hsplit⟩ := startsWith_iff.1 hstarts
      have hapart := isApart_of_mem_nonColorLeads lead hlead
      rw [h.isApart_eq_false_of_eq_append hsplit] at hapart
      cases hapart

theorem beq_eq_false
    {s : Text}
    (h : BeginsColor s)
    (lead : Text)
    (hlead : lead ∈ nonColorLeads) :
    (s == lead) = false := by
  have hstarts := h.startsWith_eq_false lead hlead
  rw [beq_eq_false_iff_ne]
  rintro rfl
  have hself : s.startsWith s = true := startsWith_iff.2 ⟨[], by simp⟩
  rw [hself] at hstarts
  cases hstarts

theorem startsWith_special
    {s : Text}
    (h : BeginsColor s)
    (lead : Text)
    (hlead : lead ∈ specialLeads) :
    s.startsWith lead = false :=
  h.startsWith_eq_false lead (mem_nonColorLeads_iff.2 (Or.inl hlead))

theorem beq_special
    {s : Text}
    (h : BeginsColor s)
    (lead : Text)
    (hlead : lead ∈ specialLeads) :
    (s == lead) = false :=
  h.beq_eq_false lead (mem_nonColorLeads_iff.2 (Or.inl hlead))

/-- No word of a list of beginnings is the value of a color. -/
theorem contains_eq_false
    {s : Text} {words : List Text}
    (h : BeginsColor s)
    (hwords : ∀ w ∈ words, w ∈ nonColorLeads) :
    words.contains s = false := by
  cases hcontains : words.contains s with
  | false => rfl
  | true =>
      have hmem : s ∈ words := by simpa using hcontains
      have hself := h.beq_eq_false s (hwords s hmem)
      rw [beq_self_eq_true] at hself
      cases hself

theorem colorLeads_begin :
    ∀ lead ∈ colorLeads,
      2 ≤ lead.length ∧ lead.head?.all (fun b => !b.isDigit && b != '[') = true := by
  decide +kernel

/-- A color takes two characters at least, and no digit is in front, not even inside of brackets. -/
theorem exists_firstTwo
    {s : Text}
    (h : BeginsColor s) :
    ∃ b c rest, s = b :: c :: rest ∧ b.isDigit = false ∧
      (b = '[' → opensColor c = true) := by
  cases h with
  | @lead color hcolor rest =>
      obtain ⟨hlength, hbegin⟩ := colorLeads_begin color hcolor
      match color, hlength with
      | b :: c :: tail, _ =>
          simp only [List.head?_cons, Option.all_some, Bool.and_eq_true, Bool.not_eq_true',
            bne_iff_ne] at hbegin
          exact ⟨b, c, tail ++ rest, rfl, hbegin.1, fun e => absurd e hbegin.2⟩
  | @reference c hopens rest =>
      exact ⟨'(', c, rest, rfl, by decide, fun e => absurd e (by decide)⟩
  | @arbitrary c hopens rest => exact ⟨'[', c, rest, rfl, by decide, fun _ => hopens⟩

theorem isLength_eq_false
    {s : Text}
    (h : BeginsColor s) :
    ConflictGroup.isLength s = false := by
  have hparen := h.startsWith_special "(length:".toList (by decide)
  have hbracket := h.startsWith_special "[length:".toList (by decide)
  obtain ⟨b, c, rest, rfl, -, hopens⟩ := h.exists_firstTwo
  unfold ConflictGroup.isLength
  rw [hparen, hbracket]
  split
  · next c rest hsplit =>
      cases hsplit
      cases hmark : c.isDigit || c == '.' with
      | false => rfl
      | true =>
          have hcolor := hopens rfl
          rw [opensColor_eq_false_of_isDigit hmark] at hcolor
          cases hcolor
  · rfl

theorem isWidth_eq_false
    {s : Text}
    (h : BeginsColor s) :
    ConflictGroup.isWidth s = false := by
  have hlength := h.isLength_eq_false
  have hpx := h.beq_special "px".toList (by decide)
  obtain ⟨b, c, rest, rfl, hdigit, -⟩ := h.exists_firstTwo
  unfold ConflictGroup.isWidth
  rw [hlength, hpx]
  simp [hdigit]

end BeginsColor

end Text

namespace ConflictGroup

open Text

theorem ofBackground?_of_beginsColor
    {value : Text}
    (h : BeginsColor value) :
    ofBackground? value = some .backgroundColor := by
  have hempty : value.isEmpty = false := by
    obtain ⟨b, c, rest, rfl, -⟩ := h.exists_firstTwo
    rfl
  have hany : backgroundNonColors.any value.startsWith = false := by
    rw [List.any_eq_false]
    intro lead hlead
    have hmem : lead ∈ nonColorLeads := mem_nonColorLeads_iff.2 (Or.inr (Or.inl hlead))
    simp [h.startsWith_eq_false lead hmem]
  unfold ofBackground?
  rw [hempty, hany]
  rfl

theorem ofText?_of_beginsColor
    {raw : Text}
    (h : BeginsColor raw.splitOpacity.1) :
    ofText? raw = some .textColor := by
  have hempty : raw.splitOpacity.1.isEmpty = false := by
    obtain ⟨b, c, rest, hsplit, -⟩ := h.exists_firstTwo
    rw [hsplit]
    rfl
  have hwords : textNonColors.contains raw.splitOpacity.1 = false := by
    apply h.contains_eq_false
    intro w hw
    exact mem_nonColorLeads_iff.2 (Or.inr (Or.inr (Or.inl hw)))
  have hshadow := h.startsWith_special "shadow".toList (by decide)
  unfold ofText?
  simp only [hempty, hwords, hshadow, h.isLength_eq_false]
  rfl

theorem lineStyles_contains_eq_false
    {value : Text}
    (h : BeginsColor value) :
    lineStyles.contains value = false := by
  apply h.contains_eq_false
  intro w hw
  exact mem_nonColorLeads_iff.2 (Or.inr (Or.inr (Or.inr hw)))

theorem borderAspect_of_beginsColor
    {value : Text}
    (h : BeginsColor value) :
    borderAspect value = .color := by
  unfold borderAspect
  rw [h.isWidth_eq_false, lineStyles_contains_eq_false h]
  rfl

theorem sideLetter_mem_specialLeads
    {side : BorderSide} {letter : Char}
    (h : side.letter? = some letter) :
    [letter, '-'] ∈ specialLeads := by
  cases side <;> cases h <;> decide

theorem hasNoSide_of_beginsColor
    {rest : Text}
    (h : BeginsColor rest) :
    HasNoSide rest := by
  intro side letter hletter
  rw [Bool.eq_false_iff]
  intro hfamily
  rcases inFamily_iff.1 hfamily with rfl | ⟨value, rfl⟩
  · obtain ⟨b, c, tail, hsplit, -⟩ := h.exists_firstTwo
    cases hsplit
  · have hlead : [letter, '-'] ∈ specialLeads := sideLetter_mem_specialLeads hletter
    have hstarts : Text.startsWith ([letter] ++ '-' :: value) [letter, '-'] = true :=
      startsWith_append [letter, '-'] value
    rw [h.startsWith_special [letter, '-'] hlead] at hstarts
    cases hstarts

theorem ofBorderRest_of_beginsColor
    {rest : Text}
    (h : BeginsColor rest) :
    ofBorderRest rest = .border .color .all := by
  rw [ofBorderRest_of_hasNoSide (hasNoSide_of_beginsColor h), borderAspect_of_beginsColor h]

/-! ## The groups of the color families -/

theorem ofBase?_border
    {raw : Text}
    (h : BeginsColor raw) :
    ofBase? ("border-".toList ++ raw) = some (.border .color .all) := by
  have hspacing :
      Text.startsWith ("border-".toList ++ raw) "border-spacing".toList = false :=
    h.startsWith_special "spacing".toList (by decide)
  have hcollapse : ("border-".toList ++ raw == "border-collapse".toList) = false :=
    h.beq_special "collapse".toList (by decide)
  have hseparate : ("border-".toList ++ raw == "border-separate".toList) = false :=
    h.beq_special "separate".toList (by decide)
  rw [ofBase?_border_append, hspacing, hcollapse, hseparate, ofBorderRest_of_beginsColor h]
  rfl

theorem ofBase?_ring
    {raw : Text}
    (h : BeginsColor raw) :
    ofBase? ("ring-".toList ++ raw) = some .ringColor := by
  have hinset : ("ring-".toList ++ raw == "ring-inset".toList) = false :=
    h.beq_special "inset".toList (by decide)
  have hoffset : Text.dropLead? ("ring-".toList ++ raw) "ring-offset-".toList = none := by
    have hstarts := h.startsWith_special "offset-".toList (by decide)
    exact Option.isNone_iff_eq_none.1 (Option.isSome_eq_false_iff.1 hstarts)
  have hdrop : Text.dropLead? ("ring-".toList ++ raw) "ring-".toList = some raw :=
    dropLead?_eq_some_iff.2 rfl
  rw [ofBase?_ring_append]
  unfold ofRing
  rw [hinset, hoffset, hdrop]
  simp only [h.isWidth_eq_false]
  rfl

theorem ofBase?_ringOffset
    {raw : Text}
    (h : BeginsColor raw) :
    ofBase? ("ring-offset-".toList ++ raw) = some .ringOffsetColor := by
  have hsplit : "ring-offset-".toList ++ raw = "ring-".toList ++ ("offset-".toList ++ raw) := rfl
  have hbase :
      ofBase? ("ring-offset-".toList ++ raw) = some (ofRing ("ring-offset-".toList ++ raw)) := by
    rw [hsplit]
    exact ofBase?_ring_append _
  have hinset : ("ring-offset-".toList ++ raw == "ring-inset".toList) = false := rfl
  have hdrop : Text.dropLead? ("ring-offset-".toList ++ raw) "ring-offset-".toList = some raw :=
    dropLead?_eq_some_iff.2 rfl
  rw [hbase]
  unfold ofRing
  rw [hinset, hdrop]
  simp only [h.isWidth_eq_false]
  rfl

theorem ofBase?_outline
    {raw : Text}
    (h : BeginsColor raw) :
    ofBase? ("outline-".toList ++ raw) = some .outlineColor := by
  have hoffset :
      Text.startsWith ("outline-".toList ++ raw) "outline-offset-".toList = false :=
    h.startsWith_special "offset-".toList (by decide)
  have hdrop : Text.dropLead? ("outline-".toList ++ raw) "outline-".toList = some raw :=
    dropLead?_eq_some_iff.2 rfl
  rw [ofBase?_outline_append]
  unfold ofOutline
  rw [hoffset, hdrop]
  simp only [lineStyles_contains_eq_false h, h.isWidth_eq_false]
  rfl

end ConflictGroup

/-! ## Values that give a color -/

namespace Palette

theorem mem_names_of_ofToken?
    {token : Text} {c : Rgba}
    (h : ofToken? token = some c) :
    ∃ name ∈ names, ∃ shade, token = name ++ '-' :: shade := by
  unfold ofToken? at h
  obtain ⟨⟨name, shade⟩, hcut, hcolor⟩ := Option.bind_eq_some_iff.1 h
  refine ⟨name, ?_, shade, Text.append_of_cutAtLast? hcut⟩
  unfold color? at hcolor
  obtain ⟨packed, hlookup, -⟩ := Option.bind_eq_some_iff.1 hcolor
  obtain ⟨before, after, hcolors, -⟩ := List.lookup_eq_some_iff.1 hlookup
  unfold names
  rw [hcolors]
  simp

end Palette

namespace ColorScope

open Text

theorem beginsColor_of_ofToken?
    {value : Text} {c : Rgba}
    (h : Palette.ofToken? value = some c) :
    BeginsColor value := by
  obtain ⟨name, hname, shade, rfl⟩ := Palette.mem_names_of_ofToken? h
  have hlead : name ++ ['-'] ∈ colorLeads := by
    unfold colorLeads
    exact List.mem_append_right _ (List.mem_map_of_mem hname)
  have hbegins := BeginsColor.lead hlead shade
  simpa using hbegins

theorem beginsColor_of_mem
    {lead : Text}
    (h : lead ∈ colorLeads) :
    BeginsColor lead := by
  have hbegins := BeginsColor.lead h []
  rwa [List.append_nil] at hbegins

/-- A word is a keyword, or its reading is its name. -/
theorem mem_colorLeads_or_ofWord
    (value : Text) :
    value ∈ colorLeads ∨ ColorReading.ofWord value = .named value := by
  unfold ColorReading.ofWord
  split
  · next h =>
      rw [beq_iff_eq.1 h]
      exact Or.inl (by decide)
  · split
    · next h =>
        rw [beq_iff_eq.1 h]
        exact Or.inl (by decide)
    · split
      · next h =>
          rw [beq_iff_eq.1 h]
          exact Or.inl (by decide)
      · split
        · next h =>
            rcases Bool.or_eq_true_iff.1 h with hcurrent | hinherit
            · rw [beq_iff_eq.1 hcurrent]
              exact Or.inl (by decide)
            · rw [beq_iff_eq.1 hinherit]
              exact Or.inl (by decide)
        · exact Or.inr rfl

theorem follow_named_of_no_themeColor
    {scope : ColorScope} {name : Text}
    (htheme : scope.themeColor? name = none)
    (n : Nat) :
    scope.follow n (.named name) = (Palette.ofToken? name).map .color := by
  cases n with
  | zero => rfl
  | succ n => rw [follow, htheme, Option.bind_none]

theorem beginsColor_of_ofWord
    {scope : ColorScope} {value : Text} {n : Nat}
    (htheme : scope.themeColor? value = none)
    (h : scope.follow n (.ofWord value) ≠ none) :
    BeginsColor value := by
  rcases mem_colorLeads_or_ofWord value with hkeyword | hnamed
  · exact beginsColor_of_mem hkeyword
  · rw [hnamed, follow_named_of_no_themeColor htheme] at h
    cases hshade : Palette.ofToken? value with
    | none =>
        rw [hshade] at h
        exact absurd rfl h
    | some c => exact beginsColor_of_ofToken? hshade

/-- A value in which the check finds a reference begins as colors do. -/
theorem beginsColor_of_colorReference?
    {value name : Text}
    (h : value.colorReference? = some name) :
    BeginsColor value := by
  have hreference := h
  rw [colorReference?] at h
  cases hbrackets : value.between? ['['] [']'] with
  | some inner =>
      simp only [hbrackets] at h
      split at h
      · cases h
      · split at h
        · next hlead =>
            obtain ⟨c, rest, rfl, hopens⟩ := opensColor_of_isReferenceLead hlead
            rw [between?_eq_some_iff.1 hbrackets]
            exact .arbitrary hopens (rest ++ [']'])
        · cases h
  | none =>
      simp only [hbrackets] at h
      split at h
      · next hparen =>
          rcases Bool.or_eq_true_iff.1 hparen with hopen | hvar
          · obtain ⟨inner, rfl⟩ := startsWith_iff.1 hopen
            obtain ⟨c, rest, rfl, hopens⟩ := opensReference_of_colorReference? hreference
            exact .reference hopens rest
          · obtain ⟨rest, rfl⟩ := startsWith_iff.1 hvar
            exact .lead (by decide) rest
      · cases h

/-- Without a theme color of its name, a value that paints begins as colors do. -/
theorem beginsColor_of_resolveValue
    {scope : ColorScope} {value : Text}
    (htheme : scope.themeColor? value = none)
    (h : scope.resolveValue value ≠ none) :
    BeginsColor value := by
  have hreading : ColorReading.ofValue value ≠ .nothing := by
    intro hnothing
    apply h
    unfold resolveValue
    rw [hnothing, follow_nothing]
  unfold resolveValue at h
  unfold ColorReading.ofValue at h hreading
  split at h
  · next hempty =>
      rw [if_pos hempty] at hreading
      exact absurd rfl hreading
  · next hempty =>
      rw [if_neg hempty] at hreading
      split at h
      · next hparen =>
          rw [if_pos hparen] at hreading
          cases hreference : value.colorReference? with
          | none =>
              rw [hreference] at hreading
              exact absurd rfl hreading
          | some name => exact beginsColor_of_colorReference? hreference
      · next hparen =>
          rw [if_neg hparen] at hreading
          split at h
          · next hdashes =>
              obtain ⟨rest, rfl⟩ := startsWith_iff.1 hdashes
              exact .lead (by decide) rest
          · next hdashes =>
              rw [if_neg hdashes] at hreading
              cases hinner : value.between? ['['] [']'] with
              | none =>
                  simp only [hinner] at h
                  exact beginsColor_of_ofWord htheme h
              | some inner =>
                  simp only [hinner] at hreading
                  obtain ⟨c, rest, rfl, hopens⟩ := opensColor_of_ofArbitrary hreading
                  rw [between?_eq_some_iff.1 hinner]
                  exact .arbitrary hopens (rest ++ [']'])

end ColorScope

/-! ## Colors conflict as colors -/

/-- The beginnings of color utilities that conflict with each other, and their groups. -/
def colorGroups : List (Text × ConflictGroup) :=
  [("bg-".toList, .backgroundColor),
   ("text-".toList, .textColor),
   ("border-".toList, .border .color .all),
   ("ring-".toList, .ringColor),
   ("ring-offset-".toList, .ringOffsetColor),
   ("outline-".toList, .outlineColor)]

theorem ofBase?_of_beginsColor
    {family : Text} {group : ConflictGroup} {raw : Text}
    (hfamily : (family, group) ∈ colorGroups)
    (h : raw.splitOpacity.1.BeginsColor) :
    ConflictGroup.ofBase? (family ++ raw) = some group := by
  have hraw : raw.BeginsColor := by
    obtain ⟨tail, hsplit⟩ := raw.splitOpacity_fst_isPrefix
    rw [← hsplit]
    exact h.append tail
  simp only [colorGroups, List.mem_cons, Prod.mk.injEq, List.not_mem_nil, or_false] at hfamily
  rcases hfamily with ⟨rfl, rfl⟩ | ⟨rfl, rfl⟩ | ⟨rfl, rfl⟩ | ⟨rfl, rfl⟩ | ⟨rfl, rfl⟩ | ⟨rfl, rfl⟩
  · rw [ConflictGroup.ofBase?_background_append]
    exact ConflictGroup.ofBackground?_of_beginsColor hraw
  · rw [ConflictGroup.ofBase?_text_append]
    exact ConflictGroup.ofText?_of_beginsColor h
  · exact ConflictGroup.ofBase?_border hraw
  · exact ConflictGroup.ofBase?_ring hraw
  · exact ConflictGroup.ofBase?_ringOffset hraw
  · exact ConflictGroup.ofBase?_outline hraw

/-- **Colors conflict as colors.**  A utility of a family that has a group for colors and that
resolves, to a color or to the one that is there, is in that group, unless the theme has a color
of the value's own name. -/
theorem colorGroup_of_resolve
    (scope : ColorScope)
    {family : Text} {group : ConflictGroup} {raw : Text}
    (hfamily : (family, group) ∈ colorGroups)
    (htheme : scope.registry.theme.get? ("--color-".toList ++ raw.splitOpacity.1) = none)
    (hresolve : scope.resolve family (family ++ raw) ≠ .unresolved) :
    ConflictGroup.ofBase? (family ++ raw) = some group := by
  have hcolor : scope.themeColor? raw.splitOpacity.1 = none := by
    unfold ColorScope.themeColor? Registry.value?
    rw [htheme]
    rfl
  apply ofBase?_of_beginsColor hfamily
  apply ColorScope.beginsColor_of_resolveValue hcolor
  intro hnone
  exact hresolve
    (scope.resolve_of_resolveValue_eq_none (Text.dropLead?_eq_some_iff.2 rfl) hnone)

example :
    colorGroups.map (fun family => family.2.name) =
      Text.ofStrings
        ["background-color", "text-color", "border-color-all", "ring-color",
         "ring-offset-color", "outline-color"] := by
  decide

/-- A border takes a color of the caller by a reference in brackets, with a hint and a fallback. -/
theorem colorGroup_of_resolve_hinted :
    let scope : ColorScope :=
      ⟨⟨[("--color-brand".toList, "red-500".toList)]⟩, .empty, .dark⟩
    scope.resolve "border-".toList "border-[color:var(--color-brand, red)]/50".toList ≠
        .unresolved ∧
      ConflictGroup.ofBase? "border-[color:var(--color-brand, red)]/50".toList =
        some (.border .color .all) := by
  intro scope
  have hresolve :
      scope.resolve "border-".toList "border-[color:var(--color-brand, red)]/50".toList ≠
        .unresolved := by
    have hpaint :
        scope.resolve "border-".toList "border-[color:var(--color-brand, red)]/50".toList =
          .ofPaint (readOpacity? "50".toList) (some (.color (Palette.ofPacked 0xfb2c36))) := by
      exact scope.resolve_append "border-".toList "[color:var(--color-brand, red)]/50".toList
        (by decide)
    rw [hpaint]
    intro h
    cases h
  refine ⟨hresolve, ?_⟩
  have hfamily : ("border-".toList, ConflictGroup.border .color .all) ∈ colorGroups := by
    decide
  exact colorGroup_of_resolve scope hfamily rfl hresolve

end ClassLint
