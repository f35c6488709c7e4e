import ClassLint.Proofs.Source.Literals

/-!
# The grammar of literals

A reader of the source goes from one place to a later one and passes certain bytes on its way.
Which bytes a reader can pass is said without the reader: given bytes, a run of blanks, or a
literal, which is its content between two equal quotes.

The content of a literal is read from its front.  A backslash takes the next byte with it, whatever
that is; no other byte is the closing quote, a line feed between single or double quotes, or a
dollar sign in front of a brace in a template.

**Results.**
* `accept?_eq_some_iff`, `skipBlanks_eq_some_iff`: what is passed by fixed bytes and by blanks.
* `closingQuote?_eq_some_iff`: a closing quote is found exactly behind a content.
* `literal?_eq_some_iff`: a literal is read exactly where one stands.
-/

namespace ClassLint

/-! ## Places and what lies between them -/

/-- The bytes are blanks. -/
def IsBlankRun (run : List UInt8) : Prop :=
  ∀ b ∈ run, Byte.isBlank b = true

namespace Cursor

/-- The given bytes lie between the two places of the source. -/
def Passes (c : Cursor) (bytes : List UInt8) (d : Cursor) : Prop :=
  c.rest = bytes ++ d.rest ∧ d.offset = c.offset + bytes.length

theorem passes_nil_iff
    {c d : Cursor} :
    c.Passes [] d ↔ d = c := by
  constructor
  · rintro ⟨hrest, hoffset⟩
    cases c
    cases d
    cases hrest
    cases hoffset
    rfl
  · rintro rfl
    exact ⟨rfl, rfl⟩

theorem passes_append_iff
    {c e : Cursor} {front back : List UInt8} :
    c.Passes (front ++ back) e ↔ ∃ d, c.Passes front d ∧ d.Passes back e := by
  constructor
  · rintro ⟨hrest, hoffset⟩
    refine ⟨⟨c.offset + front.length, back ++ e.rest⟩, ⟨?_, rfl⟩, ⟨rfl, ?_⟩⟩
    · rw [hrest, List.append_assoc]
    · rw [hoffset, List.length_append, Nat.add_assoc]
  · rintro ⟨d, ⟨hrest, hoffset⟩, hback, hend⟩
    refine ⟨?_, ?_⟩
    · rw [hrest, hback, List.append_assoc]
    · rw [hend, hoffset, List.length_append, Nat.add_assoc]

theorem passes_cons_iff
    {c e : Cursor} {b : UInt8} {bytes : List UInt8} :
    c.Passes (b :: bytes) e ↔
      ∃ rest, c.rest = b :: rest ∧ Passes ⟨c.offset + 1, rest⟩ bytes e := by
  have hlength : c.offset + (b :: bytes).length = c.offset + 1 + bytes.length := by
    rw [List.length_cons]
    omega
  constructor
  · rintro ⟨hrest, hoffset⟩
    exact ⟨bytes ++ e.rest, hrest, rfl, hoffset.trans hlength⟩
  · rintro ⟨rest, hrest, hbytes, hoffset⟩
    exact ⟨hrest.trans (congrArg (List.cons b) hbytes), hoffset.trans hlength.symm⟩

/-! ## Fixed bytes and blanks -/

theorem accept?_eq_some_iff
    {bytes : List UInt8} {c d : Cursor} :
    c.accept? bytes = some d ↔ c.Passes bytes d := by
  induction bytes generalizing c with
  | nil =>
      rw [accept?, passes_nil_iff, Option.some.injEq, eq_comm]
  | cons b bytes ih =>
      obtain ⟨offset, rest⟩ := c
      rw [passes_cons_iff]
      cases rest with
      | nil => simp [accept?]
      | cons r rest =>
          by_cases h : b = r
          · subst h
            simp [accept?, ih]
          · have h' : ¬ r = b := fun e => h e.symm
            simp [accept?, h, h']

theorem passes_skipBlanks
    (c : Cursor) :
    ∃ run, IsBlankRun run ∧ c.Passes run c.skipBlanks := by
  refine ⟨c.rest.takeWhile Byte.isBlank, ?_, ?_, rfl⟩
  · intro b hb
    exact List.all_eq_true.1 List.all_takeWhile b hb
  · exact List.takeWhile_append_dropWhile.symm

theorem skipBlanks_of_passes
    {c d : Cursor} {run : List UInt8}
    (hrun : IsBlankRun run)
    (hpasses : c.Passes run d)
    (hstops : ∃ b rest, d.rest = b :: rest ∧ Byte.isBlank b = false) :
    c.skipBlanks = d := by
  obtain ⟨offset, rest⟩ := c
  obtain ⟨stop, left⟩ := d
  obtain ⟨rfl, rfl⟩ : rest = run ++ left ∧ stop = offset + run.length := hpasses
  obtain ⟨b, tail, rfl, hb⟩ : ∃ b tail, left = b :: tail ∧ Byte.isBlank b = false := hstops
  have hstop : Byte.isBlank b ≠ true := by
    rw [hb]
    exact Bool.false_ne_true
  rw [skipBlanks, List.takeWhile_append_of_pos hrun, List.dropWhile_append_of_pos hrun,
    List.takeWhile_cons_of_neg hstop, List.dropWhile_cons_of_neg hstop, List.append_nil]

/-- What begins with no blank is read behind blanks exactly if it can be read behind some run of
blanks. -/
theorem skipBlanks_eq_some_iff
    {α : Type} {read : Cursor → Option α}
    (hread : ∀ d r, read d = some r → ∃ b rest, d.rest = b :: rest ∧ Byte.isBlank b = false)
    {c : Cursor} {r : α} :
    read c.skipBlanks = some r ↔ ∃ run d, IsBlankRun run ∧ c.Passes run d ∧ read d = some r := by
  constructor
  · intro h
    obtain ⟨run, hrun, hpasses⟩ := passes_skipBlanks c
    exact ⟨run, c.skipBlanks, hrun, hpasses, h⟩
  · rintro ⟨run, d, hrun, hpasses, h⟩
    rw [skipBlanks_of_passes hrun hpasses (hread d r h)]
    exact h

theorem skipBlanks_accept?_eq_some_iff
    {b : UInt8}
    (hb : Byte.isBlank b = false)
    {c e : Cursor} :
    c.skipBlanks.accept? [b] = some e ↔ ∃ run, IsBlankRun run ∧ c.Passes (run ++ [b]) e := by
  have hread :
      ∀ d r, accept? [b] d = some r → ∃ b rest, d.rest = b :: rest ∧ Byte.isBlank b = false := by
    intro d r h
    obtain ⟨rest, hrest, -⟩ := passes_cons_iff.1 (accept?_eq_some_iff.1 h)
    exact ⟨b, rest, hrest, hb⟩
  rw [skipBlanks_eq_some_iff hread]
  constructor
  · rintro ⟨run, d, hrun, hpasses, h⟩
    exact ⟨run, hrun, passes_append_iff.2 ⟨d, hpasses, accept?_eq_some_iff.1 h⟩⟩
  · rintro ⟨run, hrun, h⟩
    obtain ⟨d, hpasses, hbyte⟩ := passes_append_iff.1 h
    exact ⟨run, d, hrun, hpasses, accept?_eq_some_iff.2 hbyte⟩

end Cursor

/-! ## Contents of literals -/

/-- The bytes can stand between two of the given quotes as the content of a literal. -/
inductive LiteralContent (quote : UInt8) : List UInt8 → Prop
  | empty :
      LiteralContent quote []
  | escaped
      (b : UInt8) {content : List UInt8}
      (hcontent : LiteralContent quote content) :
      LiteralContent quote (Byte.ofAscii '\\' :: b :: content)
  | plain
      {b : UInt8} {content : List UInt8}
      (hescape : b ≠ Byte.ofAscii '\\')
      (hquote : b ≠ quote)
      (hline : b = Byte.ofAscii '\n' → quote = Byte.ofAscii '`')
      (hinterpolation : b = Byte.ofAscii '$' → quote = Byte.ofAscii '`' →
        content.head? ≠ some (Byte.ofAscii '{'))
      (hcontent : LiteralContent quote content) :
      LiteralContent quote (b :: content)

/-- Behind a byte that is no backslash the closing quote is looked for as the byte allows it. -/
theorem closingQuote?_cons_of_ne
    {b : UInt8}
    (h : b ≠ 0x5C)
    (quote : UInt8) (offset : Nat) (rest : List UInt8) :
    closingQuote? quote offset (b :: rest) =
      if b = 0x0A ∧ quote ≠ 0x60 then none
      else if b = 0x24 ∧ quote = 0x60 ∧ rest.head? = some 0x7B then none
      else if b = quote then some ⟨offset + 1, rest⟩
      else closingQuote? quote (offset + 1) rest := by
  rw [closingQuote?.eq_def]
  simp only [if_neg h]

section Quotes

variable {quote : UInt8} (hquote : Byte.isQuote quote = true)
include hquote

theorem Byte.isBlank_of_isQuote :
    Byte.isBlank quote = false := by
  simp only [Byte.isQuote, Bool.or_eq_true, beq_iff_eq] at hquote
  rcases hquote with (rfl | rfl) | rfl <;> decide

/-- A quote has no other meaning in the content of a literal. -/
theorem Byte.ne_of_isQuote :
    quote ≠ 0x5C ∧ quote ≠ 0x0A ∧ quote ≠ 0x24 ∧ quote ≠ 0x7B := by
  simp only [Byte.isQuote, Bool.or_eq_true, beq_iff_eq] at hquote
  rcases hquote with (rfl | rfl) | rfl <;> decide

/-- Behind a content the closing quote is found. -/
theorem closingQuote?_of_literalContent
    {content : List UInt8}
    (hcontent : LiteralContent quote content)
    (offset : Nat) (rest : List UInt8) :
    closingQuote? quote offset (content ++ quote :: rest) =
      some ⟨offset + content.length + 1, rest⟩ := by
  obtain ⟨hescape, hline, hdollar, hbrace⟩ := Byte.ne_of_isQuote hquote
  induction hcontent generalizing offset with
  | empty =>
      rw [List.nil_append, closingQuote?_cons_of_ne hescape]
      simp [hline, hdollar]
  | @escaped b content _ ih =>
      have hoffset : offset + 2 + content.length = offset + (content.length + 1 + 1) := by omega
      simp [closingQuote?, Byte.ofAscii, ih, hoffset]
  | @plain b content hplain hopen hfeed hinterpolation _ ih =>
      have hplain' : b ≠ 0x5C := hplain
      have hfeed' : ¬ (b = 0x0A ∧ quote ≠ 0x60) := fun h => h.2 (hfeed h.1)
      have hdollar' :
          ¬ (b = 0x24 ∧ quote = 0x60 ∧ (content ++ quote :: rest).head? = some 0x7B) := by
        rintro ⟨hb, htemplate, hhead⟩
        cases content with
        | nil => exact hbrace (Option.some.inj hhead)
        | cons c content => exact hinterpolation hb htemplate hhead
      have hoffset : offset + 1 + content.length = offset + (content.length + 1) := by omega
      rw [List.cons_append, closingQuote?_cons_of_ne hplain', if_neg hfeed', if_neg hdollar',
        if_neg hopen, ih, hoffset]
      rfl

omit hquote in
/-- What lies in front of the closing quote that is found is a content. -/
theorem literalContent_of_closingQuote?
    {offset : Nat} {rest : List UInt8} {past : Cursor}
    (h : closingQuote? quote offset rest = some past) :
    ∃ content, LiteralContent quote content ∧ rest = content ++ quote :: past.rest ∧
      past.offset = offset + content.length + 1 := by
  fun_induction closingQuote? quote offset rest with
  | case1 => cases h
  | case2 => cases h
  | case3 offset b rest ih =>
      obtain ⟨content, hcontent, rfl, hoffset⟩ := ih h
      refine ⟨0x5C :: b :: content, .escaped b hcontent, rfl, ?_⟩
      simp only [List.length_cons]
      omega
  | case4 => cases h
  | case5 => cases h
  | case6 offset rest =>
      cases h
      exact ⟨[], .empty, rfl, rfl⟩
  | case7 offset b rest hescape hfeed hinterpolation hclosing ih =>
      obtain ⟨content, hcontent, rfl, hoffset⟩ := ih h
      refine ⟨b :: content, .plain hescape hclosing ?_ ?_ hcontent, rfl, ?_⟩
      · intro hb
        exact Decidable.byContradiction fun htemplate => hfeed ⟨hb, htemplate⟩
      · intro hb htemplate hhead
        apply hinterpolation ⟨hb, htemplate, ?_⟩
        cases content with
        | nil => cases hhead
        | cons c content => exact hhead
      · simp only [List.length_cons]
        omega

theorem closingQuote?_eq_some_iff
    {offset : Nat} {rest : List UInt8} {past : Cursor} :
    closingQuote? quote offset rest = some past ↔
      ∃ content, LiteralContent quote content ∧
        Cursor.Passes ⟨offset, rest⟩ (content ++ [quote]) past := by
  constructor
  · intro h
    obtain ⟨content, hcontent, hrest, hoffset⟩ := literalContent_of_closingQuote? h
    refine ⟨content, hcontent, ?_, ?_⟩
    · simpa using hrest
    · simpa [Nat.add_assoc] using hoffset
  · rintro ⟨content, hcontent, hrest, hoffset⟩
    obtain ⟨stop, left⟩ := past
    have hsplit : rest = content ++ quote :: left := by simpa using hrest
    have hstop : stop = offset + content.length + 1 := by simpa [Nat.add_assoc] using hoffset
    rw [hsplit, hstop]
    exact closingQuote?_of_literalContent hquote hcontent offset left

end Quotes

/-! ## Literals -/

namespace Cursor

theorem literal?_eq_some_iff
    {c past : Cursor} {span : Span} :
    c.literal? = some (span, past) ↔
      ∃ quote content, Byte.isQuote quote = true ∧ LiteralContent quote content ∧
        c.Passes (quote :: (content ++ [quote])) past ∧
        span = ⟨c.offset + 1, c.offset + 1 + content.length⟩ := by
  obtain ⟨offset, rest⟩ := c
  constructor
  · intro h
    cases rest with
    | nil => cases h
    | cons quote rest =>
        simp only [literal?] at h
        split at h
        · next hquote =>
            obtain ⟨p, hclosing, hpair⟩ := Option.map_eq_some_iff.1 h
            cases hpair
            obtain ⟨content, hcontent, hpasses⟩ := (closingQuote?_eq_some_iff hquote).1 hclosing
            have hoffset : past.offset = offset + 1 + (content ++ [quote]).length := hpasses.2
            refine ⟨quote, content, hquote, hcontent, passes_cons_iff.2 ⟨rest, rfl, hpasses⟩, ?_⟩
            rw [hoffset, List.length_append, List.length_singleton, ← Nat.add_assoc,
              Nat.add_sub_cancel]
        · cases h
  · rintro ⟨quote, content, hquote, hcontent, hpasses, rfl⟩
    obtain ⟨inner, hrest, hinner⟩ := passes_cons_iff.1 hpasses
    obtain rfl : rest = quote :: inner := hrest
    have hoffset : past.offset = offset + 1 + (content ++ [quote]).length := hinner.2
    have hclosing := (closingQuote?_eq_some_iff hquote).2 ⟨content, hcontent, hinner⟩
    simp only [literal?, hquote, if_true, hclosing, Option.map_some, hoffset, List.length_append,
      List.length_singleton, ← Nat.add_assoc, Nat.add_sub_cancel]

/-- A literal begins with no blank. -/
theorem exists_of_literal?
    {c past : Cursor} {span : Span}
    (h : c.literal? = some (span, past)) :
    ∃ b rest, c.rest = b :: rest ∧ Byte.isBlank b = false := by
  obtain ⟨quote, content, hquote, -, hpasses, -⟩ := literal?_eq_some_iff.1 h
  obtain ⟨rest, hrest, -⟩ := passes_cons_iff.1 hpasses
  exact ⟨quote, rest, hrest, Byte.isBlank_of_isQuote hquote⟩

end Cursor

end ClassLint
