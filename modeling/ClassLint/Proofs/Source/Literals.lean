import ClassLint.Proofs.Sorting
import ClassLint.Proofs.Text.Positions

/-!
# The literals of a source text

Whatever a search over the source passes over, it stays within the source, and every span
that it finds is the content of a literal: the bytes between two equal quotes.  Where the
content ends is determined by where it begins.  Since quotes are ASCII characters, such a
span also falls between characters.

**Results.**
* `Cursor.HasLiteral.eq_of_start_eq`: two literals that begin at one offset are the same.
* `Text.hasLiteral_of_mem_classSpans`: class strings are literals.
* `Text.classStrings_faithful`: what is reported stands where it is reported, between equal
  quotes, and everything that is cut out of the text can be cut out.
-/

namespace ClassLint

namespace Cursor

/-- The second place lies at or after the first one in the same source. -/
def Reaches (c d : Cursor) : Prop :=
  ∃ passed, c.rest = passed ++ d.rest ∧ d.offset = c.offset + passed.length

theorem Reaches.refl
    (c : Cursor) :
    c.Reaches c := by
  exact ⟨[], rfl, rfl⟩

theorem Reaches.trans
    {c d e : Cursor}
    (hcd : c.Reaches d)
    (hde : d.Reaches e) :
    c.Reaches e := by
  obtain ⟨first, hc, hd⟩ := hcd
  obtain ⟨second, hrest, he⟩ := hde
  refine ⟨first ++ second, ?_, ?_⟩
  · rw [hc, hrest, List.append_assoc]
  · rw [he, hd, List.length_append]
    omega

theorem reaches_next
    (offset : Nat) (b : UInt8) (rest : List UInt8) :
    Reaches ⟨offset, b :: rest⟩ ⟨offset + 1, rest⟩ := by
  exact ⟨[b], rfl, rfl⟩

/-- Of the places ahead only one has a given offset. -/
theorem Reaches.eq_of_offset_eq
    {c d e : Cursor}
    (hd : c.Reaches d)
    (he : c.Reaches e)
    (same : d.offset = e.offset) :
    d = e := by
  obtain ⟨dOffset, dRest⟩ := d
  obtain ⟨eOffset, eRest⟩ := e
  obtain ⟨dPassed, hdrest, hdoffset⟩ := hd
  obtain ⟨ePassed, herest, heoffset⟩ := he
  simp only at hdrest hdoffset herest heoffset same
  have hlength : dPassed.length = ePassed.length := by omega
  obtain ⟨-, rfl⟩ := List.append_inj (hdrest.symm.trans herest) hlength
  rw [same]

theorem reaches_skipBlanks
    (c : Cursor) :
    c.Reaches c.skipBlanks := by
  exact ⟨c.rest.takeWhile Byte.isBlank, List.takeWhile_append_dropWhile.symm, rfl⟩

theorem reaches_of_accept?
    {bytes : List UInt8} {c d : Cursor}
    (h : c.accept? bytes = some d) :
    c.Reaches d := by
  induction bytes generalizing c with
  | nil =>
      cases h
      exact Reaches.refl _
  | cons b bytes ih =>
      obtain ⟨offset, rest⟩ := c
      cases rest with
      | nil => cases h
      | cons r rest =>
          simp only [accept?] at h
          split at h
          · exact (reaches_next offset r rest).trans (ih h)
          · cases h

theorem reaches_skipString
    (quote : UInt8) (offset : Nat) (rest : List UInt8) :
    Reaches ⟨offset, rest⟩ (skipString quote offset rest) := by
  fun_induction skipString quote offset rest with
  | case1 offset => exact Reaches.refl _
  | case2 offset => exact reaches_next _ _ _
  | case3 offset escaped rest ih =>
      exact ((reaches_next _ _ _).trans (reaches_next _ _ _)).trans ih
  | case4 offset rest => exact reaches_next _ _ _
  | case5 offset b rest _ _ ih => exact (reaches_next _ _ _).trans ih

/-- A closing parenthesis stands at the offset that is found for it. -/
theorem reaches_of_closingParen?
    {depth offset stop : Nat} {rest : List UInt8}
    (h : closingParen? depth offset rest = some stop) :
    ∃ after, Reaches ⟨offset, rest⟩ ⟨stop, 0x29 :: after⟩ := by
  fun_induction closingParen? depth offset rest with
  | case1 => cases h
  | case2 depth offset rest ih =>
      obtain ⟨after, hafter⟩ := ih h
      exact ⟨after, (reaches_next _ _ _).trans hafter⟩
  | case3 depth offset rest =>
      cases h
      exact ⟨rest, Reaches.refl _⟩
  | case4 depth offset rest _ _ ih =>
      obtain ⟨after, hafter⟩ := ih h
      exact ⟨after, (reaches_next _ _ _).trans hafter⟩
  | case5 depth offset b rest _ _ _ past ih =>
      obtain ⟨after, hafter⟩ := ih h
      exact ⟨after, ((reaches_next _ _ _).trans (reaches_skipString _ _ _)).trans hafter⟩
  | case6 depth offset b rest _ _ _ ih =>
      obtain ⟨after, hafter⟩ := ih h
      exact ⟨after, (reaches_next _ _ _).trans hafter⟩

/-! ## The form of a literal -/

/-- A literal goes on up to a byte equal to its opening quote. -/
theorem closingQuote?_eq_some
    {quote : UInt8} {offset : Nat} {rest : List UInt8} {past : Cursor}
    (h : closingQuote? quote offset rest = some past) :
    ∃ inner, rest = inner ++ quote :: past.rest ∧ past.offset = offset + inner.length + 1 := by
  fun_induction closingQuote? quote offset rest with
  | case1 => cases h
  | case2 => cases h
  | case3 offset escaped rest ih =>
      obtain ⟨inner, rfl, hoffset⟩ := ih h
      refine ⟨0x5C :: escaped :: inner, rfl, ?_⟩
      simp only [List.length_cons]
      omega
  | case4 => cases h
  | case5 => cases h
  | case6 offset rest =>
      cases h
      exact ⟨[], rfl, rfl⟩
  | case7 offset b rest _ _ _ _ ih =>
      obtain ⟨inner, rfl, hoffset⟩ := ih h
      refine ⟨b :: inner, rfl, ?_⟩
      simp only [List.length_cons]
      omega

/-- A literal is an opening quote, the content, and a closing quote equal to the opening one. -/
theorem literal?_eq_some
    {c past : Cursor} {content : Span}
    (h : c.literal? = some (content, past)) :
    ∃ quote inner, Byte.isQuote quote = true ∧ c.rest = quote :: (inner ++ quote :: past.rest) ∧
      content = ⟨c.offset + 1, c.offset + 1 + inner.length⟩ ∧
      past.offset = c.offset + inner.length + 2 := by
  obtain ⟨offset, rest⟩ := c
  cases rest with
  | nil => cases h
  | cons quote rest =>
      simp only [literal?] at h
      split at h
      · next hquote =>
          obtain ⟨closing, hclosing, heq⟩ := Option.map_eq_some_iff.1 h
          cases heq
          obtain ⟨inner, rfl, hoffset⟩ := closingQuote?_eq_some hclosing
          refine ⟨quote, inner, hquote, rfl, ?_, ?_⟩
          · rw [hoffset]
            rfl
          · rw [hoffset]
            show offset + 1 + inner.length + 1 = offset + inner.length + 2
            omega
      · cases h

theorem reaches_of_literal?
    {c past : Cursor} {content : Span}
    (h : c.literal? = some (content, past)) :
    c.Reaches past := by
  obtain ⟨quote, inner, -, hrest, -, hoffset⟩ := literal?_eq_some h
  refine ⟨quote :: (inner ++ [quote]), ?_, ?_⟩
  · simp [hrest]
  · simp only [hoffset, List.length_cons, List.length_append, List.length_nil]
    omega

/-- A span is the content of a literal that opens at or after the place. -/
def HasLiteral (c : Cursor) (span : Span) : Prop :=
  ∃ opening past, c.Reaches opening ∧ opening.literal? = some (span, past)

theorem HasLiteral.of_reaches
    {c d : Cursor} {span : Span}
    (hd : c.Reaches d)
    (h : d.HasLiteral span) :
    c.HasLiteral span := by
  obtain ⟨opening, past, hopening, hliteral⟩ := h
  exact ⟨opening, past, hd.trans hopening, hliteral⟩

/-- The end of a literal is determined by its beginning, by whichever search it is found. -/
theorem HasLiteral.eq_of_start_eq
    {c : Cursor} {s t : Span}
    (hs : c.HasLiteral s)
    (ht : c.HasLiteral t)
    (same : s.start = t.start) :
    s = t := by
  obtain ⟨sOpening, sPast, hsReaches, hsLiteral⟩ := hs
  obtain ⟨tOpening, tPast, htReaches, htLiteral⟩ := ht
  obtain ⟨_, _, _, _, hsContent, _⟩ := literal?_eq_some hsLiteral
  obtain ⟨_, _, _, _, htContent, _⟩ := literal?_eq_some htLiteral
  have hoffset : sOpening.offset = tOpening.offset := by
    rw [hsContent, htContent] at same
    exact Nat.succ.inj same
  obtain rfl := hsReaches.eq_of_offset_eq htReaches hoffset
  have hpair := Option.some.inj (hsLiteral.symm.trans htLiteral)
  exact congrArg Prod.fst hpair

/-! ## Whatever is found is a literal -/

theorem hasLiteral_of_quotedLiteral?
    {c : Cursor} {span : Span}
    (h : c.quotedLiteral? = some span) :
    c.HasLiteral span := by
  unfold quotedLiteral? at h
  split at h
  · split at h
    · cases h
    · obtain ⟨⟨content, past⟩, hliteral, rfl⟩ := Option.map_eq_some_iff.1 h
      exact ⟨c, past, Reaches.refl c, hliteral⟩
  · cases h

theorem hasLiteral_of_bracedLiteral?
    {c : Cursor} {span : Span}
    (h : c.bracedLiteral? = some span) :
    c.HasLiteral span := by
  obtain ⟨inside, hinside, h⟩ := Option.bind_eq_some_iff.1 h
  obtain ⟨⟨content, past⟩, hliteral, h⟩ := Option.bind_eq_some_iff.1 h
  obtain ⟨-, -, rfl⟩ := Option.map_eq_some_iff.1 h
  have hopening := (reaches_of_accept? hinside).trans (reaches_skipBlanks inside)
  exact ⟨inside.skipBlanks, past, hopening, hliteral⟩

theorem hasLiteral_of_attributeValue?
    {c : Cursor} {span : Span}
    (h : c.attributeValue? = some span) :
    c.HasLiteral span := by
  obtain ⟨past, hpast, h⟩ := Option.bind_eq_some_iff.1 h
  have hvalue : c.Reaches past.skipBlanks :=
    ((reaches_skipBlanks c).trans (reaches_of_accept? hpast)).trans (reaches_skipBlanks past)
  refine HasLiteral.of_reaches hvalue ?_
  rcases Option.or_eq_some_iff.1 h with hquoted | ⟨-, hbraced⟩
  · exact hasLiteral_of_quotedLiteral? hquoted
  · exact hasLiteral_of_bracedLiteral? hbraced

theorem hasLiteral_of_mem_attributesHere
    {previous : Option UInt8} {c : Cursor} {span : Span}
    (h : span ∈ c.attributesHere previous) :
    c.HasLiteral span := by
  unfold attributesHere at h
  split at h
  · cases h
  · obtain ⟨name, -, h⟩ := List.mem_filterMap.1 h
    obtain ⟨past, hpast, hvalue⟩ := Option.bind_eq_some_iff.1 h
    exact HasLiteral.of_reaches (reaches_of_accept? hpast) (hasLiteral_of_attributeValue? hvalue)

theorem hasLiteral_of_mem_literalsUntil
    {stop offset : Nat} {rest : List UInt8} {span : Span}
    (h : span ∈ literalsUntil stop offset rest) :
    HasLiteral ⟨offset, rest⟩ span := by
  fun_induction literalsUntil stop offset rest with
  | case1 => cases h
  | case2 => cases h
  | case3 offset b rest _ _ content past hliteral ih =>
      rcases List.mem_cons.1 h with rfl | h
      · exact ⟨_, past, Reaches.refl _, hliteral⟩
      · exact HasLiteral.of_reaches (reaches_of_literal? hliteral) (ih h)
  | case4 offset b rest _ _ hnone past ih =>
      have hpast := (reaches_next offset b rest).trans (reaches_skipString b (offset + 1) rest)
      exact HasLiteral.of_reaches hpast (ih h)
  | case5 offset b rest _ _ ih =>
      exact HasLiteral.of_reaches (reaches_next offset b rest) (ih h)

theorem hasLiteral_of_mem_callArgumentsHere
    {previous : Option UInt8} {c : Cursor} {span : Span}
    (h : span ∈ c.callArgumentsHere previous) :
    c.HasLiteral span := by
  unfold callArgumentsHere at h
  split at h
  · cases h
  · split at h
    · cases h
    · next inside hinside =>
        obtain ⟨name, hname, hopen⟩ := Option.bind_eq_some_iff.1 hinside
        have hreaches : c.Reaches inside :=
          ((reaches_of_accept? hname).trans (reaches_skipBlanks name)).trans
            (reaches_of_accept? hopen)
        split at h
        · cases h
        · exact HasLiteral.of_reaches hreaches (hasLiteral_of_mem_literalsUntil h)

/-- The search over the whole source adds literals of the source to what was found. -/
theorem hasLiteral_of_mem_classSpansFrom
    {source : Cursor} {found : List Span} {previous : Option UInt8} {offset : Nat}
    {rest : List UInt8}
    (here : source.Reaches ⟨offset, rest⟩)
    (before : ∀ span ∈ found, source.HasLiteral span) :
    ∀ span ∈ classSpansFrom found previous offset rest, source.HasLiteral span := by
  induction rest generalizing found previous offset with
  | nil => exact before
  | cons b rest ih =>
      refine ih (here.trans (reaches_next offset b rest)) ?_
      intro span hspan
      rcases List.mem_append.1 hspan with hnew | hfound
      · refine HasLiteral.of_reaches here ?_
        rcases List.mem_append.1 hnew with hattribute | hargument
        · exact hasLiteral_of_mem_attributesHere hattribute
        · exact hasLiteral_of_mem_callArgumentsHere hargument
      · exact before span hfound

end Cursor

namespace Text

/-- The place at which a text begins. -/
def source (s : Text) : Cursor :=
  ⟨0, s.bytes⟩

theorem hasLiteral_of_mem_classSpans
    {s : Text} {span : Span}
    (h : span ∈ s.classSpans) :
    s.source.HasLiteral span := by
  have hmem : span ∈ Cursor.classSpansFrom [] none 0 s.bytes := mem_of_mem_arranged h
  exact Cursor.hasLiteral_of_mem_classSpansFrom (Cursor.Reaches.refl s.source)
    (fun _ hnil => absurd hnil List.not_mem_nil) span hmem

/-! ## Literals in the text -/

/-- The characters that literals stand between. -/
def quotes : List Char := ['"', '\'', '`']

theorem mem_quotes_of_isQuote
    {c : Char} {b : UInt8}
    (quote : Byte.isQuote b = true)
    (single : String.utf8EncodeChar c = [b]) :
    c ∈ quotes := by
  have hcode := toNat_of_utf8EncodeChar single
  simp only [Byte.isQuote, Bool.or_eq_true, beq_iff_eq] at quote
  rcases quote with (rfl | rfl) | rfl
  · have hc : c = '"' := Char.toNat_inj.1 hcode
    exact List.mem_cons.2 (Or.inl hc)
  · have hc : c = '\'' := Char.toNat_inj.1 hcode
    exact List.mem_cons_of_mem _ (List.mem_cons.2 (Or.inl hc))
  · have hc : c = '`' := Char.toNat_inj.1 hcode
    exact List.mem_cons_of_mem _ (List.mem_cons_of_mem _ (List.mem_singleton.2 hc))

theorem toNat_lt_of_isQuote
    {b : UInt8}
    (quote : Byte.isQuote b = true) :
    b.toNat < 0x80 := by
  simp only [Byte.isQuote, Bool.or_eq_true, beq_iff_eq] at quote
  rcases quote with (rfl | rfl) | rfl <;> decide

/-- A span of a text is the text between two equal quotes. -/
structure IsQuotedAt (s : Text) (span : Span) (before : Text) (quote : Char) (value rest : Text) :
    Prop where
  isQuote : quote ∈ quotes
  text_eq : s = before ++ quote :: (value ++ quote :: rest)
  start_eq : span.start = (before ++ [quote]).bytes.length
  stop_eq : span.stop = span.start + value.bytes.length

/-- The text up to the content, and from the content on. -/
theorem IsQuotedAt.eq_append
    {s before value rest : Text} {quote : Char} {span : Span}
    (h : s.IsQuotedAt span before quote value rest) :
    s = (before ++ [quote]) ++ (value ++ quote :: rest) := by
  rw [h.text_eq]
  simp

/-- Every literal of the source is a literal of the text. -/
theorem isQuotedAt_of_hasLiteral
    {s : Text} {span : Span}
    (h : s.source.HasLiteral span) :
    ∃ before quote value rest, s.IsQuotedAt span before quote value rest := by
  obtain ⟨opening, past, ⟨passed, hsource, hoffset⟩, hliteral⟩ := h
  obtain ⟨b, inner, hb, hrest, hcontent, -⟩ := Cursor.literal?_eq_some hliteral
  have ascii := toNat_lt_of_isQuote hb
  have hbytes : s.bytes = passed ++ b :: (inner ++ b :: past.rest) := by
    rw [← hrest]
    exact hsource
  obtain ⟨before, quote, tail, rfl, hquote, hbefore, htail⟩ := split_of_bytes_eq ascii hbytes
  obtain ⟨value, closing, rest, rfl, hclosing, hvalue, -⟩ := split_of_bytes_eq ascii htail
  obtain rfl : closing = quote := by
    have hcode := (toNat_of_utf8EncodeChar hclosing).trans (toNat_of_utf8EncodeChar hquote).symm
    exact Char.toNat_inj.1 hcode
  refine ⟨before, closing, value, rest, mem_quotes_of_isQuote hb hquote, rfl, ?_, ?_⟩
  · have hpassed : opening.offset = 0 + passed.length := hoffset
    simp only [hcontent, bytes_append, bytes_cons, bytes_nil, hbefore, hquote, hpassed,
      List.length_append, List.length_cons, List.length_nil]
    omega
  · rw [hcontent, hvalue]

theorem classStringAt_of_isQuotedAt
    {s before value rest : Text} {quote : Char} {span : Span}
    (h : s.IsQuotedAt span before quote value rest) :
    s.classStringAt span = ⟨Position.first.after (before ++ [quote]), value⟩ := by
  have hlength : span.stop - span.start = value.bytes.length := by
    rw [h.stop_eq]
    omega
  unfold classStringAt
  rw [hlength, h.start_eq, h.eq_append, Position.advance_append]
  simp only [takeBytes_append]

theorem isQuotedAt_of_mem_classSpans
    {s : Text} {span : Span}
    (h : span ∈ s.classSpans) :
    ∃ before quote value rest, s.IsQuotedAt span before quote value rest := by
  exact isQuotedAt_of_hasLiteral (hasLiteral_of_mem_classSpans h)

theorem slice?_of_isQuotedAt
    {s before value rest : Text} {quote : Char} {span : Span}
    (h : s.IsQuotedAt span before quote value rest) :
    s.slice? span.start span.stop = some value := by
  refine slice?_eq_some_iff.2 ⟨before ++ [quote], quote :: rest, ?_, h.start_eq.symm, h.stop_eq⟩
  rw [h.text_eq]
  simp

theorem positionAt?_of_isQuotedAt
    {s before value rest : Text} {quote : Char} {span : Span}
    (h : s.IsQuotedAt span before quote value rest) :
    s.positionAt? span.start = some (Position.first.after (before ++ [quote])) := by
  rw [h.start_eq, h.eq_append]
  exact positionAt?_append _ _

/-- The content of a literal is read from one column after its opening quote. -/
theorem after_quote
    {quote : Char}
    (h : quote ∈ quotes)
    (before : Text) :
    Position.first.after (before ++ [quote]) =
      ⟨(Position.first.after before).line, (Position.first.after before).column + 1⟩ := by
  have hne : quote ≠ '\n' := by
    rintro rfl
    exact absurd h (by decide)
  rw [Position.after_append]
  simp only [Position.after_cons, Position.after_nil, Position.step, if_neg hne]

theorem getElem?_of_closingParen?
    {s : Text} {inside : Cursor} {stop : Nat}
    (here : s.source.Reaches inside)
    (h : Cursor.closingParen? 1 inside.offset inside.rest = some stop) :
    inside.offset ≤ stop ∧ s.bytes[stop]? = some (Byte.ofAscii ')') := by
  obtain ⟨after, hafter⟩ := Cursor.reaches_of_closingParen? h
  obtain ⟨passed, hrest, hstop⟩ := here.trans hafter
  have hbytes : s.bytes = passed ++ 0x29 :: after := hrest
  have hpassed : stop = 0 + passed.length := hstop
  obtain ⟨between, -, hbetween⟩ := hafter
  have hinside : stop = inside.offset + between.length := hbetween
  refine ⟨by omega, ?_⟩
  rw [hbytes, hpassed, Nat.zero_add, List.getElem?_append_right (Nat.le_refl _), Nat.sub_self]
  rfl

/-- **Reported positions are faithful.**  Every span that is found, and the stretch of its line
in front of it, can be cut out of the text.  What is reported stands at the reported position of the
text, cut into its lines, right after a quote and right before an equal one.  The arguments of a
call are looked for only up to a parenthesis that is there. -/
theorem classStrings_faithful
    (s : Text) :
    (∀ span ∈ s.classSpans,
      (span.start ≤ span.stop ∧ span.stop ≤ s.bytes.length ∧
        s.IsBoundary span.start ∧ s.IsBoundary span.stop) ∧
      s.slice? span.start span.stop = some (s.classStringAt span).value ∧
      s.positionAt? span.start = some (s.classStringAt span).position) ∧
    (∀ found ∈ s.classStrings, ∃ quote ∈ quotes, ∃ rest,
      0 < found.position.line ∧ 1 < found.position.column ∧
      s.fromPosition? found.position = some (found.value ++ quote :: rest) ∧
      s.fromPosition? ⟨found.position.line, found.position.column - 1⟩ =
        some (quote :: (found.value ++ quote :: rest))) ∧
    (∀ inside, s.source.Reaches inside →
      ∀ stop, Cursor.closingParen? 1 inside.offset inside.rest = some stop →
        inside.offset ≤ stop ∧ s.bytes[stop]? = some (Byte.ofAscii ')')) := by
  refine ⟨?_, ?_, fun inside here stop h => getElem?_of_closingParen? here h⟩
  · intro span hspan
    obtain ⟨before, quote, value, rest, hquoted⟩ := isQuotedAt_of_mem_classSpans hspan
    have hslice := slice?_of_isQuotedAt hquoted
    refine ⟨bounds_of_slice? hslice, ?_, ?_⟩
    · rw [hslice, classStringAt_of_isQuotedAt hquoted]
    · rw [positionAt?_of_isQuotedAt hquoted, classStringAt_of_isQuotedAt hquoted]
  · intro found hfound
    obtain ⟨span, hspan, rfl⟩ := List.mem_map.1 hfound
    obtain ⟨before, quote, value, rest, hquoted⟩ := isQuotedAt_of_mem_classSpans hspan
    have hposition := after_quote hquoted.isQuote before
    have hcontent := fromPosition?_after (before ++ [quote]) (value ++ quote :: rest)
    have hopening := fromPosition?_after before (quote :: (value ++ quote :: rest))
    have hline : (Position.first.after before).line = 1 + before.count '\n' :=
      Position.line_after _ _
    have hcolumn := Position.column_after_pos (p := Position.first) Nat.one_pos before
    rw [classStringAt_of_isQuotedAt hquoted]
    refine ⟨quote, hquoted.isQuote, rest, ?_, ?_, ?_, ?_⟩
    · simp only [hposition, hline]
      omega
    · simp only [hposition]
      omega
    · rw [hquoted.eq_append]
      exact hcontent
    · simp only [hposition, Nat.add_sub_cancel]
      rw [hquoted.text_eq]
      exact hopening

/-- A call after a character of two bytes, whose argument has an escaped quote. -/
theorem classStrings_faithful_escapedQuote :
    (⟨⟨1, 7⟩, "ü\\'".toList⟩ : ClassString) ∈ classStrings "é tw('ü\\'')".toList ∧
      ∃ quote ∈ quotes, ∃ rest,
        fromPosition? "é tw('ü\\'')".toList ⟨1, 7⟩ = some ("ü\\'".toList ++ quote :: rest) := by
  have hfound : (⟨⟨1, 7⟩, "ü\\'".toList⟩ : ClassString) ∈ classStrings "é tw('ü\\'')".toList := by
    decide +kernel
  obtain ⟨quote, hquote, rest, -, -, hcontent, -⟩ :=
    (classStrings_faithful "é tw('ü\\'')".toList).2.1 _ hfound
  exact ⟨hfound, quote, hquote, rest, hcontent⟩

end Text

end ClassLint
