import ClassLint.Proofs.Source.AttributeGrammar
import ClassLint.Proofs.Source.ScanLoop

/-!
# Calls in lockstep

The arguments of a call are read twice.  The first loop looks for the parenthesis that closes the
call and passes over strings.  The second one looks for literals up to that parenthesis, and passes
over a string only where it reads no literal.  The two differ on strings that go on over a line
feed, have an interpolated expression or are not closed; but a literal ends where the string does,
so that both loops go on from the same offsets.

**Results.**
* `parenLoop_computes`, `argumentLoop_computes`: the searches of a call are these loops.
* `parenLoop_followed_argumentLoop`: the second loop answers each turn of the first.
* `areSpansBetween_last_run`: the literals stand between the parentheses, one behind the other.
* `mem_callSpans_iff`: the calls of a source, by their loops.
* `calls_in_lockstep`: all of it for the calls of a text.
-/

namespace ClassLint

/-- Where the search for a closing parenthesis is, and how many parentheses are open there. -/
structure Nesting where
  depth : Nat
  pos : Nat

/-- Where the search for literals is, and what it found until then. -/
structure Harvest where
  found : List Span
  pos : Nat

section Loops

variable (bytes : List UInt8)

/-- The loop that looks for the closing parenthesis. -/
def parenLoop : ScanLoop bytes Nesting (Option Nat) :=
  .ofBytes bytes Nesting.pos (fun _ => none)
    (fun s b =>
      if b = 0x28 then .goOn ⟨s.depth + 1, s.pos + 1⟩
      else if b = 0x29 then
        if s.depth ≤ 1 then .stop (some s.pos) else .goOn ⟨s.depth - 1, s.pos + 1⟩
      else if Byte.isQuote b then .goOn ⟨s.depth, ((stringLoop bytes b).run (s.pos + 1)).result⟩
      else .goOn ⟨s.depth, s.pos + 1⟩)
    (by
      intro s b t hbyte h
      have hstring := (lt_result_stringLoop hbyte b).1
      grind)

/-- The loop that reads the literals up to the closing parenthesis.  Without a result it tried to
read a byte past the end of the source. -/
def argumentLoop (closing : Nat) : ScanLoop bytes Harvest (Option (List Span)) where
  offset := Harvest.pos
  turn s :=
    if s.pos < closing then
      match bytes[s.pos]? with
      | none => .stop none
      | some b =>
          if Byte.isQuote b then
            match ((quoteLoop bytes b).run (s.pos + 1)).result with
            | some stop => .goOn ⟨s.found ++ [⟨s.pos + 1, stop⟩], stop + 1⟩
            | none => .goOn ⟨s.found, ((stringLoop bytes b).run (s.pos + 1)).result⟩
          else .goOn ⟨s.found, s.pos + 1⟩
    else .stop (some s.found)
  advances := by
    intro s t h
    split at h
    · split at h
      · cases h
      · next b hbyte =>
          refine ⟨lt_length_of_getElem?_eq_some hbyte, ?_⟩
          split at h
          · split at h
            · next stop hstop =>
                cases h
                have hle := (getElem?_of_result_quoteLoop hstop).1
                exact Nat.lt_of_lt_of_le (Nat.lt_of_succ_le hle) (Nat.le_succ _)
            · cases h
              exact (lt_result_stringLoop hbyte b).1
          · cases h
            exact Nat.lt_succ_self _
    · cases h

end Loops

variable {bytes : List UInt8}

/-! ## The turns of the loop over the arguments -/

/-- What a turn of the loop over the arguments does at a byte: it passes over a byte that is no
quote, over a string that is no literal, or over a literal that it has found. -/
inductive ReadsByte (bytes : List UInt8) (u : Harvest) (b : UInt8) : Harvest → Prop
  | other
      (hquote : Byte.isQuote b = false) :
      ReadsByte bytes u b ⟨u.found, u.pos + 1⟩
  | string
      (hquote : Byte.isQuote b = true)
      (hnone : ((quoteLoop bytes b).run (u.pos + 1)).result = none) :
      ReadsByte bytes u b ⟨u.found, ((stringLoop bytes b).run (u.pos + 1)).result⟩
  | literal
      {stop : Nat}
      (hquote : Byte.isQuote b = true)
      (hstop : ((quoteLoop bytes b).run (u.pos + 1)).result = some stop) :
      ReadsByte bytes u b ⟨u.found ++ [⟨u.pos + 1, stop⟩], stop + 1⟩

theorem turn_argumentLoop_of_lt
    {closing : Nat} {u : Harvest} {b : UInt8}
    (hlt : u.pos < closing)
    (hbyte : bytes[u.pos]? = some b) :
    ∃ v, (argumentLoop bytes closing).turn u = .goOn v ∧ ReadsByte bytes u b v := by
  simp only [argumentLoop, if_pos hlt, hbyte]
  cases hquote : Byte.isQuote b with
  | false => exact ⟨_, rfl, .other hquote⟩
  | true =>
      cases hstop : ((quoteLoop bytes b).run (u.pos + 1)).result with
      | none => exact ⟨_, rfl, .string hquote hstop⟩
      | some stop => exact ⟨_, rfl, .literal hquote hstop⟩

theorem turn_argumentLoop_of_le
    {closing : Nat} {u : Harvest}
    (hle : closing ≤ u.pos) :
    (argumentLoop bytes closing).turn u = .stop (some u.found) := by
  simp only [argumentLoop, if_neg (Nat.not_lt.2 hle)]

/-! ## The search for the closing parenthesis -/

theorem parenLoop_computes :
    (parenLoop bytes).Computes fun s =>
      Cursor.closingParen? s.depth s.pos (bytes.drop s.pos) := by
  refine ScanLoop.ofBytes_computes ?_ ?_
  · intro s hbyte
    simp [drop_of_getElem?_eq_none hbyte, Cursor.closingParen?]
  · intro s b hbyte
    rw [drop_of_getElem?_eq_some hbyte, Cursor.closingParen?, skipString_eq_ofOffset hbyte]
    split
    · rfl
    · split
      · split <;> rfl
      · split <;> rfl

/-- From the parenthesis on that opens a call, the loop looks for the one that closes it. -/
theorem result_parenLoop_of_opening
    {opening : Nat}
    (h : bytes[opening]? = some (Byte.ofAscii '(')) :
    ((parenLoop bytes).run ⟨0, opening⟩).result =
      Cursor.closingParen? 1 (opening + 1) (bytes.drop (opening + 1)) := by
  have hbyte : bytes[opening]? = some 0x28 := h
  rw [parenLoop_computes.result_eq, drop_of_getElem?_eq_some hbyte, Cursor.closingParen?,
    if_pos rfl]

/-- Only strings are passed over in one turn. -/
theorem pos_of_turn_parenLoop
    {s t : Nesting} {b : UInt8}
    (hbyte : bytes[s.pos]? = some b)
    (h : (parenLoop bytes).turn s = .goOn t) :
    t.pos =
      if Byte.isQuote b then ((stringLoop bytes b).run (s.pos + 1)).result else s.pos + 1 := by
  have hopen : Byte.isQuote 0x28 = false := by decide
  have hclose : Byte.isQuote 0x29 = false := by decide
  rw [parenLoop, ScanLoop.turn_ofBytes_of_some hbyte] at h
  grind

/-- The loop stops at a parenthesis. -/
theorem getElem?_of_turn_parenLoop
    {s : Nesting} {closing : Nat}
    (h : (parenLoop bytes).turn s = .stop (some closing)) :
    s.pos = closing ∧ bytes[closing]? = some 0x29 := by
  unfold parenLoop ScanLoop.ofBytes at h
  grind

theorem pos_le_of_result_parenLoop
    {s : Nesting} {closing : Nat}
    (h : ((parenLoop bytes).run s).result = some closing) :
    s.pos ≤ closing ∧ ((parenLoop bytes).run s).last.pos = closing ∧
      bytes[closing]? = some 0x29 := by
  have hlast := (parenLoop bytes).turn_last_run s
  rw [h] at hlast
  obtain ⟨hpos, hbyte⟩ := getElem?_of_turn_parenLoop hlast
  have hle : s.pos ≤ ((parenLoop bytes).run s).last.pos :=
    (parenLoop bytes).offset_le_last_run s
  exact ⟨hpos ▸ hle, hpos, hbyte⟩

/-! ## The search for literals -/

theorem literalsUntil_of_le
    {closing pos : Nat} {rest : List UInt8}
    (h : closing ≤ pos) :
    Cursor.literalsUntil closing pos rest = [] := by
  cases rest with
  | nil => rw [Cursor.literalsUntil]
  | cons b rest => rw [Cursor.literalsUntil, if_pos h]

/-- The search for literals in the source goes on as the loop does. -/
theorem literalsUntil_drop
    {closing pos : Nat} {b : UInt8}
    (hlt : pos < closing)
    (hbyte : bytes[pos]? = some b) :
    Cursor.literalsUntil closing pos (bytes.drop pos) =
      if Byte.isQuote b then
        match ((quoteLoop bytes b).run (pos + 1)).result with
        | some stop =>
            ⟨pos + 1, stop⟩ :: Cursor.literalsUntil closing (stop + 1) (bytes.drop (stop + 1))
        | none =>
            let past := ((stringLoop bytes b).run (pos + 1)).result
            Cursor.literalsUntil closing past (bytes.drop past)
      else Cursor.literalsUntil closing (pos + 1) (bytes.drop (pos + 1)) := by
  have hdrop := drop_of_getElem?_eq_some hbyte
  rw [hdrop, Cursor.literalsUntil, if_neg (Nat.not_le.2 hlt), skipString_eq_ofOffset hbyte]
  split
  · next hquote =>
      have hliteral := literal?_ofOffset hbyte hquote
      rw [Cursor.ofOffset, hdrop] at hliteral
      split
      · next content past hsome =>
          rw [hliteral] at hsome
          obtain ⟨stop, hstop, hpair⟩ := Option.map_eq_some_iff.1 hsome
          cases hpair
          rw [hstop]
          rfl
      · next hnone =>
          rw [hliteral, Option.map_eq_none_iff] at hnone
          rw [hnone]
          rfl
  · rfl

theorem argumentLoop_computes
    (closing : Nat) :
    (argumentLoop bytes closing).Computes fun s =>
      if closing ≤ max bytes.length s.pos then
        some (s.found ++ Cursor.literalsUntil closing s.pos (bytes.drop s.pos))
      else none := by
  refine ScanLoop.computes_of_finish fun s => ?_
  rcases Nat.lt_or_ge s.pos closing with hlt | hge
  · cases hbyte : bytes[s.pos]? with
    | none =>
        have hle := List.getElem?_eq_none_iff.1 hbyte
        have hout : ¬ closing ≤ max bytes.length s.pos := by omega
        simp only [argumentLoop, if_pos hlt, hbyte, if_neg hout]
        rfl
    | some b =>
        have hinside := lt_length_of_getElem?_eq_some hbyte
        -- A turn that goes on stays within the source, or stops right behind it.
        have hbound {pos : Nat} (hpos : pos ≤ bytes.length) :
            (closing ≤ max bytes.length pos) = (closing ≤ max bytes.length s.pos) := by
          rw [Nat.max_eq_left hpos, Nat.max_eq_left (Nat.le_of_lt hinside)]
        obtain ⟨t, hturn, hreads⟩ := turn_argumentLoop_of_lt hlt hbyte
        rw [hturn, literalsUntil_drop hlt hbyte]
        cases hreads with
        | other hquote => simp [Turn.finish, hbound hinside, hquote]
        | string hquote hnone =>
            have hend := (lt_result_stringLoop hbyte b).2
            simp [Turn.finish, hbound hend, hquote, hnone]
        | @literal stop hquote hstop =>
            have hend : stop + 1 ≤ bytes.length :=
              lt_length_of_getElem?_eq_some (getElem?_of_result_quoteLoop hstop).2
            simp [Turn.finish, hbound hend, hquote, hstop]
  · have hle : closing ≤ max bytes.length s.pos := by omega
    rw [turn_argumentLoop_of_le hge, if_pos hle, literalsUntil_of_le hge, List.append_nil]
    rfl

/-- Up to a closing parenthesis the loop stays within the source. -/
theorem result_argumentLoop_of_closes
    {opening closing : Nat}
    (h : ((parenLoop bytes).run ⟨0, opening⟩).result = some closing) :
    ((argumentLoop bytes closing).run ⟨[], opening + 1⟩).result =
      some (Cursor.literalsUntil closing (opening + 1) (bytes.drop (opening + 1))) := by
  have hinside : closing < bytes.length :=
    lt_length_of_getElem?_eq_some (pos_le_of_result_parenLoop h).2.2
  have hle : closing ≤ max bytes.length (opening + 1) := by omega
  rw [(argumentLoop_computes closing).result_eq, if_pos hle, List.nil_append]

/-! ## Lockstep -/

/-- The loop over the arguments follows the search for the closing parenthesis. -/
theorem parenLoop_followed_argumentLoop
    (closing : Nat) :
    (parenLoop bytes).Followed (some closing) (argumentLoop bytes closing)
      (fun u => some u.found) fun s u => s.pos = u.pos where
  offset_eq _ _ h := h.symm
  goOn := by
    rintro ⟨depth, pos⟩ t ⟨found, _⟩ rfl hturn hresult
    have hlt : pos < closing :=
      Nat.lt_of_lt_of_le ((parenLoop bytes).advances hturn).2 (pos_le_of_result_parenLoop hresult).1
    obtain ⟨b, hbyte⟩ : ∃ b, bytes[pos]? = some b := ScanLoop.exists_getElem?_of_goOn hturn
    obtain ⟨v, hanswer, hreads⟩ :=
      @turn_argumentLoop_of_lt bytes closing ⟨found, pos⟩ b hlt hbyte
    refine ⟨v, hanswer, ?_⟩
    show t.pos = v.pos
    rw [pos_of_turn_parenLoop hbyte hturn]
    cases hreads with
    | other hquote => simp only [hquote, Bool.false_eq_true, if_false]
    | string hquote hnone => simp only [hquote, if_true]
    | literal hquote hstop =>
        simp only [hquote, if_true]
        exact result_stringLoop_of_quoteLoop hstop
  stop := by
    intro s u hpos hturn
    have hle : closing ≤ u.pos :=
      Nat.le_of_eq ((getElem?_of_turn_parenLoop hturn).1.symm.trans hpos)
    exact turn_argumentLoop_of_le hle

/-- From an opening parenthesis to the one that closes it the two loops visit the same offsets. -/
theorem visited_eq_of_closes
    {opening closing : Nat}
    (hopens : bytes[opening]? = some (Byte.ofAscii '('))
    (hcloses : ((parenLoop bytes).run ⟨0, opening⟩).result = some closing) :
    let searched := (parenLoop bytes).run ⟨0, opening⟩
    let read := (argumentLoop bytes closing).run ⟨[], opening + 1⟩
    searched.visited = opening :: read.visited ∧ searched.last.pos = closing ∧
      read.last.pos = closing ∧ read.result = some read.last.found := by
  intro searched read
  have hbyte : bytes[(Nesting.mk 0 opening).pos]? = some 0x28 := hopens
  have hturn : (parenLoop bytes).turn ⟨0, opening⟩ = .goOn ⟨1, opening + 1⟩ :=
    ScanLoop.turn_ofBytes_of_some hbyte
  let inside := (parenLoop bytes).run ⟨1, opening + 1⟩
  have hsearched : searched = ⟨opening :: inside.visited, inside.last, inside.result⟩ :=
    ScanLoop.run_of_goOn hturn
  have hresult : inside.result = some closing := by
    rw [← hcloses]
    exact (congrArg ScanLoop.Run.result hsearched).symm
  obtain ⟨hvisited, hlast, hfound⟩ :
      read.visited = inside.visited ∧ inside.last.pos = read.last.pos ∧
        read.result = some read.last.found :=
    (parenLoop_followed_argumentLoop closing).lockstep rfl hresult
  have hend : inside.last.pos = closing := (pos_le_of_result_parenLoop hresult).2.1
  refine ⟨?_, ?_, hlast.symm.trans hend, hfound⟩
  · rw [hsearched, hvisited]
  · rw [hsearched]
    exact hend

/-! ## The literals that are found -/

/-- The spans are contents of literals that stand, with their quotes, between the two offsets, and
each of them behind the ones before it. -/
structure AreSpansBetween (bytes : List UInt8) (opening closing : Nat) (spans : List Span) :
    Prop where
  increasing : spans.Pairwise fun a b => a.start < b.start
  apart : spans.Pairwise fun a b => a.stop + 1 < b.start
  inside : ∀ span ∈ spans,
    opening + 1 < span.start ∧ span.start ≤ span.stop ∧ span.stop < closing
  quoted : ∀ span ∈ spans, ∃ quote, Byte.isQuote quote = true ∧
    bytes[span.start - 1]? = some quote ∧ bytes[span.stop]? = some quote

namespace AreSpansBetween

variable {opening pos : Nat} {spans : List Span}

theorem nil :
    AreSpansBetween bytes opening pos [] where
  increasing := List.Pairwise.nil
  apart := List.Pairwise.nil
  inside _ h := absurd h List.not_mem_nil
  quoted _ h := absurd h List.not_mem_nil

theorem mono
    {closing : Nat}
    (h : AreSpansBetween bytes opening pos spans)
    (hle : pos ≤ closing) :
    AreSpansBetween bytes opening closing spans where
  increasing := h.increasing
  apart := h.apart
  inside span hspan := by
    have hinside := h.inside span hspan
    omega
  quoted := h.quoted

/-- A literal that opens at the second offset stands behind the ones before it. -/
theorem append
    {quote : UInt8} {stop : Nat}
    (h : AreSpansBetween bytes opening pos spans)
    (hopening : opening < pos)
    (hquote : Byte.isQuote quote = true)
    (hfirst : bytes[pos]? = some quote)
    (hstop : pos < stop)
    (hlast : bytes[stop]? = some quote) :
    AreSpansBetween bytes opening (stop + 1) (spans ++ [⟨pos + 1, stop⟩]) where
  increasing := by
    refine List.pairwise_append.2 ⟨h.increasing, List.pairwise_singleton _ _, ?_⟩
    intro span hspan new hnew
    obtain rfl := List.mem_singleton.1 hnew
    have hinside := h.inside span hspan
    show span.start < pos + 1
    omega
  apart := by
    refine List.pairwise_append.2 ⟨h.apart, List.pairwise_singleton _ _, ?_⟩
    intro span hspan new hnew
    obtain rfl := List.mem_singleton.1 hnew
    have hinside := h.inside span hspan
    show span.stop + 1 < pos + 1
    omega
  inside span hspan := by
    rcases List.mem_append.1 hspan with hfound | hnew
    · have hinside := h.inside span hfound
      omega
    · obtain rfl := List.mem_singleton.1 hnew
      exact ⟨Nat.succ_lt_succ hopening, hstop, Nat.lt_succ_self stop⟩
  quoted span hspan := by
    rcases List.mem_append.1 hspan with hfound | hnew
    · exact h.quoted span hfound
    · obtain rfl := List.mem_singleton.1 hnew
      exact ⟨quote, hquote, hfirst, hlast⟩

end AreSpansBetween

/-- Where the loop over the arguments goes on, it has found nothing or the literal at its offset. -/
theorem turn_argumentLoop_eq_goOn
    {closing : Nat} {u v : Harvest}
    (h : (argumentLoop bytes closing).turn u = .goOn v) :
    v.found = u.found ∨
      ∃ quote stop, Byte.isQuote quote = true ∧ bytes[u.pos]? = some quote ∧ u.pos < stop ∧
        bytes[stop]? = some quote ∧ v = ⟨u.found ++ [⟨u.pos + 1, stop⟩], stop + 1⟩ := by
  obtain ⟨b, hbyte⟩ : ∃ b, bytes[u.pos]? = some b := ScanLoop.exists_getElem?_of_goOn h
  rcases Nat.lt_or_ge u.pos closing with hlt | hge
  · obtain ⟨w, hturn, hreads⟩ := turn_argumentLoop_of_lt hlt hbyte
    cases h.symm.trans hturn
    cases hreads with
    | other hquote => exact Or.inl rfl
    | string hquote hnone => exact Or.inl rfl
    | literal hquote hstop =>
        obtain ⟨hle, hlast⟩ := getElem?_of_result_quoteLoop hstop
        exact Or.inr ⟨b, _, hquote, hbyte, hle, hlast, rfl⟩
  · rw [turn_argumentLoop_of_le hge] at h
    cases h

theorem areSpansBetween_last_run
    {opening closing : Nat} :
    let last := ((argumentLoop bytes closing).run ⟨[], opening + 1⟩).last
    AreSpansBetween bytes opening last.pos last.found := by
  have hinvariant := @ScanLoop.invariant_last_run _ _ _ (argumentLoop bytes closing)
    (fun u => opening < u.pos ∧ AreSpansBetween bytes opening u.pos u.found)
  refine (hinvariant ?_ ⟨Nat.lt_succ_self opening, .nil⟩).2
  rintro u v hturn ⟨hopening, hspans⟩
  have hpos : u.pos < v.pos := ((argumentLoop bytes closing).advances hturn).2
  refine ⟨Nat.lt_trans hopening hpos, ?_⟩
  rcases turn_argumentLoop_eq_goOn hturn with
    hfound | ⟨quote, stop, hquote, hfirst, hstop, hlast, rfl⟩
  · rw [hfound]
    exact hspans.mono (Nat.le_of_lt hpos)
  · exact hspans.append hopening hquote hfirst hstop hlast

/-! ## The calls of a source -/

/-- A call begins at an offset, with its parentheses at two others: its name stands there and is no
end of a longer name, and the opening parenthesis stands behind the name and blanks. -/
structure IsCall (bytes : List UInt8) (start opening closing : Nat) : Prop where
  alone : (bytes.take start).getLast?.any Byte.isIdentifier = false
  name : Byte.ofAsciiText "tw" <+: bytes.drop start
  blanks : ((blankLoop bytes).run (start + 2)).result = opening
  opens : bytes[opening]? = some (Byte.ofAscii '(')
  closes : ((parenLoop bytes).run ⟨0, opening⟩).result = some closing

namespace Cursor

theorem accept?_ofOffset_iff
    {word : List UInt8} {pos : Nat} {past : Cursor} :
    (ofOffset bytes pos).accept? word = some past ↔
      word <+: bytes.drop pos ∧ past = ofOffset bytes (pos + word.length) := by
  rw [accept?_eq_some_iff]
  constructor
  · rintro ⟨hrest, hoffset⟩
    obtain ⟨offset, rest⟩ := past
    obtain rfl : offset = pos + word.length := hoffset
    have hdrop := rest_of_reaches_ofOffset ⟨word, hrest, rfl⟩
    refine ⟨⟨rest, hrest.symm⟩, ?_⟩
    rw [ofOffset, ← hdrop]
  · rintro ⟨⟨rest, hrest⟩, rfl⟩
    refine ⟨?_, rfl⟩
    show bytes.drop pos = word ++ bytes.drop (pos + word.length)
    rw [← List.drop_drop, ← hrest, List.drop_left]

theorem skipBlanks_ofOffset
    (pos : Nat) :
    (ofOffset bytes pos).skipBlanks = ofOffset bytes ((blankLoop bytes).run pos).result := by
  have hrest := rest_of_reaches_ofOffset (reaches_skipBlanks (ofOffset bytes pos))
  rw [blankLoop_computes.result_eq]
  show _ = Cursor.mk _ (bytes.drop (ofOffset bytes pos).skipBlanks.offset)
  rw [← hrest]

theorem acceptChar?_ofOffset_iff
    {mark : Char} {pos : Nat} {past : Cursor} :
    (ofOffset bytes pos).acceptChar? mark = some past ↔
      bytes[pos]? = some (Byte.ofAscii mark) ∧ past = ofOffset bytes (pos + 1) := by
  have hhead : [Byte.ofAscii mark] <+: bytes.drop pos ↔ bytes[pos]? = some (Byte.ofAscii mark) := by
    rw [← List.head?_drop]
    cases bytes.drop pos with
    | nil => simp
    | cons b rest => simp [eq_comm]
  rw [acceptChar?, accept?_ofOffset_iff, hhead]
  rfl

theorem mem_callArgumentsHere_iff
    {start : Nat} {span : Span} :
    span ∈ (ofOffset bytes start).callArgumentsHere (bytes.take start).getLast? ↔
      ∃ opening closing, IsCall bytes start opening closing ∧
        span ∈ literalsUntil closing (opening + 1) (bytes.drop (opening + 1)) := by
  have hlength : (Byte.ofAsciiText "tw").length = 2 := by decide
  constructor
  · intro h
    unfold callArgumentsHere at h
    split at h
    · cases h
    · next halone =>
        split at h
        · cases h
        · next inside hinside =>
            obtain ⟨past, hname, hopen⟩ := Option.bind_eq_some_iff.1 hinside
            obtain ⟨hword, rfl⟩ := accept?_ofOffset_iff.1 hname
            rw [hlength, skipBlanks_ofOffset] at hopen
            obtain ⟨hparen, rfl⟩ := acceptChar?_ofOffset_iff.1 hopen
            split at h
            · cases h
            · next closing hclosing =>
                refine ⟨_, closing, ⟨Bool.eq_false_iff.2 halone, hword, rfl, hparen, ?_⟩, h⟩
                rw [result_parenLoop_of_opening hparen]
                exact hclosing
  · rintro ⟨opening, closing, ⟨halone, hword, rfl, hparen, hclosing⟩, hspan⟩
    rw [result_parenLoop_of_opening hparen] at hclosing
    have hname := accept?_ofOffset_iff.2 ⟨hword, rfl⟩
    rw [hlength] at hname
    have hopen := acceptChar?_ofOffset_iff.2 ⟨hparen, rfl⟩
    rw [← skipBlanks_ofOffset] at hopen
    unfold callArgumentsHere
    rw [if_neg (Bool.eq_false_iff.1 halone), hname, Option.bind_some, hopen]
    simp only [ofOffset, hclosing]
    exact hspan

end Cursor

theorem mem_spansAlong_iff_ofOffset
    {search : Option UInt8 → Cursor → List Span} {span : Span} :
    span ∈ spansAlong search none 0 bytes ↔
      ∃ start, start < bytes.length ∧
        span ∈ search (bytes.take start).getLast? (Cursor.ofOffset bytes start) := by
  rw [mem_spansAlong_iff]
  simp only [Option.or_none, Nat.zero_add]
  constructor
  · rintro ⟨before, b, rest, rfl, hspan⟩
    refine ⟨before.length, by simp, ?_⟩
    rw [List.take_left, Cursor.ofOffset, List.drop_left]
    exact hspan
  · rintro ⟨start, hlt, hspan⟩
    have hdrop : bytes.drop start = bytes[start] :: bytes.drop (start + 1) :=
      List.drop_eq_getElem_cons hlt
    refine ⟨bytes.take start, bytes[start], bytes.drop (start + 1), ?_, ?_⟩
    · rw [← hdrop, List.take_append_drop]
    · rw [List.length_take_of_le (Nat.le_of_lt hlt), ← hdrop]
      exact hspan

theorem mem_callSpans_iff
    {span : Span} :
    span ∈ callSpans bytes ↔
      ∃ start opening closing spans, IsCall bytes start opening closing ∧
        ((argumentLoop bytes closing).run ⟨[], opening + 1⟩).result = some spans ∧
        span ∈ spans := by
  rw [callSpans, mem_spansAlong_iff_ofOffset]
  simp only [Cursor.mem_callArgumentsHere_iff]
  constructor
  · rintro ⟨start, -, opening, closing, hcall, hspan⟩
    exact ⟨start, opening, closing, _, hcall, result_argumentLoop_of_closes hcall.closes, hspan⟩
  · rintro ⟨start, opening, closing, spans, hcall, hspans, hspan⟩
    obtain rfl := Option.some.inj ((result_argumentLoop_of_closes hcall.closes).symm.trans hspans)
    refine ⟨start, ?_, opening, closing, hcall, hspan⟩
    have hlength := hcall.name.length_le
    rw [List.length_drop] at hlength
    have htwo : (Byte.ofAsciiText "tw").length = 2 := by decide
    omega

/--
**Calls are read in lockstep.**  Wherever the search for a closing parenthesis finds one, the loop
over the arguments goes on from the same offsets as that search, all of them between the two
parentheses, ends at the closing one, and reads no byte past the end of the source.  The spans that
it finds are increasing and disjoint, and each stands with its two quotes between the parentheses.
The arguments of the calls of a text are the spans that these loops find.  Every loop that takes
part advances with each turn and so ends, from every state, in what the searches of the source give.
-/
theorem calls_in_lockstep
    (s : Text) :
    (∀ opening closing,
      s.bytes[opening]? = some (Byte.ofAscii '(') →
      ((parenLoop s.bytes).run ⟨0, opening⟩).result = some closing →
      let searched := (parenLoop s.bytes).run ⟨0, opening⟩
      let read := (argumentLoop s.bytes closing).run ⟨[], opening + 1⟩
      searched.visited = opening :: read.visited ∧ searched.last.pos = closing ∧
      (∀ pos ∈ read.visited, opening < pos ∧ pos < closing) ∧
      read.last.pos = closing ∧ closing < s.bytes.length ∧
      ∃ spans, read.result = some spans ∧ AreSpansBetween s.bytes opening closing spans) ∧
    (∀ span, span ∈ callSpans s.bytes ↔
      ∃ start opening closing spans, IsCall s.bytes start opening closing ∧
        ((argumentLoop s.bytes closing).run ⟨[], opening + 1⟩).result = some spans ∧
        span ∈ spans) ∧
    ((blankLoop s.bytes).Computes fun pos => (Cursor.ofOffset s.bytes pos).skipBlanks.offset) ∧
    (∀ quote,
      ((stringLoop s.bytes quote).Computes fun pos =>
        min (skipString quote pos (s.bytes.drop pos)).offset s.bytes.length) ∧
      (quoteLoop s.bytes quote).Computes fun pos =>
        (closingQuote? quote pos (s.bytes.drop pos)).map fun past => past.offset - 1) ∧
    ((parenLoop s.bytes).Computes fun u =>
      Cursor.closingParen? u.depth u.pos (s.bytes.drop u.pos)) ∧
    ∀ closing, (argumentLoop s.bytes closing).Computes fun u =>
      if closing ≤ max s.bytes.length u.pos then
        some (u.found ++ Cursor.literalsUntil closing u.pos (s.bytes.drop u.pos))
      else none := by
  refine ⟨?_, fun span => mem_callSpans_iff, blankLoop_computes,
    fun quote => ⟨stringLoop_computes, quoteLoop_computes⟩, parenLoop_computes,
    argumentLoop_computes⟩
  intro opening closing hopens hcloses searched read
  obtain ⟨hvisited, hsearched, hread, hfound⟩ := visited_eq_of_closes hopens hcloses
  refine ⟨hvisited, hsearched, ?_, hread,
    lt_length_of_getElem?_eq_some (pos_le_of_result_parenLoop hcloses).2.2, _, hfound, ?_⟩
  · intro pos hpos
    have hfirst : opening + 1 ≤ pos := ScanLoop.offset_le_of_mem (List.mem_append_left _ hpos)
    have hlast : pos < read.last.pos := ScanLoop.lt_offset_last_of_mem_visited hpos
    rw [hread] at hlast
    exact ⟨hfirst, hlast⟩
  · have hspans : AreSpansBetween s.bytes opening read.last.pos read.last.found :=
      areSpansBetween_last_run
    rw [hread] at hspans
    exact hspans

/-- A call with a string over two lines, a template with an interpolated expression and an escaped
quote, all of which hold parentheses, and behind it an escape at the end of the source. -/
theorem calls_in_lockstep_mixedStrings :
    let s : Text := "tw(\"(\n\", `$\x7b(\x7d`, ('a\\')'))'\\".toList
    ((parenLoop s.bytes).run ⟨0, 2⟩).visited = [2, 3, 7, 8, 9, 15, 16, 17, 18, 24] ∧
      ((argumentLoop s.bytes 25).run ⟨[], 3⟩).visited = [3, 7, 8, 9, 15, 16, 17, 18, 24] ∧
      ⟨19, 23⟩ ∈ callSpans s.bytes := by
  intro s
  have hopens : s.bytes[2]? = some (Byte.ofAscii '(') := by decide +kernel
  have hcloses : ((parenLoop s.bytes).run ⟨0, 2⟩).result = some 25 := by decide +kernel
  have hsearched :
      ((parenLoop s.bytes).run ⟨0, 2⟩).visited = [2, 3, 7, 8, 9, 15, 16, 17, 18, 24] := by
    decide +kernel
  obtain ⟨hlockstep, hcalls, -⟩ := calls_in_lockstep s
  obtain ⟨hvisited, -, -, -, -, spans, hspans, -⟩ := hlockstep 2 25 hopens hcloses
  have hcall : IsCall s.bytes 0 2 25 :=
    ⟨by decide +kernel, by decide +kernel, by decide +kernel, hopens, hcloses⟩
  have hmem : ((argumentLoop s.bytes 25).run ⟨[], 3⟩).result = some [⟨19, 23⟩] := by
    decide +kernel
  refine ⟨hsearched, ?_, (hcalls _).2 ⟨0, 2, 25, _, hcall, hmem, List.mem_singleton.2 rfl⟩⟩
  rw [hsearched] at hvisited
  exact (List.cons_eq_cons.1 hvisited).2.symm

end ClassLint
