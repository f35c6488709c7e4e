import ClassLint.Proofs.Source.LiteralGrammar

/-!
# Loops over the bytes of a source

A loop goes over a source from offset to offset.  In each turn it looks at what stands at the offset
of its state, and either goes on in another state or stops with a result.  A loop comes with the
proof that it goes on only from a byte of the source and to a later offset.  So every loop ends, and
what it did until then is a function of the state that it began in.

An offset may lie past the end of the source: an escape takes two bytes although there may be only
one.

**Results.**
* `ScanLoop.invariant_last_run`: what every turn preserves holds where the loop stops.
* `ScanLoop.computes_of_finish`: the result of a loop is what each turn leaves unchanged.
* `ScanLoop.Followed.lockstep`: a loop and one that answers its turns visit the same offsets.
* `blankLoop_computes`, `stringLoop_computes`, `quoteLoop_computes`: blanks, strings and the
  contents of literals are read by such loops.
* `result_stringLoop_of_quoteLoop`: a literal that is read is passed over as a string.
-/

namespace ClassLint

/-- What a turn of a loop comes to. -/
inductive Turn (σ ρ : Type)
  | goOn (next : σ)
  | stop (result : ρ)

/-- The result behind a turn, when the result behind each state is known. -/
def Turn.finish
    {σ ρ : Type}
    (f : σ → ρ) :
    Turn σ ρ → ρ
  | .goOn next => f next
  | .stop result => result

/-- A loop over the bytes of a source, whose states have an offset. -/
structure ScanLoop (bytes : List UInt8) (σ ρ : Type) where
  offset : σ → Nat
  turn : σ → Turn σ ρ
  advances : ∀ {s t}, turn s = .goOn t → offset s < bytes.length ∧ offset s < offset t

namespace ScanLoop

/-- What a loop did: the offsets from which it went on, the state in which it stopped, and its
result. -/
structure Run (σ ρ : Type) where
  visited : List Nat
  last : σ
  result : ρ

section Loops

variable {bytes : List UInt8} {σ ρ : Type}

/-- What the loop does from a state on.  No turn leads back, so there is always an end. -/
def run (loop : ScanLoop bytes σ ρ) (s : σ) : Run σ ρ :=
  match _h : loop.turn s with
  | .stop result => ⟨[], s, result⟩
  | .goOn next =>
      let later := loop.run next
      ⟨loop.offset s :: later.visited, later.last, later.result⟩
  termination_by bytes.length - loop.offset s
  decreasing_by exact Nat.sub_lt_sub_left (loop.advances _h).1 (loop.advances _h).2

/-- From every state the loop ends, each turn was on a byte of the source and at a later offset than
the one before, and the result is the one that the function gives. -/
structure Computes (loop : ScanLoop bytes σ ρ) (f : σ → ρ) : Prop where
  result_eq : ∀ s, (loop.run s).result = f s
  stops : ∀ s, loop.turn (loop.run s).last = .stop (f s)
  inside : ∀ s, ∀ offset ∈ (loop.run s).visited, offset < bytes.length
  increasing : ∀ s,
    ((loop.run s).visited ++ [loop.offset (loop.run s).last]).Pairwise (· < ·)

variable {loop : ScanLoop bytes σ ρ}

theorem run_of_stop
    {s : σ} {result : ρ}
    (h : loop.turn s = .stop result) :
    loop.run s = ⟨[], s, result⟩ := by
  rw [run]
  split
  · next other hother =>
      cases h.symm.trans hother
      rfl
  · next hother => cases h.symm.trans hother

theorem run_of_goOn
    {s t : σ}
    (h : loop.turn s = .goOn t) :
    loop.run s =
      ⟨loop.offset s :: (loop.run t).visited, (loop.run t).last, (loop.run t).result⟩ := by
  rw [run]
  split
  · next hother => cases h.symm.trans hother
  · next other hother =>
      cases h.symm.trans hother
      rfl

/-- What holds where a loop stops, and is passed on to a turn from the next one, holds of every
state. -/
theorem induction_on_turns
    (loop : ScanLoop bytes σ ρ)
    {motive : σ → Prop}
    (stop : ∀ s result, loop.turn s = .stop result → motive s)
    (goOn : ∀ s t, loop.turn s = .goOn t → motive t → motive s)
    (s : σ) :
    motive s := by
  fun_induction run loop s with
  | case1 s result h => exact stop s result h
  | case2 s t h later ih => exact goOn s t h ih

/-- A loop goes on only from a byte of the source. -/
theorem exists_getElem?_of_goOn
    {s t : σ}
    (h : loop.turn s = .goOn t) :
    ∃ b, bytes[loop.offset s]? = some b :=
  ⟨_, List.getElem?_eq_getElem (loop.advances h).1⟩

theorem turn_last_run
    (loop : ScanLoop bytes σ ρ)
    (s : σ) :
    loop.turn (loop.run s).last = .stop (loop.run s).result := by
  induction s using loop.induction_on_turns with
  | stop s result h =>
      rw [run_of_stop h]
      exact h
  | goOn s t h ih =>
      rw [run_of_goOn h]
      exact ih

theorem invariant_last_run
    {inv : σ → Prop}
    (step : ∀ s t, loop.turn s = .goOn t → inv s → inv t)
    {s : σ}
    (here : inv s) :
    inv (loop.run s).last := by
  induction s using loop.induction_on_turns with
  | stop s result h =>
      rw [run_of_stop h]
      exact here
  | goOn s t h ih =>
      rw [run_of_goOn h]
      exact ih (step s t h here)

theorem lt_length_of_mem_visited
    {s : σ} {offset : Nat}
    (h : offset ∈ (loop.run s).visited) :
    offset < bytes.length := by
  induction s using loop.induction_on_turns with
  | stop s result hturn =>
      rw [run_of_stop hturn] at h
      cases h
  | goOn s t hturn ih =>
      rw [run_of_goOn hturn] at h
      rcases List.mem_cons.1 h with rfl | hlater
      · exact (loop.advances hturn).1
      · exact ih hlater

theorem offset_le_of_mem
    {s : σ} {offset : Nat}
    (h : offset ∈ (loop.run s).visited ++ [loop.offset (loop.run s).last]) :
    loop.offset s ≤ offset := by
  induction s using loop.induction_on_turns with
  | stop s result hturn =>
      rw [run_of_stop hturn] at h
      exact Nat.le_of_eq (List.mem_singleton.1 h).symm
  | goOn s t hturn ih =>
      rw [run_of_goOn hturn] at h
      rcases List.mem_cons.1 h with rfl | hlater
      · exact Nat.le_refl _
      · exact Nat.le_trans (Nat.le_of_lt (loop.advances hturn).2) (ih hlater)

theorem offset_le_last_run
    (loop : ScanLoop bytes σ ρ)
    (s : σ) :
    loop.offset s ≤ loop.offset (loop.run s).last :=
  offset_le_of_mem (List.mem_append_right _ (List.mem_singleton.2 rfl))

theorem pairwise_offsets_run
    (loop : ScanLoop bytes σ ρ)
    (s : σ) :
    ((loop.run s).visited ++ [loop.offset (loop.run s).last]).Pairwise (· < ·) := by
  induction s using loop.induction_on_turns with
  | stop s result hturn =>
      rw [run_of_stop hturn]
      exact List.pairwise_singleton _ _
  | goOn s t hturn ih =>
      rw [run_of_goOn hturn]
      refine List.pairwise_cons.2 ⟨?_, ih⟩
      intro offset hoffset
      exact Nat.lt_of_lt_of_le (loop.advances hturn).2 (offset_le_of_mem hoffset)

theorem lt_offset_last_of_mem_visited
    {s : σ} {offset : Nat}
    (h : offset ∈ (loop.run s).visited) :
    offset < loop.offset (loop.run s).last :=
  (List.pairwise_append.1 (loop.pairwise_offsets_run s)).2.2 offset h _ (List.mem_singleton.2 rfl)

/-- What no turn changes is the result of the loop. -/
theorem result_run_eq
    {f : σ → ρ}
    (h : ∀ s, (loop.turn s).finish f = f s)
    (s : σ) :
    (loop.run s).result = f s := by
  induction s using loop.induction_on_turns with
  | stop s result hturn =>
      rw [run_of_stop hturn, ← h s, hturn]
      rfl
  | goOn s t hturn ih =>
      rw [run_of_goOn hturn, ← h s, hturn]
      exact ih

theorem computes_of_finish
    {f : σ → ρ}
    (h : ∀ s, (loop.turn s).finish f = f s) :
    loop.Computes f where
  result_eq := result_run_eq h
  stops s := by
    rw [turn_last_run, result_run_eq h]
  inside _ _ hoffset := lt_length_of_mem_visited hoffset
  increasing := loop.pairwise_offsets_run

/-- On its way to a result the loop is followed by another one over the same source: states that are
related have the same offset, the other loop goes on where the first does, and where the first stops
the other one stops with its answer. -/
structure Followed
    {τ ω : Type}
    (loop : ScanLoop bytes σ ρ)
    (result : ρ)
    (other : ScanLoop bytes τ ω)
    (answer : τ → ω)
    (related : σ → τ → Prop) : Prop where
  offset_eq : ∀ s u, related s u → other.offset u = loop.offset s
  goOn : ∀ s t u, related s u → loop.turn s = .goOn t → (loop.run t).result = result →
    ∃ v, other.turn u = .goOn v ∧ related t v
  stop : ∀ s u, related s u → loop.turn s = .stop result → other.turn u = .stop (answer u)

/-- A loop and the one that follows it run in lockstep. -/
theorem Followed.lockstep
    {τ ω : Type} {other : ScanLoop bytes τ ω} {answer : τ → ω} {related : σ → τ → Prop}
    {result : ρ}
    (h : loop.Followed result other answer related)
    {s : σ} {u : τ}
    (here : related s u)
    (hresult : (loop.run s).result = result) :
    (other.run u).visited = (loop.run s).visited ∧
      related (loop.run s).last (other.run u).last ∧
      (other.run u).result = answer (other.run u).last := by
  induction s using loop.induction_on_turns generalizing u with
  | stop s found hturn =>
      rw [run_of_stop hturn] at hresult ⊢
      obtain rfl : found = result := hresult
      rw [run_of_stop (h.stop s u here hturn)]
      exact ⟨rfl, here, rfl⟩
  | goOn s t hturn ih =>
      rw [run_of_goOn hturn] at hresult ⊢
      obtain ⟨v, hother, hnext⟩ := h.goOn s t u here hturn hresult
      obtain ⟨hvisited, hlast, hanswer⟩ := ih hnext hresult
      rw [run_of_goOn hother]
      refine ⟨?_, hlast, hanswer⟩
      simp only [h.offset_eq s u here, hvisited]

end Loops

end ScanLoop

/-! ## Bytes behind an offset -/

/-- The place of a source at an offset. -/
def Cursor.ofOffset (bytes : List UInt8) (offset : Nat) : Cursor :=
  ⟨offset, bytes.drop offset⟩

section Bytes

variable {bytes : List UInt8} {offset : Nat}

theorem drop_of_getElem?_eq_some
    {b : UInt8}
    (h : bytes[offset]? = some b) :
    bytes.drop offset = b :: bytes.drop (offset + 1) := by
  obtain ⟨hlt, rfl⟩ := List.getElem?_eq_some_iff.1 h
  exact List.drop_eq_getElem_cons hlt

theorem lt_length_of_getElem?_eq_some
    {b : UInt8}
    (h : bytes[offset]? = some b) :
    offset < bytes.length :=
  (List.getElem?_eq_some_iff.1 h).1

theorem drop_of_getElem?_eq_none
    (h : bytes[offset]? = none) :
    bytes.drop offset = [] :=
  List.drop_eq_nil_of_le (List.getElem?_eq_none_iff.1 h)

/-- An escape that nothing follows leads past the end. -/
theorem drop_add_two_of_getElem?_eq_none
    (h : bytes[offset + 1]? = none) :
    bytes.drop (offset + 2) = [] :=
  List.drop_eq_nil_of_le (Nat.le_succ_of_le (List.getElem?_eq_none_iff.1 h))

theorem Cursor.rest_of_reaches_ofOffset
    {c : Cursor}
    (h : (Cursor.ofOffset bytes offset).Reaches c) :
    c.rest = bytes.drop c.offset := by
  obtain ⟨passed, hrest, hoffset⟩ := h
  have hdrop : (bytes.drop offset).drop passed.length = c.rest := by
    rw [show bytes.drop offset = passed ++ c.rest from hrest, List.drop_left]
  rw [← hdrop, List.drop_drop, hoffset]
  rfl

end Bytes

namespace ScanLoop

variable {bytes : List UInt8} {σ ρ : Type}

/-- The loop that reads the byte at its offset in every turn, up to the end of the source. -/
def ofBytes
    (bytes : List UInt8)
    (offset : σ → Nat)
    (atEnd : σ → ρ)
    (onByte : σ → UInt8 → Turn σ ρ)
    (advances : ∀ s b t, bytes[offset s]? = some b → onByte s b = .goOn t →
      offset s < offset t) :
    ScanLoop bytes σ ρ where
  offset := offset
  turn s :=
    match bytes[offset s]? with
    | none => .stop (atEnd s)
    | some b => onByte s b
  advances := by
    intro s t h
    split at h
    · cases h
    · next hbyte => exact ⟨lt_length_of_getElem?_eq_some hbyte, advances s _ t hbyte h⟩

variable {offset : σ → Nat} {atEnd : σ → ρ} {onByte : σ → UInt8 → Turn σ ρ}
  {advances : ∀ s b t, bytes[offset s]? = some b → onByte s b = .goOn t → offset s < offset t}

theorem turn_ofBytes_of_none
    {s : σ}
    (h : bytes[offset s]? = none) :
    (ofBytes bytes offset atEnd onByte advances).turn s = .stop (atEnd s) := by
  simp only [ofBytes, h]

theorem turn_ofBytes_of_some
    {s : σ} {b : UInt8}
    (h : bytes[offset s]? = some b) :
    (ofBytes bytes offset atEnd onByte advances).turn s = onByte s b := by
  simp only [ofBytes, h]

theorem ofBytes_computes
    {f : σ → ρ}
    (none : ∀ s, bytes[offset s]? = none → atEnd s = f s)
    (some : ∀ s b, bytes[offset s]? = some b → (onByte s b).finish f = f s) :
    (ofBytes bytes offset atEnd onByte advances).Computes f := by
  refine computes_of_finish fun s => ?_
  cases hbyte : bytes[offset s]? with
  | none =>
      rw [turn_ofBytes_of_none hbyte]
      exact none s hbyte
  | some b =>
      rw [turn_ofBytes_of_some hbyte]
      exact some s b hbyte

end ScanLoop

/-! ## Blanks, strings and literals -/

section Readers

variable (bytes : List UInt8)

/-- The loop that passes over blanks. -/
def blankLoop : ScanLoop bytes Nat Nat :=
  .ofBytes bytes (fun pos => pos) (fun pos => pos)
    (fun pos b => if Byte.isBlank b then .goOn (pos + 1) else .stop pos)
    (by grind)

/-- The loop that passes over a string from within it; it stops behind the string. -/
def stringLoop (quote : UInt8) : ScanLoop bytes Nat Nat :=
  .ofBytes bytes (fun pos => pos) (fun _ => bytes.length)
    (fun pos b =>
      if b = 0x5C then .goOn (pos + 2)
      else if b = quote then .stop (pos + 1)
      else .goOn (pos + 1))
    (by grind)

/-- The loop that reads the content of a literal; it stops at the closing quote. -/
def quoteLoop (quote : UInt8) : ScanLoop bytes Nat (Option Nat) :=
  .ofBytes bytes (fun pos => pos) (fun _ => none)
    (fun pos b =>
      if b = 0x5C then .goOn (pos + 2)
      else if b = 0x0A ∧ quote ≠ 0x60 then .stop none
      else if b = 0x24 ∧ quote = 0x60 ∧ bytes[pos + 1]? = some 0x7B then .stop none
      else if b = quote then .stop (some pos)
      else .goOn (pos + 1))
    (by grind)

variable {bytes}

theorem blankLoop_computes :
    (blankLoop bytes).Computes fun pos => (Cursor.ofOffset bytes pos).skipBlanks.offset := by
  refine ScanLoop.ofBytes_computes ?_ ?_
  · intro pos hbyte
    simp [Cursor.ofOffset, Cursor.skipBlanks, drop_of_getElem?_eq_none hbyte]
  · intro pos b hbyte
    have hdrop := drop_of_getElem?_eq_some hbyte
    by_cases hblank : Byte.isBlank b = true
    · simp [hblank, Turn.finish, Cursor.ofOffset, Cursor.skipBlanks, hdrop]
      omega
    · simp [hblank, Turn.finish, Cursor.ofOffset, Cursor.skipBlanks, hdrop]

/-- An escape at the end of the source takes the loop past the end; the string ends at the end. -/
theorem stringLoop_computes
    {quote : UInt8} :
    (stringLoop bytes quote).Computes fun pos =>
      min (skipString quote pos (bytes.drop pos)).offset bytes.length := by
  refine ScanLoop.ofBytes_computes ?_ ?_
  · intro pos hbyte
    have hle := List.getElem?_eq_none_iff.1 hbyte
    simp [drop_of_getElem?_eq_none hbyte, skipString, hle]
  · intro pos b hbyte
    have hlt := lt_length_of_getElem?_eq_some hbyte
    rw [drop_of_getElem?_eq_some hbyte]
    by_cases hescape : b = 0x5C
    · subst hescape
      cases hnext : bytes[pos + 1]? with
      | none =>
          have hle := List.getElem?_eq_none_iff.1 hnext
          simp only [drop_of_getElem?_eq_none hnext, drop_add_two_of_getElem?_eq_none hnext,
            skipString, Turn.finish, if_true]
          omega
      | some escaped =>
          simp only [drop_of_getElem?_eq_some hnext, skipString, Turn.finish, if_true]
    · rw [skipString.eq_def]
      simp only [if_neg hescape]
      split
      · exact (Nat.min_eq_left hlt).symm
      · rfl

theorem quoteLoop_computes
    {quote : UInt8} :
    (quoteLoop bytes quote).Computes fun pos =>
      (closingQuote? quote pos (bytes.drop pos)).map fun past => past.offset - 1 := by
  refine ScanLoop.ofBytes_computes ?_ ?_
  · intro pos hbyte
    simp [drop_of_getElem?_eq_none hbyte, closingQuote?]
  · intro pos b hbyte
    rw [drop_of_getElem?_eq_some hbyte]
    by_cases hescape : b = 0x5C
    · subst hescape
      cases hnext : bytes[pos + 1]? with
      | none =>
          simp [drop_of_getElem?_eq_none hnext, drop_add_two_of_getElem?_eq_none hnext,
            closingQuote?, Turn.finish]
      | some escaped =>
          simp [drop_of_getElem?_eq_some hnext, closingQuote?, Turn.finish]
    · have hhead : (bytes.drop (pos + 1)).head? = bytes[pos + 1]? := List.head?_drop
      rw [closingQuote?_cons_of_ne hescape, hhead]
      simp only [if_neg hescape]
      split
      · rfl
      · split
        · rfl
        · split
          · rfl
          · rfl

/-- The loop over a string follows the loop over a content up to the closing quote. -/
theorem quoteLoop_followed_stringLoop
    (quote : UInt8) (closing : Nat) :
    (quoteLoop bytes quote).Followed (some closing) (stringLoop bytes quote)
      (fun _ => closing + 1) fun s u => s = u where
  offset_eq := by
    rintro s _ rfl
    rfl
  goOn := by
    rintro s t _ rfl hturn -
    refine ⟨t, ?_, rfl⟩
    unfold quoteLoop stringLoop ScanLoop.ofBytes at *
    grind
  stop := by
    rintro s _ rfl hturn
    unfold quoteLoop stringLoop ScanLoop.ofBytes at *
    grind

/-- A literal that is read is passed over as a string. -/
theorem result_stringLoop_of_quoteLoop
    {quote : UInt8} {pos closing : Nat}
    (h : ((quoteLoop bytes quote).run pos).result = some closing) :
    ((stringLoop bytes quote).run pos).result = closing + 1 :=
  ((quoteLoop_followed_stringLoop quote closing).lockstep rfl h).2.2

/-- The loop over a content stops at a quote. -/
theorem getElem?_of_result_quoteLoop
    {quote : UInt8} {pos closing : Nat}
    (h : ((quoteLoop bytes quote).run pos).result = some closing) :
    pos ≤ closing ∧ bytes[closing]? = some quote := by
  have hlast := (quoteLoop bytes quote).turn_last_run pos
  rw [h] at hlast
  have hle : pos ≤ ((quoteLoop bytes quote).run pos).last :=
    (quoteLoop bytes quote).offset_le_last_run pos
  generalize ((quoteLoop bytes quote).run pos).last = last at hlast hle
  unfold quoteLoop ScanLoop.ofBytes at hlast
  grind

/-- The place behind a string is where the loop over the string stops. -/
theorem skipString_eq_ofOffset
    {b : UInt8} {pos : Nat}
    (h : bytes[pos]? = some b)
    (quote : UInt8) :
    skipString quote (pos + 1) (bytes.drop (pos + 1)) =
      Cursor.ofOffset bytes ((stringLoop bytes quote).run (pos + 1)).result := by
  have hlt := lt_length_of_getElem?_eq_some h
  have hreaches := Cursor.reaches_skipString quote (pos + 1) (bytes.drop (pos + 1))
  have hrest := Cursor.rest_of_reaches_ofOffset hreaches
  have hle : (skipString quote (pos + 1) (bytes.drop (pos + 1))).offset ≤ bytes.length := by
    obtain ⟨passed, hpassed, hoffset⟩ := hreaches
    have hlength := congrArg List.length hpassed
    simp only [List.length_drop, List.length_append] at hlength hoffset
    omega
  rw [stringLoop_computes.result_eq, Nat.min_eq_left hle, Cursor.ofOffset, ← hrest]

theorem lt_result_stringLoop
    {b : UInt8} {pos : Nat}
    (h : bytes[pos]? = some b)
    (quote : UInt8) :
    pos < ((stringLoop bytes quote).run (pos + 1)).result ∧
      ((stringLoop bytes quote).run (pos + 1)).result ≤ bytes.length := by
  have hlt := lt_length_of_getElem?_eq_some h
  obtain ⟨passed, -, hoffset⟩ :=
    Cursor.reaches_skipString quote (pos + 1) (bytes.drop (pos + 1))
  have hoffset' : (skipString quote (pos + 1) (bytes.drop (pos + 1))).offset =
      pos + 1 + passed.length := hoffset
  rw [stringLoop_computes.result_eq, hoffset']
  omega

/-- A literal is read where the loop over its content stops. -/
theorem literal?_ofOffset
    {quote : UInt8} {pos : Nat}
    (h : bytes[pos]? = some quote)
    (hquote : Byte.isQuote quote = true) :
    (Cursor.ofOffset bytes pos).literal? =
      ((quoteLoop bytes quote).run (pos + 1)).result.map fun closing =>
        (⟨pos + 1, closing⟩, Cursor.ofOffset bytes (closing + 1)) := by
  rw [quoteLoop_computes.result_eq, Option.map_map, Cursor.literal?, Cursor.ofOffset,
    drop_of_getElem?_eq_some h]
  simp only [hquote, if_true]
  cases hclosing : closingQuote? quote (pos + 1) (bytes.drop (pos + 1)) with
  | none => rfl
  | some past =>
      obtain ⟨inner, hrest, hoffset⟩ := Cursor.closingQuote?_eq_some hclosing
      have hreaches : (Cursor.ofOffset bytes (pos + 1)).Reaches past := by
        refine ⟨inner ++ [quote], ?_, ?_⟩
        · simpa [Cursor.ofOffset] using hrest
        · simpa [Cursor.ofOffset, Nat.add_assoc] using hoffset
      have hpast : Cursor.ofOffset bytes (past.offset - 1 + 1) = past := by
        rw [Nat.sub_add_cancel (by omega), Cursor.ofOffset,
          ← Cursor.rest_of_reaches_ofOffset hreaches]
      simp only [Option.map_some, Function.comp_apply, hpast]

end Readers

end ClassLint
