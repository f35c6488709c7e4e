import ClassLint.Report.JsonText

/-!
# JSON text stands for one value

Written values form a code in which every value shows where it ends: a string at its quote,
a list at its bracket, and a number at the first character that is no digit.  So the text
of a value stands for no other value, whatever strings the value has inside.

**Results.**
* `unescape?_escape`: an escaped character can be read back.
* `isDelimited_write`: a value ends where its text says.
* `pretty_injective`: different values have different texts.
-/

namespace ClassLint

theorem Text.join_cons_eq_append_flatMap
    (separator s : Text) (rest : List Text) :
    join separator (s :: rest) = s ++ rest.flatMap (fun part => separator ++ part) := by
  induction rest generalizing s with
  | nil => simp [join]
  | cons t rest ih =>
      rw [join_cons_of_ne_nil separator s (List.cons_ne_nil t rest), ih t,
        List.flatMap_cons, List.append_assoc, List.append_assoc]

namespace JsonValue

/-- The character that the inside of a string begins with, and what follows its written form. -/
def unescape? : Text → Option (Char × Text)
  | '\\' :: '"' :: s => some ('"', s)
  | '\\' :: '\\' :: s => some ('\\', s)
  | '\\' :: 'n' :: s => some ('\n', s)
  | '\\' :: 'r' :: s => some ('\r', s)
  | '\\' :: 't' :: s => some ('\t', s)
  | '\\' :: 'b' :: s => some ('\x08', s)
  | '\\' :: 'f' :: s => some ('\x0c', s)
  | '\\' :: 'u' :: '0' :: '0' :: high :: low :: s =>
      match Hex.readBytes? [high, low] with
      | some [byte] => some (Char.ofNat byte.toNat, s)
      | _ => none
  | '\\' :: _ => none
  | '"' :: _ => none
  | c :: s => some (c, s)
  | [] => none

theorem unescape?_cons
    {c : Char}
    (hslash : c ≠ '\\') (hquote : c ≠ '"')
    (s : Text) :
    unescape? (c :: s) = some (c, s) := by
  simp [unescape?, hslash]

theorem unescape?_code
    (byte : UInt8) (s : Text) :
    unescape? ("\\u00".toList ++ Hex.writeByte byte ++ s) = some (Char.ofNat byte.toNat, s) := by
  have hbyte := Hex.readBytes?_writeByte byte
  rw [Hex.writeByte] at hbyte ⊢
  change (match Hex.readBytes? [_, _] with
    | some [byte] => some (Char.ofNat byte.toNat, s)
    | _ => none) = _
  rw [hbyte]

theorem unescape?_escape
    (c : Char) (s : Text) :
    unescape? (escape c ++ s) = some (c, s) := by
  rw [escape]
  -- Seven characters have a short form of their own.
  iterate 7
    split
    · next h => subst h; rfl
  split
  · next h =>
      have hcode : c.toNat.toUInt8.toNat = c.toNat :=
        Nat.mod_eq_of_lt (Nat.lt_trans h (by decide))
      rw [unescape?_code, hcode, Char.ofNat_toNat]
  · next hquote hslash _ _ _ _ _ _ => exact unescape?_cons hslash hquote s

theorem escape_append_inj
    {c d : Char} {s t : Text}
    (h : escape c ++ s = escape d ++ t) :
    c = d ∧ s = t := by
  have hread := congrArg unescape? h
  rw [unescape?_escape, unescape?_escape] at hread
  simpa using hread

theorem escape_append_ne_quote
    (c : Char) (s t : Text) :
    escape c ++ s ≠ '"' :: t := by
  intro h
  have hread := congrArg unescape? h
  rw [unescape?_escape] at hread
  cases hread

theorem inside_append_inj
    {s t r u : Text}
    (h : s.flatMap escape ++ '"' :: r = t.flatMap escape ++ '"' :: u) :
    s = t ∧ r = u := by
  induction s generalizing t with
  | nil =>
      cases t with
      | nil => exact ⟨rfl, (List.cons.inj h).2⟩
      | cons d t =>
          rw [List.flatMap_cons, List.append_assoc] at h
          exact absurd h.symm (escape_append_ne_quote d _ r)
  | cons c s ih =>
      rw [List.flatMap_cons, List.append_assoc] at h
      cases t with
      | nil => exact absurd h (escape_append_ne_quote c _ u)
      | cons d t =>
          rw [List.flatMap_cons, List.append_assoc] at h
          obtain ⟨rfl, hrest⟩ := escape_append_inj h
          obtain ⟨rfl, hend⟩ := ih hrest
          exact ⟨rfl, hend⟩

theorem quote_append_inj
    {s t r u : Text}
    (h : quote s ++ r = quote t ++ u) :
    s = t ∧ r = u := by
  simp only [quote, List.cons_append, List.append_assoc, List.nil_append] at h
  exact inside_append_inj (List.cons.inj h).2

/-- The text does not go on with a digit. -/
def EndsNumber (s : Text) : Prop :=
  ∀ c ∈ s.head?, c.isDigit = false

theorem endsNumber_cons_iff
    {c : Char} {s : Text} :
    EndsNumber (c :: s) ↔ c.isDigit = false := by
  simp [EndsNumber]

theorem digits_eq_toDigits
    (n : Nat) :
    (Nat.repr n).toList = Nat.toDigits 10 n := by
  rw [Nat.repr_eq_ofList_toDigits, String.toList_ofList]

theorem isDigit_of_mem_digits
    {c : Char} {n : Nat}
    (h : c ∈ (Nat.repr n).toList) :
    c.isDigit = true := by
  rw [digits_eq_toDigits] at h
  exact Nat.isDigit_of_mem_toDigits (by decide) (by decide) h

theorem digits_inj
    {m n : Nat}
    (h : (Nat.repr m).toList = (Nat.repr n).toList) :
    m = n := by
  have hread := congrArg (fun s => Nat.ofDigitChars 10 s 0) h
  simpa only [digits_eq_toDigits, Nat.ofDigitChars_ten_toDigits] using hread

theorem takeWhile_digits_append
    (n : Nat) {s : Text}
    (hs : EndsNumber s) :
    ((Nat.repr n).toList ++ s).takeWhile Char.isDigit = (Nat.repr n).toList := by
  rw [List.takeWhile_append_of_pos fun c hc => isDigit_of_mem_digits hc]
  cases s with
  | nil => simp
  | cons c s => simp [endsNumber_cons_iff.1 hs]

theorem digits_append_inj
    {m n : Nat} {r s : Text}
    (hr : EndsNumber r) (hs : EndsNumber s)
    (h : (Nat.repr m).toList ++ r = (Nat.repr n).toList ++ s) :
    m = n ∧ r = s := by
  have hdigits := congrArg (List.takeWhile Char.isDigit) h
  rw [takeWhile_digits_append m hr, takeWhile_digits_append n hs] at hdigits
  obtain rfl := digits_inj hdigits
  exact ⟨rfl, List.append_cancel_left h⟩

/-- The written form shows where it ends, if no digit follows it. -/
def IsDelimited {α : Type} (form : α → Text) (a : α) : Prop :=
  ∀ (b : α) (r s : Text), EndsNumber r → EndsNumber s → form a ++ r = form b ++ s →
    a = b ∧ r = s

/-- What stands behind a part between brackets. -/
def following (closing : Char) (level : Nat) (parts : List Text) (r : Text) : Text :=
  parts.flatMap (fun part => [','] ++ (newLine (level + 1) ++ part)) ++
    (newLine level ++ closing :: r)

theorem following_cons
    (closing : Char) (level : Nat) (part : Text) (parts : List Text) (r : Text) :
    following closing level (part :: parts) r =
      ',' :: (newLine (level + 1) ++ (part ++ following closing level parts r)) := by
  simp [following]

theorem bracketed_cons_append
    (opening closing : Char) (level : Nat) (part : Text) (parts : List Text) (r : Text) :
    bracketed opening closing level (part :: parts) ++ r =
      opening :: (newLine (level + 1) ++ (part ++ following closing level parts r)) := by
  simp [bracketed, following, Text.join_cons_eq_append_flatMap, List.flatMap_map]

theorem endsNumber_following
    (closing : Char) (level : Nat) (parts : List Text) (r : Text) :
    EndsNumber (following closing level parts r) := by
  cases parts with
  | nil => exact endsNumber_cons_iff.2 (by decide)
  | cons part parts => exact endsNumber_cons_iff.2 (by decide)

section Brackets

variable {α : Type} {form : α → Text} {as bs : List α} {opening closing : Char} {level : Nat}
  {r s : Text}

theorem following_map_inj
    (hform : ∀ a ∈ as, IsDelimited form a)
    (h : following closing level (as.map form) r = following closing level (bs.map form) s) :
    as = bs ∧ r = s := by
  induction as generalizing bs with
  | nil =>
      cases bs with
      | nil =>
          have hend := List.append_cancel_left (List.append_cancel_left h)
          exact ⟨rfl, (List.cons.inj hend).2⟩
      | cons b bs => cases h
  | cons a as ih =>
      cases bs with
      | nil => cases h
      | cons b bs =>
          rw [List.map_cons, List.map_cons, following_cons, following_cons] at h
          have hparts := List.append_cancel_left (List.cons.inj h).2
          obtain ⟨rfl, hrest⟩ := hform a List.mem_cons_self b _ _
            (endsNumber_following _ _ _ _) (endsNumber_following _ _ _ _) hparts
          obtain ⟨rfl, hend⟩ := ih (fun a ha => hform a (List.mem_cons_of_mem _ ha)) hrest
          exact ⟨rfl, hend⟩

theorem bracketed_map_inj
    (hclosing : closing ≠ '\n')
    (hform : ∀ a ∈ as, IsDelimited form a)
    (h : bracketed opening closing level (as.map form) ++ r =
      bracketed opening closing level (bs.map form) ++ s) :
    as = bs ∧ r = s := by
  cases as with
  | nil =>
      cases bs with
      | nil => exact ⟨rfl, List.append_cancel_left h⟩
      | cons b bs =>
          rw [List.map_cons, bracketed_cons_append] at h
          exact absurd (List.cons.inj (List.cons.inj h).2).1 hclosing
  | cons a as =>
      rw [List.map_cons, bracketed_cons_append] at h
      cases bs with
      | nil => exact absurd (List.cons.inj (List.cons.inj h).2).1.symm hclosing
      | cons b bs =>
          rw [List.map_cons, bracketed_cons_append] at h
          -- Behind the opening bracket, the first part stands as the others do.
          have hparts := congrArg (List.cons ',') (List.cons.inj h).2
          rw [← following_cons, ← following_cons, ← List.map_cons, ← List.map_cons] at hparts
          exact following_map_inj hform hparts

end Brackets

/-- The written form of a member at a level of indentation. -/
def writeMember (level : Nat) (member : Text × JsonValue) : Text :=
  quote member.1 ++ ": ".toList ++ write level member.2

theorem writeItems_eq_map
    (level : Nat) (items : List JsonValue) :
    writeItems level items = items.map (write level) := by
  induction items with
  | nil => rfl
  | cons item items ih => rw [writeItems, ih, List.map_cons]

theorem writeMembers_eq_map
    (level : Nat) (members : List (Text × JsonValue)) :
    writeMembers level members = members.map (writeMember level) := by
  induction members with
  | nil => rfl
  | cons member members ih => rw [writeMembers, ih, List.map_cons, writeMember]

/-- Induction on values, with the hypothesis for every item and for every member. -/
@[induction_eliminator]
theorem induction
    {motive : JsonValue → Prop}
    (number : ∀ n, motive (number n))
    (string : ∀ s, motive (string s))
    (array : ∀ items, (∀ item ∈ items, motive item) → motive (array items))
    (object : ∀ members, (∀ member ∈ members, motive member.2) → motive (object members))
    (value : JsonValue) :
    motive value :=
  @JsonValue.rec motive (fun items => ∀ item ∈ items, motive item)
    (fun members => ∀ member ∈ members, motive member.2) (fun member => motive member.2)
    number string array object nofun
    (fun _ _ hitem hitems => List.forall_mem_cons.2 ⟨hitem, hitems⟩) nofun
    (fun _ _ hmember hmembers => List.forall_mem_cons.2 ⟨hmember, hmembers⟩)
    (fun _ _ hvalue => hvalue) value

/-- The character that a value begins with, unless it is a digit. -/
def opener? : JsonValue → Option Char
  | number _ => none
  | string _ => some '"'
  | array _ => some '['
  | object _ => some '{'

theorem exists_digits_eq_cons
    (n : Nat) :
    ∃ c s, (Nat.repr n).toList = c :: s ∧ c.isDigit = true := by
  cases hdigits : (Nat.repr n).toList with
  | nil =>
      rw [digits_eq_toDigits] at hdigits
      exact absurd hdigits Nat.toDigits_ne_nil
  | cons c s =>
      have hmem : c ∈ (Nat.repr n).toList := hdigits ▸ List.mem_cons_self
      exact ⟨c, s, rfl, isDigit_of_mem_digits hmem⟩

theorem head?_bracketed_append
    (opening closing : Char) (level : Nat) (parts : List Text) (r : Text) :
    (bracketed opening closing level parts ++ r).head? = some opening := by
  cases parts with
  | nil => rfl
  | cons part parts => rfl

theorem opener?_eq_filter_head?
    (level : Nat) (value : JsonValue) (r : Text) :
    value.opener? = (write level value ++ r).head?.filter fun c => !c.isDigit := by
  cases value with
  | number n =>
      obtain ⟨c, s, hdigits, hc⟩ := exists_digits_eq_cons n
      simp only [opener?, write, hdigits, List.cons_append, List.head?_cons, Option.filter, hc]
      rfl
  | string s => rfl
  | array items =>
      rw [write, head?_bracketed_append]
      rfl
  | object members =>
      rw [write, head?_bracketed_append]
      rfl

theorem opener?_eq_of_append_eq
    {level : Nat} {v w : JsonValue} {r s : Text}
    (h : write level v ++ r = write level w ++ s) :
    v.opener? = w.opener? := by
  rw [opener?_eq_filter_head? level v r, h, ← opener?_eq_filter_head?]

theorem isDelimited_writeMember
    {level : Nat} {member : Text × JsonValue}
    (hvalue : IsDelimited (write level) member.2) :
    IsDelimited (writeMember level) member := by
  intro other r s hr hs h
  simp only [writeMember, List.append_assoc] at h
  obtain ⟨hname, hrest⟩ := quote_append_inj h
  obtain ⟨hother, hend⟩ := hvalue _ r s hr hs (List.append_cancel_left hrest)
  exact ⟨Prod.ext hname hother, hend⟩

/-- A value ends where its text says. -/
theorem isDelimited_write
    (level : Nat) (value : JsonValue) :
    IsDelimited (write level) value := by
  induction value generalizing level with
  | number n =>
      intro other r s hr hs h
      -- Values of different forms begin differently, so only another number is left.
      have hopener := opener?_eq_of_append_eq h
      cases other with
      | number m =>
          obtain ⟨rfl, hend⟩ := digits_append_inj hr hs h
          exact ⟨rfl, hend⟩
      | string | array | object => cases hopener
  | string inside =>
      intro other r s hr hs h
      have hopener := opener?_eq_of_append_eq h
      cases other with
      | string t =>
          obtain ⟨rfl, hend⟩ := quote_append_inj h
          exact ⟨rfl, hend⟩
      | number | array | object => cases hopener
  | array items ih =>
      intro other r s hr hs h
      have hopener := opener?_eq_of_append_eq h
      cases other with
      | array others =>
          rw [write, write, writeItems_eq_map, writeItems_eq_map] at h
          obtain ⟨rfl, hend⟩ := bracketed_map_inj (by decide) (fun a ha => ih a ha _) h
          exact ⟨rfl, hend⟩
      | number | string | object => cases hopener
  | object members ih =>
      intro other r s hr hs h
      have hopener := opener?_eq_of_append_eq h
      cases other with
      | object others =>
          rw [write, write, writeMembers_eq_map, writeMembers_eq_map] at h
          obtain ⟨rfl, hend⟩ :=
            bracketed_map_inj (by decide) (fun a ha => isDelimited_writeMember (ih a ha _)) h
          exact ⟨rfl, hend⟩
      | number | string | array => cases hopener

/-- **The text of a value stands for no other value.** -/
theorem pretty_injective
    {v w : JsonValue}
    (h : v.pretty = w.pretty) :
    v = w := by
  have hend : EndsNumber [] := nofun
  have happend : write 0 v ++ [] = write 0 w ++ [] := by
    rw [List.append_nil, List.append_nil]
    exact h
  exact (isDelimited_write 0 v w [] [] hend hend happend).1

end JsonValue

end ClassLint
