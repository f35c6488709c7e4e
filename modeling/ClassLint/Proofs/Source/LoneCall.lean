import ClassLint.Proofs.Source.ArgumentText
import ClassLint.Proofs.Source.CallLockstep

/-!
# A source with one call

An attribute or a call is announced by its first bytes: a name, an equals sign and a quote, or the
name of the call and its parenthesis.  Where nothing is announced nothing is found, so the class
strings of a source that is one call, with nothing announced among the arguments, are the literals
that the one call has.

No announcement goes on behind a quote.  So bytes that end in a quote announce nothing together with
others, if neither of them does alone.

**Results.**
* `IsQuiet.append`: quiet bytes behind a quote.
* `classStrings_of_lone_call`: the class strings of a source with one call.
-/

namespace ClassLint

/-! ## Announcements -/

/-- The bytes do not end in one that an identifier would go on from. -/
def EndsIdentifier (before : List UInt8) : Prop :=
  before.getLast?.any Byte.isIdentifier = false

/-- Behind the given bytes, the first bytes of an attribute or a call. -/
inductive IsAnnouncement (before : List UInt8) : List UInt8 → Prop
  | ofAttribute
      {front back : List UInt8} {quote : UInt8}
      (hends : EndsName before)
      (hattribute : IsClassAttribute front quote back) :
      IsAnnouncement before front
  | ofCall
      {blanks : List UInt8}
      (hends : EndsIdentifier before)
      (hblanks : IsBlankRun blanks) :
      IsAnnouncement before (Byte.ofAsciiText "tw" ++ (blanks ++ [Byte.ofAscii '(']))

/-- Nowhere in the bytes an attribute or a call is announced. -/
def IsQuiet (bytes : List UInt8) : Prop :=
  ∀ before front after, bytes = before ++ (front ++ after) → ¬ IsAnnouncement before front

/-- What is announced behind some bytes is announced behind the last of them as well. -/
theorem IsAnnouncement.of_append
    {passed before front : List UInt8}
    (h : IsAnnouncement (passed ++ before) front) :
    IsAnnouncement before front := by
  by_cases hbefore : before = []
  · subst hbefore
    cases h with
    | ofAttribute _ hattribute => exact .ofAttribute (fun b hb => by cases hb) hattribute
    | ofCall _ hblanks => exact .ofCall rfl hblanks
  · have hlast := List.getLast?_append_of_ne_nil passed hbefore
    cases h with
    | ofAttribute hends hattribute =>
        refine .ofAttribute ?_ hattribute
        rwa [EndsName, hlast] at hends
    | ofCall hends hblanks =>
        refine .ofCall ?_ hblanks
        rwa [EndsIdentifier, hlast] at hends

theorem IsClassAttribute.exists_cons_c
    {front back : List UInt8} {quote : UInt8}
    (h : IsClassAttribute front quote back) :
    ∃ rest, front = Byte.ofAscii 'c' :: rest := by
  have hnames : ∀ name ∈ attributeNames, name.head? = some (Byte.ofAscii 'c') := by decide
  cases h with
  | @named name tail _ _ hname _ =>
      obtain ⟨rest, rfl⟩ := List.head?_eq_some_iff.1 (hnames name hname)
      exact ⟨rest ++ tail, rfl⟩

/-- The first byte of an announcement. -/
theorem IsAnnouncement.exists_cons
    {before front : List UInt8}
    (h : IsAnnouncement before front) :
    ∃ b rest, front = b :: rest ∧ (b = Byte.ofAscii 'c' ∨ b = Byte.ofAscii 't') := by
  cases h with
  | ofAttribute _ hattribute =>
      obtain ⟨rest, rfl⟩ := hattribute.exists_cons_c
      exact ⟨_, rest, rfl, Or.inl rfl⟩
  | ofCall _ _ => exact ⟨_, _, rfl, Or.inr rfl⟩

theorem Byte.isQuote_of_isBlank
    {b : UInt8}
    (h : Byte.isBlank b = true) :
    Byte.isQuote b = false := by
  rw [Bool.eq_false_iff]
  intro hquote
  rw [Byte.isBlank_of_isQuote hquote] at h
  cases h

theorem IsBlankRun.not_isQuote
    {run : List UInt8}
    (h : IsBlankRun run) :
    ∀ b ∈ run, Byte.isQuote b = false :=
  fun b hb => Byte.isQuote_of_isBlank (h b hb)

theorem not_isQuote_of_all
    {bytes : List UInt8}
    (h : bytes.all (fun b => !Byte.isQuote b) = true) :
    ∀ b ∈ bytes, Byte.isQuote b = false := by
  intro b hb
  have hnot := List.all_eq_true.1 h b hb
  rwa [Bool.not_eq_true'] at hnot

/-- The quote of an attribute's value stands behind what announces the attribute. -/
theorem IsClassAttribute.exists_concat
    {front back : List UInt8} {quote : UInt8}
    (h : IsClassAttribute front quote back) :
    ∃ body, front = body ++ [quote] ∧ ∀ b ∈ body, Byte.isQuote b = false := by
  have hnames : ∀ name ∈ attributeNames, name.all (fun b => !Byte.isQuote b) = true := by decide
  have hequals : Byte.isQuote (Byte.ofAscii '=') = false := by decide
  have hbrace : Byte.isQuote (Byte.ofAscii '{') = false := by decide
  cases h with
  | @named name _ _ _ hname htail =>
      have hname := not_isQuote_of_all (hnames name hname)
      cases htail with
      | @equals left right _ _ _ hleft hright hvalue =>
          have hleft := hleft.not_isQuote
          have hright := hright.not_isQuote
          cases hvalue with
          | quoted _ =>
              refine ⟨name ++ (left ++ Byte.ofAscii '=' :: right), ?_, ?_⟩
              · simp only [List.append_assoc, List.cons_append, List.nil_append]
              · simp only [List.forall_mem_append, List.forall_mem_cons]
                exact ⟨hname, hleft, hequals, hright⟩
          | @braced _ inside _ _ hinside _ =>
              have hinside := hinside.not_isQuote
              refine ⟨name ++ (left ++ Byte.ofAscii '=' :: (right ++ Byte.ofAscii '{' :: inside)),
                ?_, ?_⟩
              · simp only [List.append_assoc, List.cons_append, List.nil_append]
              · simp only [List.forall_mem_append, List.forall_mem_cons]
                exact ⟨hname, hleft, hequals, hright, hbrace, hinside⟩

/-- A quote can only be the last byte of an announcement. -/
theorem IsAnnouncement.exists_concat
    {before front : List UInt8}
    (h : IsAnnouncement before front) :
    ∃ body last, front = body ++ [last] ∧ ∀ b ∈ body, Byte.isQuote b = false := by
  cases h with
  | ofAttribute _ hattribute =>
      obtain ⟨body, hbody, hquotes⟩ := hattribute.exists_concat
      exact ⟨body, _, hbody, hquotes⟩
  | @ofCall blanks _ hblanks =>
      refine ⟨Byte.ofAsciiText "tw" ++ blanks, Byte.ofAscii '(', ?_, ?_⟩
      · rw [List.append_assoc]
      · rw [List.forall_mem_append]
        exact ⟨not_isQuote_of_all (by decide), hblanks.not_isQuote⟩

/-- Behind a quote no announcement goes on. -/
theorem IsAnnouncement.eq_nil_of_isQuote
    {before front rest : List UInt8} {quote : UInt8}
    (h : IsAnnouncement before (front ++ quote :: rest))
    (hquote : Byte.isQuote quote = true) :
    rest = [] := by
  obtain ⟨body, last, hsplit, hbody⟩ := h.exists_concat
  rcases List.eq_nil_or_concat rest with hnil | ⟨inner, b, rfl⟩
  · exact hnil
  · have hsplit' : (front ++ quote :: inner) ++ [b] = body ++ [last] := by
      rw [← hsplit, List.append_assoc]
      simp
    have hmem : quote ∈ body := by
      rw [← (List.append_inj' hsplit' rfl).1]
      simp
    rw [hbody quote hmem] at hquote
    cases hquote

/-! ## Quiet bytes -/

/-- Every announcement begins with one of two letters. -/
theorem isQuiet_of_not_mem
    {bytes : List UInt8}
    (hc : Byte.ofAscii 'c' ∉ bytes)
    (ht : Byte.ofAscii 't' ∉ bytes) :
    IsQuiet bytes := by
  rintro before front after rfl h
  obtain ⟨b, rest, rfl, rfl | rfl⟩ := h.exists_cons
  · exact hc (by simp)
  · exact ht (by simp)

theorem IsQuiet.nil_append
    {before front after : List UInt8}
    (h : IsQuiet (front ++ after)) :
    ¬ IsAnnouncement before front := by
  intro hfront
  rw [← List.append_nil before] at hfront
  exact h [] front after rfl hfront.of_append

/-- Quiet bytes behind others that end in a quote. -/
theorem IsQuiet.append
    {bytes more : List UInt8} {quote : UInt8}
    (hbytes : IsQuiet (bytes ++ [quote]))
    (hquote : Byte.isQuote quote = true)
    (hmore : IsQuiet more) :
    IsQuiet (bytes ++ [quote] ++ more) := by
  intro before front after hsplit h
  rcases List.append_eq_append_iff.1 hsplit with ⟨passed, rfl, hback⟩ | ⟨inside, hfront, hrest⟩
  · exact hmore passed front after hback h.of_append
  · -- The announcement begins in front of the quote, so it does not go on behind it.
    rcases List.append_eq_append_iff.1 hrest with ⟨left, rfl, -⟩ | ⟨beyond, rfl, hbeyond⟩
    · exact hbytes before front left hfront h
    · rcases List.eq_nil_or_concat inside with rfl | ⟨inner, b, rfl⟩
      · rw [hbeyond] at hmore
        exact hmore.nil_append h
      · rw [List.concat_eq_append, ← List.append_assoc] at hfront
        obtain ⟨rfl, hb⟩ := List.append_inj' hfront rfl
        obtain rfl := List.singleton_inj.1 hb
        have hend : beyond = [] := by
          rw [List.concat_eq_append, List.append_assoc, List.singleton_append] at h
          exact h.eq_nil_of_isQuote hquote
        subst hend
        rw [List.append_nil] at h
        refine hbytes before (inner.concat quote) [] ?_ h
        rw [List.append_nil, List.concat_eq_append, List.append_assoc]

/-- A content with its quotes. -/
def quoted (quote : UInt8) (content : List UInt8) : List UInt8 :=
  quote :: (content ++ [quote])

theorem IsQuiet.quoted_append
    {content more : List UInt8} {quote : UInt8}
    (hcontent : IsQuiet (quoted quote content))
    (hquote : Byte.isQuote quote = true)
    (hmore : IsQuiet more) :
    IsQuiet (quoted quote content ++ more) :=
  @IsQuiet.append (quote :: content) more quote hcontent hquote hmore

/-- Quiet bytes behind others in which no announcement begins. -/
theorem IsQuiet.append_of_not_mem
    {bytes more : List UInt8}
    (hc : Byte.ofAscii 'c' ∉ bytes)
    (ht : Byte.ofAscii 't' ∉ bytes)
    (hmore : IsQuiet more) :
    IsQuiet (bytes ++ more) := by
  intro before front after hsplit h
  rcases List.append_eq_append_iff.1 hsplit with ⟨passed, rfl, hback⟩ | ⟨inside, rfl, hrest⟩
  · exact hmore passed front after hback h.of_append
  · cases inside with
    | nil =>
        rw [List.nil_append] at hrest
        rw [← hrest] at hmore
        exact hmore.nil_append h
    | cons b inside =>
        obtain ⟨first, rest, rfl, hfirst⟩ := h.exists_cons
        obtain rfl : first = b := (List.cons_eq_cons.1 hrest).1
        rcases hfirst with rfl | rfl
        · exact hc (by simp)
        · exact ht (by simp)

/-! ## What the searches find -/

theorem exists_announcement_of_mem_attributesHere
    {before : List UInt8} {c : Cursor} {span : Span}
    (h : span ∈ c.attributesHere before.getLast?) :
    ∃ front after, c.rest = front ++ after ∧ EndsName before ∧
      ∃ quote back, IsClassAttribute front quote back := by
  obtain ⟨hends, front, quote, content, back, hattribute, -, d, ⟨hrest, -⟩, -⟩ :=
    Cursor.mem_attributesHere_iff.1 h
  rw [List.append_assoc] at hrest
  exact ⟨front, _, hrest, hends, quote, back, hattribute⟩

theorem exists_announcement_of_mem_callArgumentsHere
    {before : List UInt8} {c : Cursor} {span : Span}
    (h : span ∈ c.callArgumentsHere before.getLast?) :
    ∃ front after, c.rest = front ++ after ∧ IsAnnouncement before front := by
  unfold Cursor.callArgumentsHere at h
  split at h
  · cases h
  · next halone =>
      split at h
      · cases h
      · next inside hinside =>
          obtain ⟨past, hname, hopen⟩ := Option.bind_eq_some_iff.1 hinside
          obtain ⟨blanks, hblanks, hopens⟩ :=
            (Cursor.skipBlanks_accept?_eq_some_iff (by decide)).1 hopen
          have hpasses := Cursor.passes_append_iff.2
            ⟨past, Cursor.accept?_eq_some_iff.1 hname, hopens⟩
          exact ⟨_, inside.rest, hpasses.1, .ofCall (Bool.eq_false_iff.2 halone) hblanks⟩

/-- Behind its first byte nothing is found in a source that is quiet from there on. -/
theorem mem_classSpans_iff_of_quiet
    {s : Text} {rest : List UInt8} {span : Span}
    (hbytes : s.bytes = Byte.ofAscii 't' :: rest)
    (hquiet : IsQuiet rest) :
    span ∈ s.classSpans ↔
      span ∈ Cursor.callArgumentsHere none ⟨0, Byte.ofAscii 't' :: rest⟩ := by
  -- An announcement behind the first byte would stand in the quiet rest.
  have hfirst {before front after : List UInt8}
      (hsplit : Byte.ofAscii 't' :: rest = before ++ (front ++ after))
      (h : IsAnnouncement before front) : before = [] := by
    cases before with
    | nil => rfl
    | cons b before =>
        have hlater : IsAnnouncement ([b] ++ before) front := h
        exact absurd hlater.of_append
          (hquiet before front after (List.cons_eq_cons.1 hsplit).2)
  rw [Text.mem_classSpans_iff_search, hbytes, attributeSpans, callSpans, mem_spansAlong_iff,
    mem_spansAlong_iff]
  simp only [Option.or_none, Nat.zero_add]
  constructor
  · rintro (⟨before, b, after, hsplit, hspan⟩ | ⟨before, b, after, hsplit, hspan⟩)
    · obtain ⟨front, left, hrest, hends, quote, back, hattribute⟩ :=
        exists_announcement_of_mem_attributesHere hspan
      have hrest : b :: after = front ++ left := hrest
      rw [hrest] at hsplit
      obtain rfl := hfirst hsplit (.ofAttribute hends hattribute)
      obtain ⟨tail, rfl⟩ := hattribute.exists_cons_c
      exact absurd (List.cons_eq_cons.1 hsplit).1 (by decide)
    · obtain ⟨front, left, hrest, hannounced⟩ := exists_announcement_of_mem_callArgumentsHere hspan
      have hrest : b :: after = front ++ left := hrest
      have hbefore := hfirst (hrest ▸ hsplit) hannounced
      subst hbefore
      obtain ⟨rfl, rfl⟩ := List.cons_eq_cons.1 hsplit
      exact hspan
  · intro hspan
    exact Or.inr ⟨[], _, rest, rfl, hspan⟩

theorem callArgumentsHere_of_closes
    {closing : Nat} {rest : List UInt8}
    (hcloses : Cursor.closingParen? 1 3 rest = some closing) :
    Cursor.callArgumentsHere none ⟨0, Byte.ofAsciiText "tw(" ++ rest⟩ =
      Cursor.literalsUntil closing 3 rest := by
  have hname :
      Cursor.accept? (Byte.ofAsciiText "tw") ⟨0, Byte.ofAsciiText "tw(" ++ rest⟩ =
        some ⟨2, Byte.ofAscii '(' :: rest⟩ :=
    Cursor.accept?_eq_some_iff.2 ⟨rfl, rfl⟩
  have hopen :
      (Cursor.skipBlanks ⟨2, Byte.ofAscii '(' :: rest⟩).acceptChar? '(' = some ⟨3, rest⟩ := by
    refine (Cursor.skipBlanks_accept?_eq_some_iff (by decide)).2 ⟨[], ?_, rfl, rfl⟩
    intro b hb
    cases hb
  simp only [Cursor.callArgumentsHere, Option.any_none, Bool.false_eq_true, if_false, hname,
    Option.bind_some, hopen, hcloses]

/-- The literals of a call are found from the left to the right. -/
theorem pairwise_start_literalsUntil
    {bytes : List UInt8} {opening closing : Nat}
    (hopens : bytes[opening]? = some (Byte.ofAscii '('))
    (hcloses : Cursor.closingParen? 1 (opening + 1) (bytes.drop (opening + 1)) = some closing) :
    (Cursor.literalsUntil closing (opening + 1) (bytes.drop (opening + 1))).Pairwise
      fun a b => a.start < b.start := by
  rw [← result_parenLoop_of_opening hopens] at hcloses
  have hread := result_argumentLoop_of_closes hcloses
  obtain ⟨-, -, -, hfound⟩ := visited_eq_of_closes hopens hcloses
  have hspans := @areSpansBetween_last_run bytes opening closing
  rw [Option.some.inj (hread.symm.trans hfound)]
  exact hspans.increasing

namespace Text

/-- What is cut out of the text at a span of the search is what stands there. -/
theorem bytes_value_of_holdsAt
    {s : Text} {span : Span} {content : List UInt8}
    (hspan : span ∈ s.classSpans)
    (hholds : HoldsAt 0 s.bytes content span) :
    (s.classStringAt span).value.bytes = content := by
  obtain ⟨before, quote, value, rest, hquoted⟩ := isQuotedAt_of_mem_classSpans hspan
  obtain ⟨front, back, hbytes, rfl⟩ := hholds
  have hstart : 0 + front.length = (before ++ [quote]).bytes.length := hquoted.start_eq
  have hstop : 0 + front.length + content.length = 0 + front.length + value.bytes.length :=
    hquoted.stop_eq
  rw [hquoted.eq_append, bytes_append, bytes_append value] at hbytes
  have hlength : value.bytes.length = content.length := by omega
  have hrest := (List.append_inj hbytes (by omega)).2
  rw [classStringAt_of_isQuotedAt hquoted]
  exact List.append_inj_left hrest hlength

/-- What stands at the spans of the search, from the left to the right, are the class strings. -/
theorem bytes_classStrings_eq
    {s : Text} {found : List (List UInt8)} {spans : List Span}
    (hmem : ∀ span, span ∈ s.classSpans ↔ span ∈ spans)
    (hincreasing : spans.Pairwise fun a b => a.start < b.start)
    (hholds : List.Forall₂ (HoldsAt 0 s.bytes) found spans) :
    s.classStrings.map (fun c => c.value.bytes) = found := by
  have hspans : s.classSpans = spans :=
    eq_of_pairwise_of_mem_iff (fun _ _ => Nat.lt_asymm) s.pairwise_start_classSpans hincreasing hmem
  rw [classStrings, List.map_map, hspans]
  -- Each span is one of the search, so what stands there is what is cut out.
  have hcut : ∀ span ∈ spans, ∀ content, HoldsAt 0 s.bytes content span →
      (s.classStringAt span).value.bytes = content :=
    fun span hspan content => bytes_value_of_holdsAt ((hmem span).2 hspan)
  clear hmem hincreasing hspans
  induction hholds with
  | nil => rfl
  | cons hhead _ ih =>
      rw [List.map_cons, ih fun span hspan => hcut span (List.mem_cons_of_mem _ hspan)]
      exact congrArg (· :: _) (hcut _ List.mem_cons_self _ hhead)

/-- A source that is one call has the literals among its arguments for class strings. -/
theorem classStrings_of_lone_call
    {s : Text} {arguments : List UInt8} {found : List (List UInt8)}
    (hbytes : s.bytes = Byte.ofAsciiText "tw(" ++ (arguments ++ [Byte.ofAscii ')']))
    (harguments : ArgumentText arguments found)
    (hquiet : IsQuiet (arguments ++ [Byte.ofAscii ')'])) :
    s.classStrings.map (fun c => c.value.bytes) = found := by
  let rest := arguments ++ [Byte.ofAscii ')']
  let closing := 3 + arguments.length
  have hcloses : Cursor.closingParen? 1 3 rest = some closing := by
    rw [Cursor.closingParen?_argumentText harguments, Cursor.closingParen?]
    rfl
  obtain ⟨spans, hspans, hholds⟩ :
      ∃ spans, Cursor.literalsUntil closing 3 rest =
          spans ++ Cursor.literalsUntil closing closing [Byte.ofAscii ')'] ∧
        List.Forall₂ (HoldsAt 3 rest) found spans :=
    Cursor.literalsUntil_argumentText harguments (Nat.le_refl _)
  rw [literalsUntil_of_le (Nat.le_refl closing), List.append_nil] at hspans
  have hmem : ∀ span, span ∈ s.classSpans ↔ span ∈ spans := by
    intro span
    have hquiet' : IsQuiet (Byte.ofAsciiText "w(" ++ rest) :=
      hquiet.append_of_not_mem (by decide) (by decide)
    rw [mem_classSpans_iff_of_quiet hbytes hquiet', ← hspans,
      ← callArgumentsHere_of_closes hcloses]
    rfl
  refine bytes_classStrings_eq hmem ?_ ?_
  · have hopens : (Byte.ofAsciiText "tw(" ++ rest)[2]? = some (Byte.ofAscii '(') := rfl
    rw [← hspans]
    exact pairwise_start_literalsUntil hopens hcloses
  · rw [hbytes]
    exact hholds.imp fun _ _ h => h.of_append (Byte.ofAsciiText "tw(")

end Text

end ClassLint
