import ClassLint.Proofs.Source.LiteralGrammar
import ClassLint.Proofs.Source.Order

/-!
# The grammar of class attributes

A class attribute is a name, an equals sign and a value, and the value is a literal in single or
double quotes, or any literal alone in braces.  Blanks may stand between all of these.  The byte in
front of the name must not belong to a longer name.  Nothing else matters: the attributes of a
source are exactly the places where such bytes stand, whatever stands in front of them and behind.

**Results.**
* `mem_spansAlong_iff`: a search along a source finds what it finds at the places of the source.
* `mem_classSpans_iff_search`: class strings are what the two searches find.
* `attributeValue?_eq_some_iff`: a value is read exactly where one stands.
* `mem_attributeSpans_iff`: the attributes of a source, by the grammar.
* `attributes_recognised`: the same for texts, with what has no influence.
-/

namespace ClassLint

/-! ## Searches -/

/-- What a search finds at each place of a source; it sees the byte in front of the place. -/
def spansAlong (search : Option UInt8 → Cursor → List Span) (previous : Option UInt8)
    (offset : Nat) : List UInt8 → List Span
  | [] => []
  | b :: rest =>
      search previous ⟨offset, b :: rest⟩ ++ spansAlong search (some b) (offset + 1) rest

/-- The class attributes of a source. -/
def attributeSpans (bytes : List UInt8) : List Span :=
  spansAlong (fun previous c => c.attributesHere previous) none 0 bytes

/-- The literal arguments of the calls of a source. -/
def callSpans (bytes : List UInt8) : List Span :=
  spansAlong (fun previous c => c.callArgumentsHere previous) none 0 bytes

/-- The byte in front of a later place, seen from the place before. -/
theorem getLast?_cons_or
    (b : UInt8) (before : List UInt8) (previous : Option UInt8) :
    (b :: before).getLast?.or previous = before.getLast?.or (some b) := by
  rw [List.getLast?_cons]
  cases before.getLast? <;> rfl

theorem mem_spansAlong_iff
    {search : Option UInt8 → Cursor → List Span} {previous : Option UInt8} {offset : Nat}
    {bytes : List UInt8} {span : Span} :
    span ∈ spansAlong search previous offset bytes ↔
      ∃ before b rest, bytes = before ++ b :: rest ∧
        span ∈ search (before.getLast?.or previous) ⟨offset + before.length, b :: rest⟩ := by
  induction bytes generalizing previous offset with
  | nil => simp [spansAlong]
  | cons b bytes ih =>
      have hoffset (before : List UInt8) :
          offset + (b :: before).length = offset + 1 + before.length := by
        rw [List.length_cons]
        omega
      rw [spansAlong, List.mem_append, ih]
      constructor
      · rintro (hhere | ⟨before, c, rest, rfl, hlater⟩)
        · exact ⟨[], b, bytes, rfl, hhere⟩
        · refine ⟨b :: before, c, rest, rfl, ?_⟩
          rw [getLast?_cons_or, hoffset]
          exact hlater
      · rintro ⟨before, c, rest, hbytes, hspan⟩
        cases before with
        | nil =>
            cases hbytes
            exact Or.inl hspan
        | cons d before =>
            obtain ⟨rfl, rfl⟩ := List.cons_eq_cons.1 hbytes
            rw [getLast?_cons_or, hoffset] at hspan
            exact Or.inr ⟨before, c, rest, rfl, hspan⟩

namespace Cursor

/-- The search for class strings runs both searches along the source. -/
theorem mem_classSpansFrom_iff
    {found : List Span} {previous : Option UInt8} {offset : Nat} {rest : List UInt8}
    {span : Span} :
    span ∈ classSpansFrom found previous offset rest ↔
      (span ∈ spansAlong (fun previous c => c.attributesHere previous) previous offset rest ∨
        span ∈ spansAlong (fun previous c => c.callArgumentsHere previous) previous offset rest) ∨
      span ∈ found := by
  induction rest generalizing found previous offset with
  | nil => simp [classSpansFrom, spansAlong]
  | cons b rest ih =>
      simp only [classSpansFrom, ih, spansAlong, List.mem_append]
      grind

end Cursor

theorem Text.mem_classSpans_iff_search
    {s : Text} {span : Span} :
    span ∈ s.classSpans ↔ span ∈ attributeSpans s.bytes ∨ span ∈ callSpans s.bytes := by
  rw [Text.mem_classSpans_iff, Cursor.mem_classSpansFrom_iff]
  simp only [attributeSpans, callSpans, List.not_mem_nil, or_false]

/-! ## The parts of an attribute -/

/-- The names of class attributes. -/
def attributeNames : List (List UInt8) :=
  [Byte.ofAsciiText "class", Byte.ofAsciiText "className"]

/-- The bytes do not end in one that the name of an attribute would go on from. -/
def EndsName (before : List UInt8) : Prop :=
  ∀ b ∈ before.getLast?, Byte.isAlphanumeric b = false ∧ b ∉ Byte.ofAsciiText "_$-:"

/-- What stands in front of the content of an attribute's value, its quote, and what stands behind
the content. -/
inductive IsAttributeValue : List UInt8 → UInt8 → List UInt8 → Prop
  | quoted
      {quote : UInt8}
      (hquote : quote = Byte.ofAscii '"' ∨ quote = Byte.ofAscii '\'') :
      IsAttributeValue [quote] quote [quote]
  | braced
      {quote : UInt8} {left right : List UInt8}
      (hquote : Byte.isQuote quote = true)
      (hleft : IsBlankRun left)
      (hright : IsBlankRun right) :
      IsAttributeValue (Byte.ofAscii '{' :: (left ++ [quote])) quote
        (quote :: (right ++ [Byte.ofAscii '}']))

/-- An equals sign and a value, in the same way. -/
inductive IsAttributeTail : List UInt8 → UInt8 → List UInt8 → Prop
  | equals
      {left right front back : List UInt8} {quote : UInt8}
      (hleft : IsBlankRun left)
      (hright : IsBlankRun right)
      (hvalue : IsAttributeValue front quote back) :
      IsAttributeTail (left ++ [Byte.ofAscii '='] ++ right ++ front) quote back

/-- A class attribute, in the same way. -/
inductive IsClassAttribute : List UInt8 → UInt8 → List UInt8 → Prop
  | named
      {name front back : List UInt8} {quote : UInt8}
      (hname : name ∈ attributeNames)
      (htail : IsAttributeTail front quote back) :
      IsClassAttribute (name ++ front) quote back

theorem continuesName_eq_false_iff
    {before : List UInt8} :
    continuesName before.getLast? = false ↔ EndsName before := by
  have hmarks (b : UInt8) :
      b ∈ Byte.ofAsciiText "_$-:" ↔
        b = Byte.ofAscii '_' ∨ b = Byte.ofAscii '$' ∨ b = Byte.ofAscii '-' ∨
          b = Byte.ofAscii ':' := by
    simp [Byte.ofAsciiText]
  unfold EndsName
  cases before.getLast? with
  | none => simp [continuesName]
  | some b => simp [continuesName, Byte.isIdentifier, hmarks, and_assoc]

theorem IsAttributeValue.isQuote
    {front back : List UInt8} {quote : UInt8}
    (h : IsAttributeValue front quote back) :
    Byte.isQuote quote = true := by
  cases h with
  | quoted hquote => rcases hquote with rfl | rfl <;> decide
  | braced hquote hleft hright => exact hquote

namespace Cursor

/-! ## Reading an attribute -/

/-- The content lies at the span, behind the front and in front of the back that stand at the
place. -/
def Encloses (c : Cursor) (front content back : List UInt8) (span : Span) : Prop :=
  ∃ d, c.Passes (front ++ (content ++ back)) d ∧
    span = ⟨c.offset + front.length, c.offset + front.length + content.length⟩

theorem encloses_append_iff
    {c : Cursor} {passed front content back : List UInt8} {span : Span} :
    c.Encloses (passed ++ front) content back span ↔
      ∃ d, c.Passes passed d ∧ d.Encloses front content back span := by
  constructor
  · rintro ⟨e, hpasses, rfl⟩
    rw [List.append_assoc] at hpasses
    obtain ⟨d, hd, he⟩ := passes_append_iff.1 hpasses
    refine ⟨d, hd, e, he, ?_⟩
    simp only [hd.2, List.length_append, Nat.add_assoc]
  · rintro ⟨d, hd, e, he, rfl⟩
    refine ⟨e, ?_, ?_⟩
    · rw [List.append_assoc]
      exact passes_append_iff.2 ⟨d, hd, he⟩
    · simp only [hd.2, List.length_append, Nat.add_assoc]

theorem quotedLiteral?_eq_some_iff
    {c : Cursor} {span : Span} :
    c.quotedLiteral? = some span ↔
      ∃ quote content, (quote = Byte.ofAscii '"' ∨ quote = Byte.ofAscii '\'') ∧
        LiteralContent quote content ∧ c.Encloses [quote] content [quote] span := by
  constructor
  · intro h
    unfold quotedLiteral? at h
    split at h
    · next first tail hfirst =>
        split at h
        · cases h
        · next htemplate =>
            obtain ⟨⟨_, past⟩, hliteral, rfl⟩ := Option.map_eq_some_iff.1 h
            obtain ⟨quote, content, hquote, hcontent, hpasses, hspan⟩ :=
              literal?_eq_some_iff.1 hliteral
            have hsame : first = quote := by
              have hrest := hfirst.symm.trans hpasses.1
              exact (List.cons_eq_cons.1 hrest).1
            subst hsame
            refine ⟨first, content, ?_, hcontent, past, hpasses, hspan⟩
            simp only [Byte.isQuote, Bool.or_eq_true, beq_iff_eq, htemplate, or_false] at hquote
            exact hquote
    · cases h
  · rintro ⟨quote, content, hquote, hcontent, past, hpasses, hspan⟩
    have hisQuote : Byte.isQuote quote = true :=
      IsAttributeValue.isQuote (.quoted hquote)
    have htemplate : quote ≠ 0x60 := by
      rcases hquote with rfl | rfl <;> decide
    have hliteral : c.literal? = some (span, past) :=
      literal?_eq_some_iff.2 ⟨quote, content, hisQuote, hcontent, hpasses, hspan⟩
    have hrest : c.rest = quote :: (content ++ [quote] ++ past.rest) := hpasses.1
    rw [quotedLiteral?, hrest]
    simp only [if_neg htemplate, hliteral, Option.map_some]

theorem bracedLiteral?_eq_some_iff
    {c : Cursor} {span : Span} :
    c.bracedLiteral? = some span ↔
      ∃ quote content left right, Byte.isQuote quote = true ∧ LiteralContent quote content ∧
        IsBlankRun left ∧ IsBlankRun right ∧
        c.Encloses (Byte.ofAscii '{' :: (left ++ [quote])) content
          (quote :: (right ++ [Byte.ofAscii '}'])) span := by
  have hliterals (d : Cursor) (r : Span × Cursor) (h : d.literal? = some r) :
      ∃ b rest, d.rest = b :: rest ∧ Byte.isBlank b = false :=
    @exists_of_literal? d r.2 r.1 h
  have hclose : Byte.isBlank (Byte.ofAscii '}') = false := by decide
  constructor
  · intro h
    obtain ⟨inside, hinside, h⟩ := Option.bind_eq_some_iff.1 h
    obtain ⟨⟨content, past⟩, hliteral, h⟩ := Option.bind_eq_some_iff.1 h
    obtain ⟨stop, hstop, rfl⟩ := Option.map_eq_some_iff.1 h
    obtain ⟨left, opening, hleft, hopening, hliteral⟩ :=
      (skipBlanks_eq_some_iff hliterals).1 hliteral
    obtain ⟨quote, value, hquote, hvalue, hpasses, hspan⟩ :=
      literal?_eq_some_iff.1 hliteral
    obtain ⟨right, hright, hclosing⟩ := (skipBlanks_accept?_eq_some_iff hclose).1 hstop
    refine ⟨quote, value, left, right, hquote, hvalue, hleft, hright, ?_⟩
    have hvalueEncloses :
        opening.Encloses [quote] value (quote :: (right ++ [Byte.ofAscii '}'])) content := by
      refine ⟨stop, ?_, hspan⟩
      have hboth := passes_append_iff.2 ⟨past, hpasses, hclosing⟩
      simpa using hboth
    exact encloses_append_iff.2 ⟨inside, accept?_eq_some_iff.1 hinside,
      encloses_append_iff.2 ⟨opening, hopening, hvalueEncloses⟩⟩
  · rintro ⟨quote, value, left, right, hquote, hvalue, hleft, hright, hencloses⟩
    rw [← List.singleton_append] at hencloses
    obtain ⟨inside, hinside, hencloses⟩ := encloses_append_iff.1 hencloses
    obtain ⟨opening, hopening, stop, hstop, hspan⟩ := encloses_append_iff.1 hencloses
    have hsplit :
        [quote] ++ (value ++ quote :: (right ++ [Byte.ofAscii '}'])) =
          ([quote] ++ (value ++ [quote])) ++ (right ++ [Byte.ofAscii '}']) := by
      simp
    rw [hsplit] at hstop
    obtain ⟨past, hpasses, hclosing⟩ := passes_append_iff.1 hstop
    have hliteral : inside.skipBlanks.literal? = some (span, past) :=
      (skipBlanks_eq_some_iff hliterals).2 ⟨left, opening, hleft, hopening,
        literal?_eq_some_iff.2 ⟨quote, value, hquote, hvalue, hpasses, hspan⟩⟩
    have hend : past.skipBlanks.accept? [0x7D] = some stop :=
      (skipBlanks_accept?_eq_some_iff hclose).2 ⟨right, hright, hclosing⟩
    have hopen : c.accept? [0x7B] = some inside := accept?_eq_some_iff.2 hinside
    simp only [bracedLiteral?, hopen, hliteral, hend, Option.bind_some, Option.map_some]

/-- A value is read exactly where one stands. -/
theorem value?_eq_some_iff
    {c : Cursor} {span : Span} :
    (c.quotedLiteral?).or c.bracedLiteral? = some span ↔
      ∃ front quote content back, IsAttributeValue front quote back ∧
        LiteralContent quote content ∧ c.Encloses front content back span := by
  rw [Option.or_eq_some_iff]
  constructor
  · rintro (hquoted | ⟨-, hbraced⟩)
    · obtain ⟨quote, content, hquote, hcontent, hencloses⟩ :=
        quotedLiteral?_eq_some_iff.1 hquoted
      exact ⟨_, quote, content, _, .quoted hquote, hcontent, hencloses⟩
    · obtain ⟨quote, content, left, right, hquote, hcontent, hleft, hright, hencloses⟩ :=
        bracedLiteral?_eq_some_iff.1 hbraced
      exact ⟨_, quote, content, _, .braced hquote hleft hright, hcontent, hencloses⟩
  · rintro ⟨front, quote, content, back, hvalue, hcontent, hencloses⟩
    cases hvalue with
    | quoted hquote =>
        exact Or.inl (quotedLiteral?_eq_some_iff.2 ⟨quote, content, hquote, hcontent, hencloses⟩)
    | @braced _ left right hquote hleft hright =>
        refine Or.inr ⟨?_, bracedLiteral?_eq_some_iff.2
          ⟨quote, content, left, right, hquote, hcontent, hleft, hright, hencloses⟩⟩
        obtain ⟨d, ⟨hrest, -⟩, -⟩ := hencloses
        rw [quotedLiteral?, literal?, hrest]
        rfl

theorem exists_of_value?
    {c : Cursor} {span : Span}
    (h : (c.quotedLiteral?).or c.bracedLiteral? = some span) :
    ∃ b rest, c.rest = b :: rest ∧ Byte.isBlank b = false := by
  obtain ⟨front, quote, content, back, hvalue, -, d, ⟨hrest, -⟩, -⟩ := value?_eq_some_iff.1 h
  cases hvalue with
  | quoted hquote =>
      exact ⟨_, _, hrest, Byte.isBlank_of_isQuote (IsAttributeValue.isQuote (.quoted hquote))⟩
  | braced hquote hleft hright => exact ⟨_, _, hrest, by decide⟩

theorem attributeValue?_eq_some_iff
    {c : Cursor} {span : Span} :
    c.attributeValue? = some span ↔
      ∃ front quote content back, IsAttributeTail front quote back ∧
        LiteralContent quote content ∧ c.Encloses front content back span := by
  have hequals : Byte.isBlank (Byte.ofAscii '=') = false := by decide
  have hvalues (d : Cursor) (r : Span) (h : (d.quotedLiteral?).or d.bracedLiteral? = some r) :
      ∃ b rest, d.rest = b :: rest ∧ Byte.isBlank b = false :=
    exists_of_value? h
  rw [attributeValue?, Option.bind_eq_some_iff]
  constructor
  · rintro ⟨past, hpast, hvalue⟩
    obtain ⟨left, hleft, hpasses⟩ := (skipBlanks_accept?_eq_some_iff hequals).1 hpast
    obtain ⟨right, value, hright, hblanks, hvalue⟩ := (skipBlanks_eq_some_iff hvalues).1 hvalue
    obtain ⟨front, quote, content, back, hform, hcontent, hencloses⟩ :=
      value?_eq_some_iff.1 hvalue
    refine ⟨_, quote, content, back, .equals hleft hright hform, hcontent, ?_⟩
    rw [List.append_assoc]
    exact encloses_append_iff.2 ⟨past, hpasses, encloses_append_iff.2 ⟨value, hblanks, hencloses⟩⟩
  · rintro ⟨_, quote, content, back, htail, hcontent, hencloses⟩
    cases htail with
    | equals hleft hright hform =>
        rw [List.append_assoc] at hencloses
        obtain ⟨past, hpasses, hencloses⟩ := encloses_append_iff.1 hencloses
        obtain ⟨value, hblanks, hencloses⟩ := encloses_append_iff.1 hencloses
        refine ⟨past, (skipBlanks_accept?_eq_some_iff hequals).2 ⟨_, hleft, hpasses⟩, ?_⟩
        exact (skipBlanks_eq_some_iff hvalues).2 ⟨_, value, hright, hblanks,
          value?_eq_some_iff.2 ⟨_, quote, content, back, hform, hcontent, hencloses⟩⟩

theorem mem_attributesHere_iff
    {before : List UInt8} {c : Cursor} {span : Span} :
    span ∈ c.attributesHere before.getLast? ↔
      EndsName before ∧ ∃ front quote content back, IsClassAttribute front quote back ∧
        LiteralContent quote content ∧ c.Encloses front content back span := by
  rw [← continuesName_eq_false_iff, attributesHere]
  cases continuesName before.getLast? with
  | true => simp
  | false =>
      simp only [Bool.false_eq_true, if_false, true_and]
      rw [List.mem_filterMap]
      constructor
      · rintro ⟨name, hname, hvalue⟩
        obtain ⟨past, hpast, hvalue⟩ := Option.bind_eq_some_iff.1 hvalue
        obtain ⟨front, quote, content, back, htail, hcontent, hencloses⟩ :=
          attributeValue?_eq_some_iff.1 hvalue
        exact ⟨_, quote, content, back, .named hname htail, hcontent,
          encloses_append_iff.2 ⟨past, accept?_eq_some_iff.1 hpast, hencloses⟩⟩
      · rintro ⟨_, quote, content, back, hattribute, hcontent, hencloses⟩
        cases hattribute with
        | @named name _ _ _ hname htail =>
            obtain ⟨past, hpast, hencloses⟩ := encloses_append_iff.1 hencloses
            exact ⟨name, hname, Option.bind_eq_some_iff.2 ⟨past, accept?_eq_some_iff.2 hpast,
              attributeValue?_eq_some_iff.2 ⟨_, quote, content, back, htail, hcontent, hencloses⟩⟩⟩

end Cursor

/-! ## The attributes of a source -/

/-- An attribute begins with its name. -/
theorem IsClassAttribute.exists_cons
    {front back : List UInt8} {quote : UInt8}
    (h : IsClassAttribute front quote back) :
    ∃ b rest, front = b :: rest := by
  have hnames : ∀ name ∈ attributeNames, name ≠ [] := by decide
  cases h with
  | @named name tail _ _ hname htail =>
      obtain ⟨b, rest, rfl⟩ := List.exists_cons_of_ne_nil (hnames name hname)
      exact ⟨b, rest ++ tail, rfl⟩

theorem mem_attributeSpans_iff
    {bytes : List UInt8} {span : Span} :
    span ∈ attributeSpans bytes ↔
      ∃ before front quote content back after,
        bytes = before ++ (front ++ (content ++ (back ++ after))) ∧ EndsName before ∧
        IsClassAttribute front quote back ∧ LiteralContent quote content ∧
        span = ⟨before.length + front.length, before.length + front.length + content.length⟩ := by
  rw [attributeSpans, mem_spansAlong_iff]
  simp only [Option.or_none, Nat.zero_add, Cursor.mem_attributesHere_iff]
  constructor
  · rintro ⟨before, b, rest, rfl, hends, front, quote, content, back, hattribute, hcontent,
      d, ⟨hrest, -⟩, hspan⟩
    refine ⟨before, front, quote, content, back, d.rest, ?_, hends, hattribute, hcontent, hspan⟩
    rw [show b :: rest = front ++ (content ++ back) ++ d.rest from hrest]
    simp only [List.append_assoc]
  · rintro ⟨before, front, quote, content, back, after, rfl, hends, hattribute, hcontent, rfl⟩
    obtain ⟨b, tail, rfl⟩ := hattribute.exists_cons
    refine ⟨before, b, tail ++ (content ++ (back ++ after)), rfl, hends, b :: tail, quote, content,
      back, hattribute, hcontent, ⟨_, after⟩, ⟨?_, rfl⟩, rfl⟩
    simp only [List.append_assoc, List.cons_append]

/--
**Class attributes are recognised exactly.**  The attributes of a text are the contents of the
literals that stand in it as the value of an attribute, behind bytes that do not end in the middle
of a name.  The bytes of the attribute decide that: in every text that holds the same bytes behind
others that do not end in the middle of a name, the same content is found.  Besides the arguments
of calls, these are the class strings of the text.
-/
theorem attributes_recognised
    (s : Text) :
    (∀ span, span ∈ attributeSpans s.bytes ↔
      ∃ before front quote content back after,
        s.bytes = before ++ (front ++ (content ++ (back ++ after))) ∧ EndsName before ∧
        IsClassAttribute front quote back ∧ LiteralContent quote content ∧
        span = ⟨before.length + front.length,
          before.length + front.length + content.length⟩) ∧
    (∀ span ∈ attributeSpans s.bytes, ∃ before written after start stop,
      s.bytes = before ++ (written ++ after) ∧
      span = ⟨before.length + start, before.length + stop⟩ ∧ stop < written.length ∧
      ∀ (t : Text) (before' after' : List UInt8), EndsName before' →
        t.bytes = before' ++ (written ++ after') →
        ⟨before'.length + start, before'.length + stop⟩ ∈ attributeSpans t.bytes) ∧
    (∀ span, span ∈ s.classSpans ↔
      span ∈ attributeSpans s.bytes ∨ span ∈ callSpans s.bytes) := by
  refine ⟨fun span => mem_attributeSpans_iff, ?_, fun span => Text.mem_classSpans_iff_search⟩
  intro span hspan
  obtain ⟨before, front, quote, content, back, after, hbytes, -, hattribute, hcontent, rfl⟩ :=
    mem_attributeSpans_iff.1 hspan
  have hback : 0 < back.length := by
    cases hattribute with
    | named hname htail =>
        cases htail with
        | equals hleft hright hvalue => cases hvalue <;> exact Nat.succ_pos _
  refine ⟨before, front ++ (content ++ back), after, front.length, front.length + content.length,
    ?_, ?_, ?_, ?_⟩
  · simp only [hbytes, List.append_assoc]
  · rw [Nat.add_assoc]
  · simp only [List.length_append]
    omega
  · intro t before' after' hends ht
    refine mem_attributeSpans_iff.2 ⟨before', front, quote, content, back, after', ?_, hends,
      hattribute, hcontent, ?_⟩
    · simp only [ht, List.append_assoc]
    · rw [Nat.add_assoc]

/-- A template in braces behind a character of two bytes, with a dollar sign in front of an escaped
quote and another one in front of the closing quote. -/
theorem attributes_recognised_template :
    let s : Text := "é className = \x7b`$\\`$`\x7d".toList
    let content : List UInt8 := Byte.ofAsciiText "$\\`$"
    LiteralContent (Byte.ofAscii '`') content ∧
      ⟨17, 21⟩ ∈ attributeSpans s.bytes ∧ ⟨17, 21⟩ ∈ s.classSpans := by
  intro s content
  have hcontent : LiteralContent (Byte.ofAscii '`') content := by
    refine .plain (by decide) (by decide) (by decide) (by decide) (.escaped _ ?_)
    exact .plain (by decide) (by decide) (by decide) (by decide) .empty
  have hvalue :
      IsAttributeValue (Byte.ofAsciiText "\x7b`") (Byte.ofAscii '`') (Byte.ofAsciiText "`\x7d") :=
    @IsAttributeValue.braced _ [] [] (by decide) (by simp [IsBlankRun]) (by simp [IsBlankRun])
  have hblank : IsBlankRun (Byte.ofAsciiText " ") := by
    intro b hb
    obtain rfl := List.mem_singleton.1 hb
    decide
  have hname : Byte.ofAsciiText "className" ∈ attributeNames := by decide
  have hattribute := IsClassAttribute.named hname (.equals hblank hblank hvalue)
  have hends : EndsName (Text.bytes "é ".toList) := by
    have hlast : (Text.bytes "é ".toList).getLast? = some (Byte.ofAscii ' ') := by decide
    rw [EndsName, hlast]
    rintro b ⟨⟩
    decide
  obtain ⟨hgrammar, -, hsearches⟩ := attributes_recognised s
  have hspan : ⟨17, 21⟩ ∈ attributeSpans s.bytes :=
    (hgrammar _).2 ⟨_, _, _, content, _, [], by decide, hends, hattribute, hcontent, by decide⟩
  exact ⟨hcontent, hspan, (hsearches _).2 (Or.inl hspan)⟩

end ClassLint
