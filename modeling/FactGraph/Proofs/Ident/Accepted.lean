import FactGraph.Proofs.Ident.Reading

namespace FactGraph

namespace Text

/-- What may stand in front of a number. -/
structure Padding where
  plus : Bool
  zeros : Nat
  deriving DecidableEq, Repr

namespace Padding

def none : Padding := ⟨false, 0⟩

def text (padding : Padding) : List Char :=
  (if padding.plus then ['+'] else []) ++ List.replicate padding.zeros '0'

theorem text_eq_nil_iff {padding : Padding} : padding.text = [] ↔ padding = none := by
  rcases padding with ⟨plus, zeros⟩
  cases plus <;> simp [text, none]

end Padding

theorem value_of_isDigit {c : Char} (digit : c.isDigit = true) :
    c.toNat - '0'.toNat < 10 ∧ Nat.digitChar (c.toNat - '0'.toNat) = c := by
  rw [Char.isDigit, Bool.and_eq_true, decide_eq_true_eq, decide_eq_true_eq] at digit
  have low : 48 ≤ c.toNat := digit.1
  have high : c.toNat ≤ 57 := digit.2
  have zero : '0'.toNat = 48 := rfl
  have small : c.toNat - '0'.toNat < 10 := by omega
  refine ⟨small, Char.toNat_inj.1 ?_⟩
  rw [Nat.toNat_digitChar_of_lt_ten small]
  omega

theorem writeCounter_append {digits : List Char} {start : Nat} (positive : 0 < start)
    (all : ∀ c ∈ digits, c.isDigit = true) :
    writeCounter start ++ digits = writeCounter (Nat.ofDigitChars 10 digits start) := by
  induction digits generalizing start with
  | nil => rw [List.append_nil, Nat.ofDigitChars_nil]
  | cons c digits ih =>
    rcases List.forall_mem_cons.1 all with ⟨digit, others⟩
    obtain ⟨small, same⟩ := value_of_isDigit digit
    have longer : writeCounter (10 * start + (c.toNat - '0'.toNat)) =
        writeCounter start ++ [c] := by
      rw [writeCounter, ← Nat.toDigits_append_toDigits (by decide) positive small,
        Nat.toDigits_of_lt_base small, same]
      rfl
    have still : 0 < 10 * start + (c.toNat - '0'.toNat) := by omega
    calc writeCounter start ++ c :: digits
        = writeCounter start ++ [c] ++ digits := by rw [List.append_assoc, List.singleton_append]
      _ = writeCounter (Nat.ofDigitChars 10 (c :: digits) start) := by
        rw [← longer, ih still others, Nat.ofDigitChars_cons]

theorem exists_zeros {digits : List Char} (nonempty : digits ≠ [])
    (all : ∀ c ∈ digits, c.isDigit = true) :
    ∃ zeros, digits = List.replicate zeros '0' ++ writeCounter (Nat.ofDigitChars 10 digits 0) := by
  induction digits with
  | nil => contradiction
  | cons c digits ih =>
    rcases List.forall_mem_cons.1 all with ⟨digit, others⟩
    obtain ⟨small, same⟩ := value_of_isDigit digit
    have value : Nat.ofDigitChars 10 (c :: digits) 0 =
        Nat.ofDigitChars 10 digits (c.toNat - '0'.toNat) := by
      rw [Nat.ofDigitChars_cons, Nat.mul_zero, Nat.zero_add]
    rw [value]
    rcases Nat.eq_zero_or_pos (c.toNat - '0'.toNat) with zero | positive
    · -- A zero in front counts for nothing, unless it is all there is.
      rw [zero] at same ⊢
      obtain rfl : '0' = c := same
      by_cases last : digits = []
      · exact ⟨0, last ▸ rfl⟩
      · rcases ih last others with ⟨zeros, whole⟩
        refine ⟨zeros + 1, ?_⟩
        rw [List.replicate_succ, List.cons_append, ← whole]
    · have one : writeCounter (c.toNat - '0'.toNat) = [c] := by
        rw [writeCounter, Nat.toDigits_of_lt_base small, same]
      refine ⟨0, ?_⟩
      rw [← writeCounter_append positive others, one]
      rfl

theorem ofDigitChars_padded (zeros number : Nat) :
    Nat.ofDigitChars 10 (List.replicate zeros '0' ++ writeCounter number) 0 = number := by
  rw [Nat.ofDigitChars_append, Nat.ofDigitChars_replicate_zero, Nat.mul_zero]
  exact Nat.ofDigitChars_ten_toDigits

theorem isDigit_of_mem_padded {zeros number : Nat} {c : Char}
    (inside : c ∈ List.replicate zeros '0' ++ writeCounter number) : c.isDigit = true := by
  rcases List.mem_append.1 inside with zero | written
  · rw [List.eq_of_mem_replicate zero]
    rfl
  · exact isDigit_of_mem_writeCounter written

/-- The digits of a number, which are all that is left of its text when a plus sign has been
passed. -/
def IsNumeral (digits : List Char) (number : Nat) : Prop :=
  digits ≠ [] ∧ (∀ c ∈ digits, c.isDigit = true) ∧ Nat.ofDigitChars 10 digits 0 = number ∧
    number < counterBound

theorem isNumeral_iff {digits : List Char} {number : Nat} :
    (if digits.isEmpty || !digits.all Char.isDigit then none
      else if Nat.ofDigitChars 10 digits 0 < counterBound then
        some (Nat.ofDigitChars 10 digits 0) else none) =
        some number ↔ IsNumeral digits number := by
  unfold IsNumeral
  by_cases proper : digits = [] ∨ ¬ digits.all Char.isDigit = true
  · rw [if_pos (by simpa using proper)]
    refine iff_of_false nofun ?_
    intro numeral
    rcases proper with rfl | other
    · exact numeral.1 rfl
    · exact other (List.all_eq_true.2 numeral.2.1)
  · obtain ⟨nonempty, all⟩ := not_or.1 proper
    have digit : ∀ c ∈ digits, c.isDigit = true := List.all_eq_true.1 (not_not.1 all)
    rw [if_neg (by simpa using proper), Option.ite_none_right_eq_some, Option.some.injEq]
    constructor
    · intro read
      exact ⟨nonempty, digit, read.2, read.2 ▸ read.1⟩
    · intro numeral
      exact ⟨numeral.2.2.1 ▸ numeral.2.2.2, numeral.2.2.1⟩

theorem readCounter_eq_some_iff_isNumeral {text : List Char} {number : Nat} :
    readCounter text = some number ↔
      IsNumeral text number ∨ ∃ digits, text = '+' :: digits ∧ IsNumeral digits number := by
  unfold readCounter
  split
  · next digits =>
    have sign : ¬ IsNumeral ('+' :: digits) number :=
      fun numeral => absurd (numeral.2.1 '+' List.mem_cons_self) nofun
    refine isNumeral_iff.trans ?_
    simp [sign]
  · next other =>
    refine isNumeral_iff.trans ?_
    constructor
    · exact .inl
    · intro read
      rcases read with numeral | ⟨digits, rfl, _⟩
      · exact numeral
      · exact absurd rfl (other digits)

/-- A number is read from its digits with any padding in front of them, and from nothing else. -/
theorem readCounter_eq_some_iff {text : List Char} {number : Nat} :
    readCounter text = some number ↔
      number < counterBound ∧ ∃ padding : Padding, text = padding.text ++ writeCounter number := by
  rw [readCounter_eq_some_iff_isNumeral]
  constructor
  · intro read
    rcases read with numeral | ⟨digits, rfl, numeral⟩
    · rcases exists_zeros numeral.1 numeral.2.1 with ⟨zeros, whole⟩
      rw [numeral.2.2.1] at whole
      exact ⟨numeral.2.2.2, ⟨false, zeros⟩, whole⟩
    · rcases exists_zeros numeral.1 numeral.2.1 with ⟨zeros, whole⟩
      rw [numeral.2.2.1] at whole
      exact ⟨numeral.2.2.2, ⟨true, zeros⟩, congrArg _ whole⟩
  · intro padded
    rcases padded with ⟨bounded, ⟨plus, zeros⟩, rfl⟩
    have numeral : IsNumeral (List.replicate zeros '0' ++ writeCounter number) number := by
      refine ⟨by simp [writeCounter], ?_, ofDigitChars_padded zeros number, bounded⟩
      intro c inside
      exact isDigit_of_mem_padded inside
    cases plus with
    | false => exact .inl numeral
    | true => exact .inr ⟨_, rfl, numeral⟩

end Text

namespace Ident

def IsNumbered : Ident → Prop
  | auto _ | statement _ | part _ _ => True
  | user _ | unique _ | reification _ => False

instance : DecidablePred IsNumbered
  | auto _ | statement _ | part _ _ => inferInstanceAs (Decidable True)
  | user _ | unique _ | reification _ => inferInstanceAs (Decidable False)

def paddedLocal (padding : Text.Padding) (ident : Ident) : List Char :=
  if ident.IsNumbered then padding.text ++ ident.localText else ident.localText

/-- The text with a padding in front of the number, if there is a number in it. -/
def padded (padding : Text.Padding) : Ident → String
  | reification role => role.name
  | ident => String.ofList (ident.space.toList ++ '/' :: ident.paddedLocal padding)

theorem paddedLocal_eq_localText_iff {ident : Ident} {padding : Text.Padding} :
    ident.paddedLocal padding = ident.localText ↔ ¬ ident.IsNumbered ∨ padding = .none := by
  unfold paddedLocal
  split
  · next numbered => simp [numbered, Text.Padding.text_eq_nil_iff]
  · next other => simp [other]

theorem toList_padded {ident : Ident} (spaced : ident.Spaced) (padding : Text.Padding) :
    (ident.padded padding).toList = ident.space.toList ++ '/' :: ident.paddedLocal padding := by
  cases ident <;> first | exact spaced.elim | exact String.toList_ofList

theorem padded_eq_text_iff {ident : Ident} {padding : Text.Padding} :
    ident.padded padding = ident.text ↔ ¬ ident.IsNumbered ∨ padding = .none := by
  rw [← paddedLocal_eq_localText_iff]
  cases ident with
  | reification role => exact iff_of_true rfl rfl
  | _ => simp [padded, text, String.ofList_inj]

theorem append_of_splitAtFirst {separator : Char} {text before after : List Char}
    (split : splitAtFirst separator text = some (before, after)) :
    text = before ++ separator :: after := by
  have whole : text = text.takeWhile (· != separator) ++ text.dropWhile (· != separator) :=
    List.takeWhile_append_dropWhile.symm
  rw [splitAtFirst, List.span_eq_takeWhile_dropWhile] at split
  cases rest : text.dropWhile (· != separator) with
  | nil => simp [rest] at split
  | cons c tail =>
    have head := List.head?_dropWhile_not (· != separator) text
    rw [rest] at split head whole
    obtain rfl : c = separator := by simpa using head
    simp only [Option.some.injEq, Prod.mk.injEq] at split
    rw [← split.1, ← split.2]
    exact whole

theorem eq_letter_of_ofLetters? {letters : List Char} {role : Role}
    (read : Role.ofLetters? letters = some role) :
    letters = [role.letter] := by
  unfold Role.ofLetters? at read
  split at read <;> cases read <;> rfl

theorem partOfText?_eq_some_iff {rest : List Char} {ident : Ident} :
    partOfText? rest = some ident ↔
      ∃ group role padding, ident = part group role ∧ group < Text.counterBound ∧
        rest = Text.Padding.text padding ++ Text.writeCounter group ++ ['.', role.letter] := by
  simp only [partOfText?, Option.bind_eq_bind, Option.bind_eq_some_iff, Option.pure_def,
    Option.some.injEq, Prod.exists, Text.readCounter_eq_some_iff]
  constructor
  · intro read
    rcases read with ⟨number, letters, split, role, named, group, ⟨bounded, padding, rfl⟩, rfl⟩
    rw [append_of_splitAtFirst split, eq_letter_of_ofLetters? named]
    exact ⟨group, role, padding, rfl, bounded, rfl⟩
  · intro written
    rcases written with ⟨group, role, padding, rfl, bounded, rfl⟩
    have apart : '.' ∉ Text.Padding.text padding ++ Text.writeCounter group := by
      rcases padding with ⟨plus, zeros⟩
      cases plus <;> simp [Text.Padding.text, Text.dot_not_mem_writeCounter]
    exact ⟨_, _, splitAtFirst_append apart [role.letter], role, Role.ofLetters?_letter role, group,
      ⟨bounded, padding, rfl⟩, rfl⟩

theorem ofLocalText?_paddedLocal {ident : Ident} (spaced : ident.Spaced) (bounded : ident.Bounded)
    (padding : Text.Padding) :
    ofLocalText? ident.space (ident.paddedLocal padding) = some ident := by
  cases ident with
  | user text | unique text => simp [space, ofLocalText?, paddedLocal, IsNumbered, localText]
  | auto number | statement number =>
    have read : Text.readCounter (padding.text ++ Text.writeCounter number) = some number :=
      Text.readCounter_eq_some_iff.2 ⟨bounded, padding, rfl⟩
    simp [space, ofLocalText?, paddedLocal, IsNumbered, localText, read]
  | part group role =>
    have read : partOfText? (padding.text ++ Text.writeCounter group ++ ['.', role.letter]) =
        some (part group role) :=
      partOfText?_eq_some_iff.2 ⟨group, role, padding, rfl, bounded, rfl⟩
    rw [List.append_assoc] at read
    simp [space, ofLocalText?, paddedLocal, IsNumbered, localText, read]
  | reification role => exact spaced.elim

theorem exists_padding_of_ofLocalText? {space : String} {rest : List Char} {ident : Ident}
    (read : ofLocalText? space rest = some ident) :
    ident.Spaced ∧ space = ident.space ∧ ident.Bounded ∧ ∃ padding,
      rest = ident.paddedLocal padding := by
  unfold ofLocalText? at read
  split at read
  · cases read
    exact ⟨trivial, rfl, trivial, .none, String.toList_ofList.symm⟩
  · cases read
    exact ⟨trivial, rfl, trivial, .none, String.toList_ofList.symm⟩
  · rcases Option.map_eq_some_iff.1 read with ⟨number, counted, rfl⟩
    rcases Text.readCounter_eq_some_iff.1 counted with ⟨bounded, padding, written⟩
    exact ⟨trivial, rfl, bounded, padding, written⟩
  · rcases Option.map_eq_some_iff.1 read with ⟨number, counted, rfl⟩
    rcases Text.readCounter_eq_some_iff.1 counted with ⟨bounded, padding, written⟩
    exact ⟨trivial, rfl, bounded, padding, written⟩
  · rcases partOfText?_eq_some_iff.1 read with ⟨group, role, padding, rfl, bounded, written⟩
    exact ⟨trivial, rfl, bounded, padding, written.trans (List.append_assoc _ _ _)⟩
  · contradiction

theorem ofText?_name (role : Role) : ofText? role.name = some (reification role) := by
  cases role <;> rfl

theorem isEmpty_paddedLocal_iff {ident : Ident} {padding : Text.Padding} (spaced : ident.Spaced) :
    (ident.paddedLocal padding).isEmpty = true ↔ ¬ ident.Filled := by
  cases ident with
  | user text | unique text => simp [paddedLocal, IsNumbered, localText, Filled]
  | auto number | statement number | part group role =>
    simp [paddedLocal, IsNumbered, localText, Filled, Text.writeCounter]
  | reification role => exact spaced.elim

theorem slash_not_mem_space (ident : Ident) : '/' ∉ ident.space.toList := by
  cases ident <;> simp [space]

theorem splitAtFirst_padded {ident : Ident} (spaced : ident.Spaced) (padding : Text.Padding) :
    splitAtFirst '/' (ident.padded padding).toList =
      some (ident.space.toList, ident.paddedLocal padding) := by
  rw [toList_padded spaced, splitAtFirst_append ident.slash_not_mem_space]

theorem ofText?_padded {ident : Ident} (bounded : ident.Bounded) (filled : ident.Filled)
    (padding : Text.Padding) :
    ofText? (ident.padded padding) = some ident := by
  by_cases spaced : ident.Spaced
  · have split := splitAtFirst_padded spaced padding
    have other (role : Role) : role.name ≠ ident.padded padding := by
      intro same
      rw [← same, splitAtFirst_name] at split
      contradiction
    have more : (ident.paddedLocal padding).isEmpty = false :=
      Bool.eq_false_iff.2 fun empty => (isEmpty_paddedLocal_iff spaced).1 empty filled
    rw [ofText?_of_not_name other, split, Option.bind_some, more, String.ofList_toList]
    exact ofLocalText?_paddedLocal spaced bounded padding
  · cases ident <;> first | exact absurd trivial spaced | exact ofText?_name _

theorem exists_padding_of_ofText? {text : String} {ident : Ident}
    (read : ofText? text = some ident) :
    ident.Bounded ∧ ident.Filled ∧ ∃ padding, text = ident.padded padding := by
  by_cases named : ∃ role : Role, role.name = text
  · rcases named with ⟨role, rfl⟩
    rw [ofText?_name] at read
    obtain rfl := Option.some.inj read
    exact ⟨trivial, trivial, .none, rfl⟩
  · rw [ofText?_of_not_name fun role same => named ⟨role, same⟩, Option.bind_eq_some_iff] at read
    rcases read with ⟨⟨before, rest⟩, split, read⟩
    rw [Option.ite_none_left_eq_some] at read
    rcases exists_padding_of_ofLocalText? read.2 with ⟨spaced, space, bounded, padding, rfl⟩
    have filled : ident.Filled := by
      by_contra empty
      exact read.1 ((isEmpty_paddedLocal_iff spaced).2 empty)
    refine ⟨bounded, filled, padding, ?_⟩
    rw [← String.toList_inj, toList_padded spaced, ← space, String.toList_ofList]
    exact append_of_splitAtFirst split

/-- A text is read as an identifier if it is the canonical text of the identifier, but for a padding
in front of the number in it; and as nothing else. Only this padding makes it differ from the
canonical text. -/
theorem accepted_texts (text : String) (ident : Ident) :
    (ofText? text = some ident ↔
      ident.Bounded ∧ ident.Filled ∧ ∃ padding, text = ident.padded padding) ∧
    ∀ padding, ident.padded padding = ident.text ↔ ¬ ident.IsNumbered ∨ padding = .none := by
  refine ⟨?_, fun _ => padded_eq_text_iff⟩
  constructor
  · exact exists_padding_of_ofText?
  · intro written
    rcases written with ⟨bounded, filled, padding, rfl⟩
    exact ofText?_padded bounded filled padding

/-- Two texts of one identifier, of which only the second is canonical. -/
theorem plus_accepted :
    ofText? "_:auto_ent/+1" = some (auto 1) ∧ (auto 1).text = "_:auto_ent/1" ∧
      ¬ ∀ (text : String) (ident : Ident), ofText? text = some ident → ident.text = text := by
  have read : ofText? "_:auto_ent/+1" = some (auto 1) := by decide +kernel
  refine ⟨read, by decide +kernel, ?_⟩
  intro canonical
  exact absurd (canonical _ _ read) (by decide +kernel)

end Ident

end FactGraph
