import FactGraph.Ident
import FactGraph.Proofs.Token.Matching
import Mathlib.Data.List.TakeDrop

namespace FactGraph

namespace Text

theorem isDigit_of_mem_writeCounter {number : Nat} {c : Char} (inside : c ∈ writeCounter number) :
    c.isDigit = true :=
  Nat.isDigit_of_mem_toDigits (by decide) (by decide) inside

theorem readCounter_writeCounter (number : Nat) :
    readCounter (writeCounter number) = if number < counterBound then some number else none := by
  have nonempty : (writeCounter number).isEmpty = false := by simp [writeCounter]
  have digits : (writeCounter number).all Char.isDigit = true :=
    List.all_eq_true.2 fun _ inside => isDigit_of_mem_writeCounter inside
  have value : Nat.ofDigitChars 10 (writeCounter number) 0 = number := Nat.ofDigitChars_ten_toDigits
  unfold readCounter
  split
  · next rest same =>
    have plus : Char.isDigit '+' = true := isDigit_of_mem_writeCounter (same ▸ List.mem_cons_self)
    contradiction
  · simp [nonempty, digits, value]

theorem writeCounter_injective {first second : Nat}
    (same : writeCounter first = writeCounter second) :
    first = second :=
  calc first
      = Nat.ofDigitChars 10 (writeCounter first) 0 := Nat.ofDigitChars_ten_toDigits.symm
    _ = Nat.ofDigitChars 10 (writeCounter second) 0 := by rw [same]
    _ = second := Nat.ofDigitChars_ten_toDigits

theorem dot_not_mem_writeCounter {number : Nat} : '.' ∉ writeCounter number := by
  intro inside
  have digit : Char.isDigit '.' = true := isDigit_of_mem_writeCounter inside
  contradiction

end Text

def IsWord (text : List Char) : Prop := text ≠ [] ∧ ∀ c ∈ text, Token.isEntityChar c = true

namespace Ident

def Worded : Ident → Prop
  | user text => IsWord text.toList
  | unique text => IsWord text.toList
  | _ => True

def Filled : Ident → Prop
  | user text => text ≠ ""
  | unique text => text ≠ ""
  | _ => True

instance : DecidablePred Filled
  | user text | unique text => inferInstanceAs (Decidable ¬ text = "")
  | auto _ | statement _ | part _ _ | reification _ => inferInstanceAs (Decidable True)

theorem Worded.filled {ident : Ident} (worded : ident.Worded) : ident.Filled := by
  cases ident with
  | user text | unique text =>
    rintro rfl
    exact worded.1 rfl
  | _ => trivial

theorem splitAtFirst_append {separator : Char} {before : List Char} (apart : separator ∉ before)
    (after : List Char) :
    splitAtFirst separator (before ++ separator :: after) = some (before, after) := by
  have other : ∀ c ∈ before, (c != separator) = true := by
    intro c inside
    exact bne_iff_ne.2 fun same => apart (same ▸ inside)
  have stops : Token.Stops (· != separator) (separator :: after) := .cons (by simp)
  rw [splitAtFirst, List.span_eq_takeWhile_dropWhile, stops.takeWhile_append other,
    stops.dropWhile_append other]

def spaces : List String := ["_:user", "_:uniq", "_:auto_ent", "_:auto_expr", "_:auto_reify"]

def Spaced : Ident → Prop
  | reification _ => False
  | _ => True

theorem splitAtFirst_name (role : Role) : splitAtFirst '/' role.name.toList = none := by
  cases role <;> rfl

theorem splitAtFirst_text {ident : Ident} (spaced : ident.Spaced) :
    splitAtFirst '/' ident.text.toList = some (ident.space.toList, ident.localText) := by
  have apart : ∀ space ∈ spaces, '/' ∉ space.toList := by decide
  have known : ident.space ∈ spaces := by
    cases ident <;> first | exact spaced.elim | simp [space, spaces]
  have written : ident.text.toList = ident.space.toList ++ '/' :: ident.localText := by
    cases ident <;> first | exact spaced.elim | exact String.toList_ofList
  rw [written, splitAtFirst_append (apart _ known)]

theorem ofText?_of_not_name {text : String} (other : ∀ role : Role, role.name ≠ text) :
    ofText? text =
      (splitAtFirst '/' text.toList).bind fun parts =>
        if parts.2.isEmpty then none else ofLocalText? (String.ofList parts.1) parts.2 := by
  have noRole : Role.all.find? (·.name == text) = none := by
    rw [List.find?_eq_none]
    intro role _ same
    exact other role (eq_of_beq same)
  rw [ofText?, noRole]
  rfl

theorem ofText?_of_spaced {ident : Ident} (spaced : ident.Spaced) :
    ofText? ident.text = if ident.localText.isEmpty then none
    else ofLocalText? ident.space ident.localText := by
  have other (role : Role) : role.name ≠ ident.text := by
    intro same
    have whole := splitAtFirst_name role
    rw [same, splitAtFirst_text spaced] at whole
    contradiction
  rw [ofText?_of_not_name other, splitAtFirst_text spaced, Option.bind_some, String.ofList_toList]

theorem splitAtFirst_part (group : Nat) (role : Role) :
    splitAtFirst '.' (part group role).localText = some (Text.writeCounter group, [role.letter]) :=
  splitAtFirst_append Text.dot_not_mem_writeCounter [role.letter]

/-- An identifier is read back from its text, or its text is refused. -/
theorem ofText?_text_eq (ident : Ident) :
    ofText? ident.text = if ident.Bounded ∧ ident.Filled then some ident else none := by
  have counter {number : Nat} : (Text.writeCounter number).isEmpty = false := by
    simp [Text.writeCounter]
  have spaced : ident.Spaced → ofText? ident.text =
    if ident.localText.isEmpty then none else ofLocalText? ident.space ident.localText :=
      ofText?_of_spaced
  cases ident with
  | user text | unique text =>
    rw [spaced trivial]
    simp [localText, ofLocalText?, space, Bounded, Filled]
  | auto number | statement number =>
    rw [spaced trivial]
    simp [localText, counter, ofLocalText?, space, Text.readCounter_writeCounter, Bounded, Filled]
  | part group role =>
    have more : (part group role).localText.isEmpty = false := by simp [localText]
    rw [spaced trivial, more]
    simp [space, ofLocalText?, partOfText?, splitAtFirst_part, Role.ofLetters?_letter,
      Text.readCounter_writeCounter, Bounded, Filled]
    split <;> rfl
  | reification role => cases role <;> rfl

theorem ofText?_text {ident : Ident} (worded : ident.Worded) (bounded : ident.Bounded) :
    ofText? ident.text = some ident := by
  rw [ofText?_text_eq, if_pos ⟨bounded, worded.filled⟩]

theorem eq_of_localText {first second : Ident} (spaces : first.space = second.space)
    (locals : first.localText = second.localText) : first = second := by
  cases first with
  | user text =>
    cases second with
    | user other => exact congrArg _ (String.toList_inj.1 locals)
    | _ => simp [space] at spaces
  | unique text =>
    cases second with
    | unique other => exact congrArg _ (String.toList_inj.1 locals)
    | _ => simp [space] at spaces
  | auto number =>
    cases second with
    | auto other => exact congrArg _ (Text.writeCounter_injective locals)
    | _ => simp [space] at spaces
  | statement number =>
    cases second with
    | statement other => exact congrArg _ (Text.writeCounter_injective locals)
    | _ => simp [space] at spaces
  | part group role =>
    cases second with
    | part other also =>
      have parts := congrArg (splitAtFirst '.') locals
      simp only [splitAtFirst_part, Option.some.injEq, Prod.mk.injEq] at parts
      have same : some role = some also := by
        rw [← Role.ofLetters?_letter role, ← Role.ofLetters?_letter also, parts.2]
      rw [Text.writeCounter_injective parts.1, Option.some.inj same]
    | _ => simp [space] at spaces
  | reification role =>
    cases second with
    | reification other => cases role <;> cases other <;> first | rfl | contradiction
    | _ => simp [space] at spaces

theorem Spaced.of_text {first second : Ident} (spaced : first.Spaced)
    (same : first.text = second.text) :
    second.Spaced := by
  cases second with
  | reification role =>
    have split := splitAtFirst_text spaced
    rw [same] at split
    exact absurd ((splitAtFirst_name role).symm.trans split) nofun
  | _ => trivial

theorem exists_of_not_spaced {ident : Ident} (bare : ¬ ident.Spaced) :
    ∃ role, ident = reification role := by
  cases ident with
  | reification role => exact ⟨role, rfl⟩
  | _ => exact absurd trivial bare

theorem text_injective : Function.Injective text := by
  intro first second same
  by_cases spaced : first.Spaced
  · have split := splitAtFirst_text (spaced.of_text same)
    rw [← same, splitAtFirst_text spaced] at split
    simp only [Option.some.injEq, Prod.mk.injEq] at split
    exact eq_of_localText (String.toList_inj.1 split.1) split.2
  · have whole : ¬ second.Spaced := fun also => spaced (also.of_text same.symm)
    rcases exists_of_not_spaced spaced with ⟨role, rfl⟩
    rcases exists_of_not_spaced whole with ⟨other, rfl⟩
    exact eq_of_localText rfl (congrArg String.toList same)

/-- Every identifier whose numbers are counters and whose name, if it has one, is not empty is read
back from its text, and no other. No two identifiers are written alike, also of those that are not
read back. -/
theorem text_faithful :
    (∀ ident : Ident, ofText? ident.text = some ident ↔ ident.Bounded ∧ ident.Filled) ∧
    Function.Injective text := by
  constructor
  · intro ident
    rw [ofText?_text_eq]
    split
    · next readable => exact iff_of_true rfl readable
    · next refused => exact iff_of_false nofun refused
  · exact text_injective

/-- A name may look like another identifier, and may have slashes, dots and blanks in it. -/
example :
    ofText? (user "_:auto_reify/1.s / é").text = some (user "_:auto_reify/1.s / é") := by
  decide +kernel

theorem looksCanonical_text (ident : Ident) : looksCanonical ident.text = true := by
  cases ident with
  | reification role => cases role <;> rfl
  | _ => simp [looksCanonical, text, space]

theorem ofSubject?_text {ident : Ident} (worded : ident.Worded) (bounded : ident.Bounded) :
    ofSubject? ident.text = some ident := by
  rw [ofSubject?, looksCanonical_text, if_pos rfl, ofText?_text worded bounded]

theorem ofSubject?_word {text : String} (word : IsWord text.toList) :
    ofSubject? text = some (user text) := by
  have apart : ':' ∉ text.toList := by
    intro inside
    have entity := word.2 ':' inside
    revert entity
    decide +kernel
  have other (front : List Char) (colon : ':' ∈ front) : front.isPrefixOf text.toList = false := by
    rw [Bool.eq_false_iff]
    intro begins
    exact apart ((List.isPrefixOf_iff_prefix.1 begins).subset colon)
  have plain : looksCanonical text = false := by
    rw [looksCanonical, other _ (by decide), other _ (by decide), Bool.or_self]
  rw [ofSubject?, plain, if_neg (by decide)]

end Ident

end FactGraph
