import FactGraph.Token.Pattern

namespace FactGraph.Token

def blankCodes : List Nat :=
  List.range' 0x9 5 ++ [0x20, 0x85, 0xA0, 0x1680] ++ List.range' 0x2000 11 ++
    [0x2028, 0x2029, 0x202F, 0x205F, 0x3000]

theorem mem_blankCodes_of_isBlank {c : Char} (blank : Text.isBlank c = true) :
    c.toNat ∈ blankCodes := by
  simp only [Text.isBlank, Bool.or_eq_true, Bool.and_eq_true, decide_eq_true_eq,
    beq_iff_eq] at blank
  simp only [blankCodes, List.mem_append, List.mem_range'_1, List.mem_cons, List.not_mem_nil]
  omega

theorem isEntityChar_of_isBlank {c : Char} (blank : Text.isBlank c = true) :
    isEntityChar c = false := by
  have none : blankCodes.all (fun code => !isEntityChar (Char.ofNat code)) = true := by
    decide +kernel
  have here := List.all_eq_true.1 none c.toNat (mem_blankCodes_of_isBlank blank)
  simpa only [Char.ofNat_toNat, Bool.not_eq_true'] using here

theorem isEntityChar_of_isNameChar {c : Char} (name : isNameChar c = true) :
    isEntityChar c = true := by
  simp [isEntityChar, name]

theorem isNameChar_of_not_isEntityChar {c : Char} (outside : isEntityChar c = false) :
    isNameChar c = false := by
  cases name : isNameChar c with
  | false => rfl
  | true => rw [isEntityChar_of_isNameChar name] at outside; contradiction

theorem isEntityChar_of_isTerminatorChar {c : Char} (terminator : isTerminatorChar c = true) :
    isEntityChar c = false := by
  simp only [isTerminatorChar, Bool.or_eq_true, beq_iff_eq] at terminator
  rcases terminator with blank | rfl
  · exact isEntityChar_of_isBlank blank
  · decide +kernel

theorem isBlank_of_isEntityChar {c : Char} (entity : isEntityChar c = true) :
    Text.isBlank c = false := by
  cases blank : Text.isBlank c with
  | false => rfl
  | true => rw [isEntityChar_of_isBlank blank] at entity; contradiction

theorem isTerminatorChar_of_isEntityChar {c : Char} (entity : isEntityChar c = true) :
    isTerminatorChar c = false := by
  cases terminator : isTerminatorChar c with
  | false => rfl
  | true => rw [isEntityChar_of_isTerminatorChar terminator] at entity; contradiction

def beginsName (c : Char) : Bool := isEntityChar c || c == '@' || c == '*'

def beginsOperand (c : Char) : Bool := beginsName c || c == '('

theorem beginsName_of_isTerminatorChar {c : Char} (terminator : isTerminatorChar c = true) :
    beginsName c = false := by
  have outside := isEntityChar_of_isTerminatorChar terminator
  simp only [beginsName, outside, Bool.false_or, Bool.or_eq_false_iff, beq_eq_false_iff_ne]
  constructor <;> rintro rfl <;> revert terminator <;> decide

theorem isTerminatorChar_of_isBlank {c : Char} (blank : Text.isBlank c = true) :
    isTerminatorChar c = true := by
  simp [isTerminatorChar, blank]

theorem beginsName_of_isBlank {c : Char} (blank : Text.isBlank c = true) : beginsName c = false :=
  beginsName_of_isTerminatorChar (isTerminatorChar_of_isBlank blank)

theorem isTerminatorChar_of_beginsOperand {c : Char} (operand : beginsOperand c = true) :
    isTerminatorChar c = false := by
  simp only [beginsOperand, beginsName, Bool.or_eq_true, beq_iff_eq] at operand
  rcases operand with ((entity | rfl) | rfl) | rfl
  · exact isTerminatorChar_of_isEntityChar entity
  all_goals decide

theorem isBlank_of_beginsOperand {c : Char} (operand : beginsOperand c = true) :
    Text.isBlank c = false := by
  have outside := isTerminatorChar_of_beginsOperand operand
  simp only [isTerminatorChar, Bool.or_eq_false_iff] at outside
  exact outside.1

theorem ne_of_beginsOperand {c sign : Char} (operand : beginsOperand c = true)
    (other : beginsOperand sign = false) : c ≠ sign := by
  intro same
  subst same
  rw [operand] at other
  contradiction

end FactGraph.Token
