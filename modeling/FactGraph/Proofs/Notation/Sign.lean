import FactGraph.Proofs.Notation.Tree
import FactGraph.Proofs.Token.Matching
import FactGraph.Token.Cursor
import Mathlib.Data.List.TakeWhile

namespace FactGraph.Notation

open Token Pattern

structure Sign where
  kind : Kind
  text : List Char
  value : Option (List Char)

namespace Sign

def lexeme (sign : Sign) (rest : List Char) : Lexeme := ⟨sign.text, sign.value, rest⟩

def token (sign : Sign) (mark : Mark) : Token := Cursor.tokenAt mark sign.kind (sign.lexeme [])

/-- In front of the rest, the sign is what the lexical rules find. -/
def Spelled (sign : Sign) (rest : List Char) : Prop :=
  first? (sign.text ++ rest) all = some (sign.kind, sign.lexeme rest)

theorem tokens_of_spelled {sign : Sign} {rest : List Char} (spelled : sign.Spelled rest)
    (mark : Mark) :
    Cursor.tokens ⟨sign.text ++ rest, mark⟩ =
      .ok (sign.token mark) :: Cursor.tokens ⟨rest, mark.past sign.text⟩ := by
  have taken : sign.text ≠ [] := (append_of_first? spelled).2
  have more : sign.text ++ rest ≠ [] := List.append_ne_nil_of_left_ne_nil taken rest
  apply Cursor.tokens_of_token more
  rw [Cursor.token_of_rest_ne_nil more]
  unfold Spelled at spelled
  simp only [spelled]
  rfl

variable {rest : List Char}

def identifier (name : EntityName) : Sign := ⟨.identifier, name.text, some name.text⟩

def target (name : VariableName) : Sign := ⟨.target, '@' :: name.text, some name.text⟩

def reference (name : VariableName) : Sign := ⟨.reference, '*' :: name.text, some name.text⟩

def leftParen (opening : Blanks) : Sign := ⟨.leftParen, '(' :: opening.text, none⟩

def rightParen (closing : Blanks) : Sign := ⟨.rightParen, closing.text ++ [')'], none⟩

def operator (kind : Kind) (sign : List Char) (gap : Gap) : Sign := ⟨kind, gap.around sign, none⟩

def pause (pause : Pause) : Sign := ⟨.terminator, pause.text, none⟩

@[simp] theorem kind_identifier (name : EntityName) : (identifier name).kind = .identifier := rfl

@[simp] theorem kind_target (name : VariableName) : (target name).kind = .target := rfl

@[simp] theorem kind_reference (name : VariableName) : (reference name).kind = .reference := rfl

@[simp] theorem kind_leftParen (opening : Blanks) : (leftParen opening).kind = .leftParen := rfl

@[simp] theorem kind_rightParen (closing : Blanks) : (rightParen closing).kind = .rightParen := rfl

@[simp] theorem kind_pause (between : Pause) : (pause between).kind = .terminator := rfl

theorem identifier_spelled (name : EntityName) (stop : Stops isEntityChar rest) :
    (identifier name).Spelled rest := by
  rcases List.exists_cons_of_ne_nil name.nonempty with ⟨c, tail, whole⟩
  have entity : isEntityChar c = true := name.belonging c (by simp [whole])
  have target : ¬ ['@'] <+: name.text ++ rest := by
    simp only [whole, List.cons_append, List.cons_prefix_cons]
    intro starts
    rcases starts with ⟨rfl, -⟩
    revert entity
    decide
  have reference : ¬ ['*'] <+: name.text ++ rest := by
    simp only [whole, List.cons_append, List.cons_prefix_cons]
    intro starts
    rcases starts with ⟨rfl, -⟩
    revert entity
    decide
  simp only [Spelled, identifier, lexeme, all, first?, lexeme?_sign_eq_none target,
    lexeme?_sign_eq_none reference, lexeme?_name name.nonempty name.belonging stop]

theorem target_spelled (name : VariableName) (stop : Stops isNameChar rest) :
    (target name).Spelled rest := by
  simp only [Spelled, target, lexeme, all, first?,
    lexeme?_signed name.nonempty name.belonging stop]

theorem reference_spelled (name : VariableName) (stop : Stops isNameChar rest) :
    (reference name).Spelled rest := by
  have other : ¬ ['@'] <+: '*' :: name.text ++ rest := by simp
  simp only [Spelled, reference, lexeme, all, first?, lexeme?_sign_eq_none other,
    lexeme?_signed name.nonempty name.belonging stop]

theorem not_prefix_of_blanks {sign : Char} {blanks : List Char}
    (all : ∀ c ∈ blanks, Text.isBlank c = true) (visible : Text.isBlank sign = false)
    (other : ¬ [sign] <+: rest) : ¬ [sign] <+: blanks ++ rest := by
  cases blanks with
  | nil => exact other
  | cons c blanks =>
    simp only [List.cons_append, List.cons_prefix_cons]
    intro starts
    rcases starts with ⟨rfl, -⟩
    rw [all sign List.mem_cons_self] at visible
    contradiction

theorem first?_around {c : Char} {sign : List Char} (gap : Gap) (outside : beginsName c = false) :
    first? (gap.around (c :: sign) ++ rest) all =
      first? (gap.before.text ++ (c :: sign ++ (gap.after.text ++ rest))) (all.drop 3) := by
  have whole : gap.around (c :: sign) ++ rest =
      gap.before.text ++ (c :: sign ++ (gap.after.text ++ rest)) := by
    simp only [Gap.around, List.append_assoc]
  rw [whole, first?_of_stops_name]
  exact .append (fun c inside => beginsName_of_isBlank (gap.before.blank c inside)) (.cons outside)

theorem stops_blank {c : Char} (operand : beginsOperand c = true) :
    Stops Text.isBlank (c :: rest) :=
  .cons (isBlank_of_beginsOperand operand)

theorem assign_spelled (gap : Gap) (stop : Stops Text.isBlank rest) :
    (operator .assign [':', '='] gap).Spelled rest := by
  have start : Stops Text.isBlank ([':', '='] ++ (gap.after.text ++ rest)) := .cons (by decide)
  simp only [Spelled, operator, lexeme]
  rw [first?_around gap (by decide)]
  simp only [all, List.drop_succ_cons, List.drop_zero, first?,
    lexeme?_operator (by simp) gap.before.blank start gap.after.blank stop, Gap.around]

theorem arrow_spelled (gap : Gap) (stop : Stops Text.isBlank rest) :
    (operator .arrow ['=', '>'] gap).Spelled rest := by
  have start : Stops Text.isBlank (['=', '>'] ++ (gap.after.text ++ rest)) := .cons (by decide)
  have assign : ¬ [':', '='] <+: ['=', '>'] ++ (gap.after.text ++ rest) := by simp
  simp only [Spelled, operator, lexeme]
  rw [first?_around gap (by decide)]
  simp only [all, List.drop_succ_cons, List.drop_zero, first?,
    lexeme?_blanks_eq_none gap.before.blank start assign,
    lexeme?_operator (by simp) gap.before.blank start gap.after.blank stop, Gap.around]

theorem not_equals_of_operand {c : Char} (operand : beginsOperand c = true) :
    ¬ ['='] <+: c :: rest := by
  have other : c ≠ '=' := ne_of_beginsOperand operand (by decide)
  simpa using other.symm

theorem colon_spelled (gap : Gap) (stop : Stops Text.isBlank rest)
    (apart : gap.after.text = [] → ¬ ['='] <+: rest) :
    (operator .colon [':'] gap).Spelled rest := by
  have start : Stops Text.isBlank ([':'] ++ (gap.after.text ++ rest)) := .cons (by decide)
  have assign : ¬ [':', '='] <+: [':'] ++ (gap.after.text ++ rest) := by
    cases after : gap.after.text with
    | nil => simpa using apart after
    | cons c blanks =>
      have blank : Text.isBlank c = true := gap.after.blank c (by simp [after])
      have other : c ≠ '=' := by
        rintro rfl
        revert blank
        decide
      simpa using other.symm
  have arrow : ¬ ['=', '>'] <+: [':'] ++ (gap.after.text ++ rest) := by simp
  simp only [Spelled, operator, lexeme]
  rw [first?_around gap (by decide)]
  simp only [all, List.drop_succ_cons, List.drop_zero, first?,
    lexeme?_blanks_eq_none gap.before.blank start assign,
    lexeme?_blanks_eq_none gap.before.blank start arrow,
    lexeme?_operator (by simp) gap.before.blank start gap.after.blank stop, Gap.around]

theorem bang_spelled (gap : Gap) (stop : Stops Text.isBlank rest) :
    (operator .bang ['!'] gap).Spelled rest := by
  have start : Stops Text.isBlank (['!'] ++ (gap.after.text ++ rest)) := .cons (by decide)
  have assign : ¬ [':', '='] <+: ['!'] ++ (gap.after.text ++ rest) := by simp
  have arrow : ¬ ['=', '>'] <+: ['!'] ++ (gap.after.text ++ rest) := by simp
  have colon : ¬ [':'] <+: ['!'] ++ (gap.after.text ++ rest) := by simp
  simp only [Spelled, operator, lexeme]
  rw [first?_around gap (by decide)]
  simp only [all, List.drop_succ_cons, List.drop_zero, first?,
    lexeme?_blanks_eq_none gap.before.blank start assign,
    lexeme?_blanks_eq_none gap.before.blank start arrow,
    lexeme?_blanks_eq_none gap.before.blank start colon,
    lexeme?_operator (by simp) gap.before.blank start gap.after.blank stop, Gap.around]

theorem first?_of_no_operator {before core : List Char}
    (blanks : ∀ c ∈ before, Text.isBlank c = true) (names : Stops beginsName (before ++ core))
    (start : Stops Text.isBlank core) (assign : ¬ [':', '='] <+: core)
    (arrow : ¬ ['=', '>'] <+: core) (colon : ¬ [':'] <+: core) (bang : ¬ ['!'] <+: core) :
    first? (before ++ core) all = first? (before ++ core) (all.drop 7) := by
  rw [first?_of_stops_name names]
  simp only [all, List.drop_succ_cons, List.drop_zero, first?,
    lexeme?_blanks_eq_none blanks start assign, lexeme?_blanks_eq_none blanks start arrow,
    lexeme?_blanks_eq_none blanks start colon, lexeme?_blanks_eq_none blanks start bang]

theorem leftParen_spelled (opening : Blanks) (stop : Stops Text.isBlank rest) :
    (leftParen opening).Spelled rest := by
  have whole : '(' :: opening.text ++ rest = [] ++ '(' :: (opening.text ++ rest) := rfl
  simp only [Spelled, leftParen, lexeme]
  rw [whole, first?_of_no_operator (by simp) (.cons (by decide)) (.cons (by decide))
    (by simp) (by simp) (by simp) (by simp)]
  simp only [all, List.drop_succ_cons, List.drop_zero, first?, List.nil_append,
    lexeme?_opening opening.blank stop]

theorem rightParen_spelled (closing : Blanks) : (rightParen closing).Spelled rest := by
  have names : Stops beginsName (closing.text ++ ')' :: rest) :=
    .append (fun c inside => beginsName_of_isBlank (closing.blank c inside)) (.cons (by decide))
  have opening : ¬ ['('] <+: closing.text ++ ')' :: rest :=
    not_prefix_of_blanks closing.blank (by decide) (by simp)
  simp only [Spelled, rightParen, lexeme, List.append_assoc, List.singleton_append]
  rw [first?_of_no_operator closing.blank names (.cons (by decide)) (by simp) (by simp) (by simp)
    (by simp)]
  simp only [all, List.drop_succ_cons, List.drop_zero, first?, lexeme?_sign_eq_none opening,
    lexeme?_closing closing.blank (show Text.isBlank ')' = false by decide)]

def takesBlanks : List (List Char) := [['=', '>'], [':'], ['!'], [')']]

/-- Behind the blanks of a pause stands a semicolon. If there is none, nothing may follow that takes
the blanks for itself. -/
theorem not_prefix_of_pause (between : Pause)
    (free : (∀ c ∈ between.text, Text.isBlank c = true) → ∀ sign ∈ takesBlanks, ¬ sign <+: rest) :
    ∀ sign ∈ takesBlanks, ¬ sign <+: Text.trimStart between.text ++ rest := by
  cases core : Text.trimStart between.text with
  | nil => exact free (List.dropWhile_eq_nil_iff.1 core)
  | cons c tail =>
    have visible : Text.isBlank c = false := by
      have head := List.head?_dropWhile_not Text.isBlank between.text
      rw [← Text.trimStart, core] at head
      simpa using head
    have inside : c ∈ between.text := by
      apply List.dropWhile_subset Text.isBlank
      rw [← Text.trimStart, core]
      exact List.mem_cons_self
    have semicolon : c = ';' := by
      have terminator := between.belonging c inside
      simpa only [isTerminatorChar, visible, Bool.false_or, beq_iff_eq] using terminator
    simp [takesBlanks, semicolon]

theorem stops_blank_of_pause (between : Pause) (stop : Stops isTerminatorChar rest) :
    Stops Text.isBlank (Text.trimStart between.text ++ rest) := by
  cases core : Text.trimStart between.text with
  | nil => exact stop.mono fun c outside => (Bool.or_eq_false_iff.1 outside).1
  | cons c tail =>
    have head := List.head?_dropWhile_not Text.isBlank between.text
    rw [← Text.trimStart, core] at head
    exact .cons (by simpa using head)

theorem pause_spelled_of_stops (between : Pause) (stop : Stops isTerminatorChar rest)
    (free : (∀ c ∈ between.text, Text.isBlank c = true) → ∀ sign ∈ takesBlanks, ¬ sign <+: rest) :
    (pause between).Spelled rest := by
  have core := not_prefix_of_pause between free
  have start := stops_blank_of_pause between stop
  have blanks : ∀ c ∈ Text.leadingBlanks between.text, Text.isBlank c = true :=
    List.all_eq_true.1 List.all_takeWhile
  have whole : Text.leadingBlanks between.text ++ (Text.trimStart between.text ++ rest) =
      between.text ++ rest := by
    rw [← List.append_assoc, Text.leadingBlanks_append_trimStart]
  have outside : ∀ belongs : Char → Bool, (∀ c, isTerminatorChar c = true → belongs c = false) →
      Stops belongs (between.text ++ rest) := by
    intro belongs apart
    rcases List.exists_cons_of_ne_nil between.nonempty with ⟨c, tail, shape⟩
    rw [shape]
    exact .cons (apart c (between.belonging c (by simp [shape])))
  have opening : ¬ ['('] <+: between.text ++ rest := by
    apply not_prefix_of_stops (outside beginsOperand ?_) (by decide)
    intro c terminator
    cases operand : beginsOperand c with
    | false => rfl
    | true => rw [isTerminatorChar_of_beginsOperand operand] at terminator; contradiction
  have closing : lexeme? ⟨.rightParen, [.blanks, .sign [')']]⟩ (between.text ++ rest) = none := by
    rw [← whole]
    exact lexeme?_blanks_eq_none blanks start (core _ (by decide))
  have assign : ¬ [':', '='] <+: Text.trimStart between.text ++ rest := by
    intro starts
    exact core [':'] (by decide) (List.IsPrefix.trans (List.prefix_append [':'] ['=']) starts)
  simp only [Spelled, pause, lexeme]
  rw [← whole, first?_of_no_operator blanks
    (whole ▸ outside beginsName fun _ => beginsName_of_isTerminatorChar) start
    assign (core _ (by decide)) (core _ (by decide)) (core _ (by decide)), whole]
  simp only [all, List.drop_succ_cons, List.drop_zero, first?,
    lexeme?_sign_eq_none opening, closing, lexeme?_run between.nonempty between.belonging stop]

theorem pause_spelled (between : Pause) (next : ∀ c ∈ rest.head?, beginsOperand c = true) :
    (pause between).Spelled rest := by
  apply pause_spelled_of_stops between
  · exact fun c first => isTerminatorChar_of_beginsOperand (next c first)
  · have operand : Stops (fun c => !beginsOperand c) rest := fun c first => by simp [next c first]
    intro _ sign listed
    simp only [takesBlanks, List.mem_cons, List.not_mem_nil, or_false] at listed
    rcases listed with rfl | rfl | rfl | rfl
    all_goals exact not_prefix_of_stops operand (by decide)

end Sign

end FactGraph.Notation
