import FactGraph.Token.Cursor

/-! Trees of the notation. A tree keeps the layout in which it is written: each way to write an
expression is a tree of its own, and the text is a function of the tree. -/

namespace FactGraph.Notation

open Token

structure Run (belongs : Char → Bool) where
  text : List Char
  nonempty : text ≠ []
  belonging : ∀ c ∈ text, belongs c = true

abbrev EntityName := Run isEntityChar

abbrev VariableName := Run isNameChar

/-- What stands between two statements: blanks and semicolons. -/
abbrev Pause := Run isTerminatorChar

structure Blanks where
  text : List Char
  blank : ∀ c ∈ text, Text.isBlank c = true

def Blanks.none : Blanks := ⟨[], nofun⟩

structure Gap where
  before : Blanks
  after : Blanks

namespace Gap

def around (gap : Gap) (sign : List Char) : List Char :=
  gap.before.text ++ (sign ++ gap.after.text)

def place (gap : Gap) (sign : List Char) (mark : Mark) : Span :=
  (mark.past gap.before.text).span (Text.width sign)

end Gap

inductive Level where
  | atom
  | property
  | labelled
  | description
  | statement
  | sequence

/-- Properties and labels group to the left, descriptions to the right. A sequence is not empty, and
ends with its last statement. -/
inductive Tree : Level → Type where
  | identifier (name : EntityName) : Tree .atom
  | reference (name : VariableName) : Tree .atom
  | group (opening : Blanks) (inner : Tree .sequence) (closing : Blanks) : Tree .atom
  | ofAtom (tree : Tree .atom) : Tree .property
  | colon (left : Tree .property) (gap : Gap) (right : Tree .atom) : Tree .property
  | ofProperty (tree : Tree .property) : Tree .labelled
  | bang (left : Tree .labelled) (gap : Gap) (right : Tree .property) : Tree .labelled
  | ofLabelled (tree : Tree .labelled) : Tree .description
  | arrow (left : Tree .labelled) (gap : Gap) (right : Tree .description) : Tree .description
  | ofDescription (tree : Tree .description) : Tree .statement
  | assign (name : VariableName) (gap : Gap) (value : Tree .description) : Tree .statement
  | single (tree : Tree .statement) : Tree .sequence
  | more (earlier : Tree .sequence) (pause : Pause) (last : Tree .statement) : Tree .sequence

namespace Tree

@[simp] def text : {level : Level} → Tree level → List Char
  | _, identifier name => name.text
  | _, reference name => '*' :: name.text
  | _, group opening inner closing => '(' :: opening.text ++ (inner.text ++ (closing.text ++ [')']))
  | _, ofAtom tree => tree.text
  | _, colon left gap right => left.text ++ (gap.around [':'] ++ right.text)
  | _, ofProperty tree => tree.text
  | _, bang left gap right => left.text ++ (gap.around ['!'] ++ right.text)
  | _, ofLabelled tree => tree.text
  | _, arrow left gap right => left.text ++ (gap.around ['=', '>'] ++ right.text)
  | _, ofDescription tree => tree.text
  | _, assign name gap value => '@' :: name.text ++ (gap.around [':', '='] ++ value.text)
  | _, single tree => tree.text
  | _, more earlier pause last => earlier.text ++ (pause.text ++ last.text)

/-- How deeply the operands and groups of a tree nest. The left operand of an operator is on the
level of the operator itself. -/
def depth : {level : Level} → Tree level → Nat
  | _, identifier _ => 1
  | _, reference _ => 1
  | _, group _ inner _ => inner.depth + 1
  | _, ofAtom tree => tree.depth
  | _, colon left _ right => max left.depth (right.depth + 1)
  | _, ofProperty tree => tree.depth
  | _, bang left _ right => max left.depth (right.depth + 1)
  | _, ofLabelled tree => tree.depth
  | _, arrow left _ right => max left.depth (right.depth + 1)
  | _, ofDescription tree => tree.depth
  | _, assign _ _ value => value.depth + 1
  | _, single tree => tree.depth
  | _, more earlier _ last => max earlier.depth (last.depth + 1)

end Tree

/-- A source: a sequence of statements, with blanks and semicolons before and after it. -/
structure Program where
  lead : Option Pause
  body : Tree .sequence
  trail : Option Pause

namespace Program

def pauseText : Option Pause → List Char
  | some pause => pause.text
  | none => []

def text (program : Program) : List Char :=
  pauseText program.lead ++ (program.body.text ++ pauseText program.trail)

def source (program : Program) : String := String.ofList program.text

def depth (program : Program) : Nat :=
  program.body.depth + if program.lead.isSome then 1 else 0

end Program

end FactGraph.Notation
