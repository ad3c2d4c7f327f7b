import FactGraph.Text

namespace FactGraph

inductive Role where
  | subject
  | predicate
  | object
  deriving DecidableEq, Repr, Inhabited

namespace Role

def all : List Role := [subject, predicate, object]

def name : Role → String
  | subject => "rdf:subject"
  | predicate => "rdf:predicate"
  | object => "rdf:object"

def letter : Role → Char
  | subject => 's'
  | predicate => 'p'
  | object => 'o'

def ofLetters? : List Char → Option Role
  | ['s'] => some subject
  | ['p'] => some predicate
  | ['o'] => some object
  | _ => none

theorem mem_all (role : Role) : role ∈ all := by cases role <;> simp [all]

theorem ofLetters?_letter (role : Role) : ofLetters? [role.letter] = some role := by
  cases role <;> rfl

end Role

inductive Ident where
  /-- An entity named by the author. -/
  | user (text : String)
  /-- An entity whose anonymous markers have been numbered. -/
  | unique (text : String)
  /-- An entity without a name. -/
  | auto (number : Nat)
  /-- A statement without a label. -/
  | statement (number : Nat)
  /-- One of the three statements that reify another. -/
  | part (group : Nat) (role : Role)
  /-- A predicate of reification. -/
  | reification (role : Role)
  deriving DecidableEq, Repr, Inhabited

namespace Ident

def space : Ident → String
  | user _ => "_:user"
  | unique _ => "_:uniq"
  | auto _ => "_:auto_ent"
  | statement _ => "_:auto_expr"
  | part _ _ => "_:auto_reify"
  | reification _ => "rdf"

def isStatement : Ident → Bool
  | statement _ => true
  | part _ _ => true
  | _ => false

def localText : Ident → List Char
  | user text => text.toList
  | unique text => text.toList
  | auto number => Text.writeCounter number
  | statement number => Text.writeCounter number
  | part group role => Text.writeCounter group ++ ['.', role.letter]
  | reification role => role.name.toList

def text : Ident → String
  | reification role => role.name
  | ident => String.ofList (ident.space.toList ++ '/' :: ident.localText)

/-- Every number in the identifier is a counter. -/
def Bounded : Ident → Prop
  | auto number => number < Text.counterBound
  | statement number => number < Text.counterBound
  | part group _ => group < Text.counterBound
  | _ => True

instance : DecidablePred Bounded := fun ident => by
  cases ident <;> unfold Bounded <;> infer_instance

def splitAtFirst (separator : Char) (text : List Char) : Option (List Char × List Char) :=
  match text.span (· != separator) with
  | (before, _ :: after) => some (before, after)
  | (_, []) => none

def partOfText? (text : List Char) : Option Ident := do
  let (number, letters) ← splitAtFirst '.' text
  let role ← Role.ofLetters? letters
  let group ← Text.readCounter number
  return part group role

def ofLocalText? (space : String) (text : List Char) : Option Ident :=
  match space with
  | "_:user" => some (user (String.ofList text))
  | "_:uniq" => some (unique (String.ofList text))
  | "_:auto_ent" => (Text.readCounter text).map auto
  | "_:auto_expr" => (Text.readCounter text).map statement
  | "_:auto_reify" => partOfText? text
  | _ => none

/-- The predicates of reification are whole words; all other texts have a name space, a slash
and more. -/
def ofText? (text : String) : Option Ident :=
  match Role.all.find? (·.name == text) with
  | some role => some (reification role)
  | none => do
      let (space, rest) ← splitAtFirst '/' text.toList
      if rest.isEmpty then none else ofLocalText? (String.ofList space) rest

def looksCanonical (text : String) : Bool :=
  ['_', ':'].isPrefixOf text.toList || ['r', 'd', 'f', ':'].isPrefixOf text.toList

/-- A subject asked for: canonical text is read, any other text names an entity of the author. -/
def ofSubject? (text : String) : Option Ident :=
  if looksCanonical text then ofText? text else some (user text)

end Ident

end FactGraph
