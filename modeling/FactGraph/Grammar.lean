import FactGraph.Builder
import FactGraph.Graph.Attachment
import FactGraph.Graph.Naming
import FactGraph.Precedence.Reader
import FactGraph.Precedence.Symbols

/-! The notation for graphs. From the loosest to the tightest: terminators join, `:=` gives a
variable its value, `=>` describes entities or cites the statements of a descriptor, `!` labels a
statement, `:` makes properties, and parentheses group. Statements are made as soon as entities meet
a descriptor, so that their numbers follow the order of the source. -/

namespace FactGraph

namespace Grammar

open Precedence

abbrev Step (α : Type) := Action Builder Meaning α

namespace Power

def terminator : Nat := 1
def assignment : Nat := 2
def description : Nat := 50
/-- One less than its own, so that descriptions group to the right. -/
def describing : Nat := 49
def label : Nat := 60
def property : Nat := 70
def group : Nat := 100

end Power

def unexpected (context : String) (expected : List String) (found : Option Meaning) (span : Span) :
    Fault :=
  match found with
  | some meaning => .unexpected context expected meaning.describe meaning.span.position
  | none => .unexpected context expected "nothing" span.position

def needEntities (context : String) (span : Span) : Option Meaning → Step (List Ident × Span)
  | some (.entities idents place) => return (idents, place)
  | other => .refuse (unexpected context ["entities"] other span)

def needProperties (context : String) (span : Span) : Option Meaning → Step (List Property)
  | some (.descriptor properties _) => return properties
  | other => .refuse (unexpected context ["descriptor"] other span)

def needValue (span : Span) : Option Meaning → Step Meaning
  | some (.entities idents place) => return .entities idents place
  | some (.descriptor properties place) => return .descriptor properties place
  | other => .refuse (unexpected "assignment value" ["entities", "descriptor"] other span)

def identifier : Opening Builder Meaning := fun token => do
  let ident ← Action.perform (Builder.onGraph (Attempt.change (Graph.allocate token.value)))
  return some (.entity ident token.span)

def target : Opening Builder Meaning :=
  Form.leaf fun token => some (.target (token.value.getD "") token.span)

def reference : Opening Builder Meaning := fun token => do
  let builder ← Action.state
  match builder.bindings.resolve (token.value.getD "") token.span with
  | .ok meaning => return some meaning
  | .error fault => .refuse fault

/-- Joins what stands before and after a terminator, if both are of one kind. Nothing and
assignments leave the other side as it is, but no assignment may follow a descriptor. -/
def join (span : Span) : Option Meaning → Option Meaning → Step (Option Meaning)
  | some (.entities idents place), some (.entities more _) =>
      return some (.entities (idents ++ more) place)
  | some (.entities idents place), none => return some (.entities idents place)
  | some (.entities idents place), some (.assignment _) => return some (.entities idents place)
  | some (.entities _ _), other => .refuse (unexpected "entities" ["entities"] other span)
  | some (.descriptor properties place), some (.descriptor more _) =>
      return some (.descriptor (properties ++ more) place)
  | some (.descriptor properties place), none => return some (.descriptor properties place)
  | some (.descriptor _ _), other => .refuse (unexpected "descriptor" ["descriptor"] other span)
  | _, right => return right

/-- A terminator at the end of a construct joins nothing. A variable cannot be joined, and this is
seen before what follows is read. -/
def terminator : Following Builder Meaning := fun token left => do
  if ← Action.ended then return left
  else
    match left with
    | some (.target _ _) =>
        .refuse
          (unexpected "expression" ["entities", "descriptor", "assignment"] left token.span)
    | _ => do
        let right ← Action.expression Power.terminator
        join token.span left right

/-- A variable that has a value is refused before its new value is read, so that nothing is stated
by it. -/
def assignment : Following Builder Meaning := fun token left => do
  match left with
  | some (.target name place) => do
      let builder ← Action.state
      if builder.bindings.isDefined name then .refuse (.redefined name place.position)
      else do
        let right ← Action.expression Power.assignment
        let value ← needValue token.span right
        Action.perform (Builder.onBindings (Bindings.define name value place))
        return some (.assignment token.span)
  | other => .refuse (unexpected "assignment target" ["variable"] other token.span)

/-- A property for each predicate and each object, all objects for one predicate before the next. -/
def crossProduct (predicates objects : List Ident) (span : Span) : List Property :=
  predicates.flatMap fun predicate => objects.map fun object => .plain predicate object span

def property : Following Builder Meaning := fun token left => do
  let (predicates, place) ← needEntities "predicate for property (colon) operator" token.span left
  let right ← Action.expression Power.property
  let (objects, _) ← needEntities "object for property (colon) operator" token.span right
  return some (.descriptor (crossProduct predicates objects place) place)

/-- Entities are described by the properties on the right, which makes statements. Properties are
cited by them, which makes none yet. -/
def description (citation : Nat) : Following Builder Meaning := fun token left => do
  match left with
  | some (.entities idents place) => do
      let right ← Action.expression Power.describing
      let properties ← needProperties
        "target (right hand operand) for description (arrow) operator" token.span right
      Action.perform
        (Builder.onGraph (Property.attachEach citation token.span idents properties))
      return some (.entities idents place)
  | some (.descriptor properties place) => do
      let right ← Action.expression Power.describing
      let citations ← needProperties
        "target (right hand operand) for citation (arrow) operator" token.span right
      return some (.descriptor (properties.map (·.citedBy citations)) place)
  | other =>
      .refuse (unexpected "subject (left hand operand) for arrow operator"
        ["entities", "descriptor"] other token.span)

/-- One property takes one entity as its label. The number of properties is looked at before the
label is read. -/
def label : Following Builder Meaning := fun token left => do
  match left with
  | some (.descriptor [property] place) => do
      let right ← Action.expression Power.label
      let (names, _) ← needEntities "label" token.span right
      match names with
      | [name] => return some (.descriptor [property.labelled name] place)
      | _ => .refuse (.labelSource names.length token.span.position)
  | some (.descriptor properties _) =>
      .refuse (.labelTarget properties.length token.span.position)
  | other => .refuse (unexpected "label target" ["descriptor"] other token.span)

def symbols (citation : Nat) : Symbols Builder Meaning := fun
  | .target => some ⟨0, some target, none⟩
  | .reference => some ⟨0, some reference, none⟩
  | .identifier => some ⟨0, some identifier, none⟩
  | .assign => some ⟨Power.assignment, none, some assignment⟩
  | .arrow => some ⟨Power.description, none, some (description citation)⟩
  | .colon => some ⟨Power.property, none, some property⟩
  | .bang => some ⟨Power.label, none, some label⟩
  | .leftParen => some ⟨Power.group, some (Form.group 0 .rightParen), none⟩
  | .rightParen => some ⟨0, none, none⟩
  | .terminator => some ⟨Power.terminator, some (Form.skip 0), some terminator⟩
  | .endOfInput => some ⟨0, none, none⟩

end Grammar

end FactGraph
