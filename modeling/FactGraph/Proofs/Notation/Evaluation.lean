import FactGraph.Builder
import FactGraph.Graph.Attachment
import FactGraph.Graph.Naming
import FactGraph.Proofs.Notation.Tree

/-! What trees of the notation mean, said by recursion on them: from left to right, over a graph and
the values of variables. The mark is where the text of the tree begins; it only serves the places of
meanings, statements and faults. -/

namespace FactGraph.Notation

open Token

namespace Evaluation

abbrev Step := Attempt Builder Meaning

def expected (context : String) (kinds : List String) (found : Meaning) : Fault :=
  .unexpected context kinds found.describe found.span.position

def needEntities (context : String) : Meaning → Attempt Builder (List Ident × Span)
  | .entities idents place => return (idents, place)
  | other => Attempt.refuse (expected context ["entities"] other)

def needProperties (context : String) : Meaning → Attempt Builder (List Property)
  | .descriptor properties _ => return properties
  | other => Attempt.refuse (expected context ["descriptor"] other)

def needValue : Meaning → Step
  | .entities idents place => return .entities idents place
  | .descriptor properties place => return .descriptor properties place
  | other => Attempt.refuse (expected "assignment value" ["entities", "descriptor"] other)

def identifier (name : EntityName) (place : Span) : Step := do
  let ident ← Builder.onGraph (Attempt.change (Graph.allocate (some (String.ofList name.text))))
  return .entity ident place

def reference (name : VariableName) (place : Span) : Step := fun builder =>
  (builder.bindings.resolve (String.ofList name.text) place, builder)

def property (left right : Step) : Step := do
  let (predicates, place) ← left >>= needEntities "predicate for property (colon) operator"
  let (objects, _) ← right >>= needEntities "object for property (colon) operator"
  return .descriptor
    (predicates.flatMap fun predicate => objects.map fun object => .plain predicate object place)
    place

def label (sign : Span) (left right : Step) : Step := do
  match ← left with
  | .descriptor [property] place => do
      let (names, _) ← right >>= needEntities "label"
      match names with
      | [name] => return .descriptor [property.labelled name] place
      | _ => Attempt.refuse (.labelSource names.length sign.position)
  | .descriptor properties _ => Attempt.refuse (.labelTarget properties.length sign.position)
  | other => Attempt.refuse (expected "label target" ["descriptor"] other)

/-- Entities are described, which makes statements; the statements of a descriptor are cited. -/
def description (citation : Nat) (sign : Span) (left right : Step) : Step := do
  match ← left with
  | .entities idents place => do
      let properties ←
        right >>= needProperties "target (right hand operand) for description (arrow) operator"
      Builder.onGraph (Property.attachEach citation sign idents properties)
      return .entities idents place
  | .descriptor properties place => do
      let citations ←
        right >>= needProperties "target (right hand operand) for citation (arrow) operator"
      return .descriptor (properties.map (·.citedBy citations)) place
  | other =>
      Attempt.refuse
        (expected "subject (left hand operand) for arrow operator" ["entities", "descriptor"] other)

/-- The name is looked at before the value, and once more when it is bound: the value may bind
it. -/
def assignment (name : VariableName) (place sign : Span) (value : Step) : Step := do
  let builder ← Attempt.state
  if builder.bindings.isDefined (String.ofList name.text) then
    Attempt.refuse (.redefined (String.ofList name.text) place.position)
  else do
    let meaning ← value >>= needValue
    Builder.onBindings (Bindings.define (String.ofList name.text) meaning place)
    return .assignment sign

/-- Entities append entities and descriptors append descriptors. An assignment leaves what is on its
other side, but may not follow a descriptor. -/
def join : Meaning → Meaning → Step
  | .entities idents place, .entities more _ => return .entities (idents ++ more) place
  | .entities idents place, .assignment _ => return .entities idents place
  | .descriptor properties place, .descriptor more _ =>
    return .descriptor (properties ++ more) place
  | .assignment _, right => return right
  | left, right => Attempt.refuse (expected left.kindName [left.kindName] right)

def sequence (earlier last : Step) : Step := do
  let left ← earlier
  let right ← last
  join left right

end Evaluation

@[simp] def Tree.eval (citation : Nat) : {level : Level} → Tree level → Mark → Evaluation.Step
  | _, .identifier name, mark => Evaluation.identifier name (mark.span (Text.width name.text))
  | _, .reference name, mark =>
      Evaluation.reference name (mark.span (Text.width ('*' :: name.text)))
  | _, .group opening inner _, mark => inner.eval citation (mark.past ('(' :: opening.text))
  | _, .ofAtom tree, mark => tree.eval citation mark
  | _, .colon left gap right, mark =>
      Evaluation.property (left.eval citation mark)
        (right.eval citation (mark.past (left.text ++ gap.around [':'])))
  | _, .ofProperty tree, mark => tree.eval citation mark
  | _, .bang left gap right, mark =>
      Evaluation.label (gap.place ['!'] (mark.past left.text)) (left.eval citation mark)
        (right.eval citation (mark.past (left.text ++ gap.around ['!'])))
  | _, .ofLabelled tree, mark => tree.eval citation mark
  | _, .arrow left gap right, mark =>
      Evaluation.description citation (gap.place ['=', '>'] (mark.past left.text))
        (left.eval citation mark)
        (right.eval citation (mark.past (left.text ++ gap.around ['=', '>'])))
  | _, .ofDescription tree, mark => tree.eval citation mark
  | _, .assign name gap value, mark =>
      Evaluation.assignment name (mark.span (Text.width ('@' :: name.text)))
        (gap.place [':', '='] (mark.past ('@' :: name.text)))
        (value.eval citation (mark.past ('@' :: name.text ++ gap.around [':', '='])))
  | _, .single tree, mark => tree.eval citation mark
  | _, .more earlier pause last, mark =>
      Evaluation.sequence (earlier.eval citation mark)
        (last.eval citation (mark.past (earlier.text ++ pause.text)))

def Program.eval (program : Program) (citation : Nat) : Attempt Builder (List Meaning) := do
  let meaning ← program.body.eval citation (Mark.start.past (pauseText program.lead))
  return [meaning]

end FactGraph.Notation
