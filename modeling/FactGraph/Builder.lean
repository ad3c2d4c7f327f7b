import FactGraph.Graph
import FactGraph.Property

namespace FactGraph

inductive Meaning where
  | entities (idents : List Ident) (span : Span)
  /-- Properties that have not met a subject yet. -/
  | descriptor (properties : List Property) (span : Span)
  /-- What is left of an assignment that has been carried out. -/
  | assignment (span : Span)
  /-- The variable that an assignment is to give a value. -/
  | target (name : String) (span : Span)
  deriving DecidableEq, Repr, Inhabited

namespace Meaning

def entity (ident : Ident) (span : Span) : Meaning := entities [ident] span

def kindName : Meaning → String
  | entities _ _ => "entities"
  | descriptor _ _ => "descriptor"
  | assignment _ => "assignment"
  | target _ _ => "variable"

def describe : Meaning → String
  | target name _ => "variable:" ++ name
  | meaning => meaning.kindName

def span : Meaning → Span
  | entities _ span => span
  | descriptor _ span => span
  | assignment span => span
  | target _ span => span

end Meaning

/-- The latest binding first. -/
abbrev Bindings := List (String × Meaning)

namespace Bindings

def isDefined (bindings : Bindings) (name : String) : Bool := (bindings.lookup name).isSome

def resolve (bindings : Bindings) (name : String) (span : Span) : Except Fault Meaning :=
  match bindings.lookup name with
  | some meaning => .ok meaning
  | none => .error (.undefined name span.position)

def define (name : String) (meaning : Meaning) (span : Span) : Attempt Bindings Unit :=
  fun bindings =>
    if bindings.isDefined name then (.error (.redefined name span.position), bindings)
    else (.ok (), (name, meaning) :: bindings)

end Bindings

structure Builder where
  graph : Graph
  bindings : Bindings
  deriving DecidableEq, Repr

namespace Builder

def empty : Builder := ⟨Graph.empty, []⟩

def onGraph {α : Type} (step : Attempt Graph α) : Attempt Builder α := fun builder =>
  let (answer, graph) := step builder.graph
  (answer, { builder with graph })

def onBindings {α : Type} (step : Attempt Bindings α) : Attempt Builder α := fun builder =>
  let (answer, bindings) := step builder.bindings
  (answer, { builder with bindings })

end Builder

end FactGraph
