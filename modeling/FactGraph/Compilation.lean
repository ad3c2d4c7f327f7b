import FactGraph.Grammar

namespace FactGraph

structure Limits where
  nesting : Nat := Precedence.defaultNesting
  citation : Nat := Property.defaultCitationDepth
  deriving DecidableEq, Repr

namespace Limits

def standard : Limits := {}

def Within (limits others : Limits) : Prop :=
  limits.nesting ≤ others.nesting ∧ limits.citation ≤ others.citation

end Limits

structure Compilation where
  meanings : List Meaning
  graph : Graph
  deriving DecidableEq, Repr

namespace Compilation

open Precedence

/-- A whole run over a source, from what was built before. -/
def parseFrom (builder : Builder) (limits : Limits) (source : String) :
    Except Fault (List Meaning) × Builder :=
  let (answer, reader) :=
    Reader.parse (Grammar.symbols limits.citation) limits.nesting (Reader.ofSource source builder)
  (answer, reader.state)

def ofSource (source : String) (limits : Limits) : Except Fault Compilation :=
  match parseFrom Builder.empty limits source with
  | (.ok meanings, builder) => .ok ⟨meanings, builder.graph⟩
  | (.error fault, _) => .error fault

end Compilation

end FactGraph
