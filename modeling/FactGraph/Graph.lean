import FactGraph.Attempt
import FactGraph.Ident.Order

namespace FactGraph

structure Triple where
  ident : Ident
  subject : Ident
  predicate : Ident
  object : Ident
  deriving DecidableEq, Repr, Inhabited

namespace Triple

def text (triple : Triple) : String :=
  triple.ident.text ++ " " ++ triple.subject.text ++ " " ++ triple.predicate.text ++ " " ++
    triple.object.text

def component (triple : Triple) : Role → Ident
  | .subject => triple.subject
  | .predicate => triple.predicate
  | .object => triple.object

end Triple

def insertOrdered {α : Type} (order : α → α → Ordering) (item : α) : List α → List α
  | [] => [item]
  | first :: rest =>
      match order item first with
      | .lt => item :: first :: rest
      | .eq => item :: rest
      | .gt => first :: insertOrdered order item rest

abbrev Provenance := List (Ident × Span)

namespace Provenance

def record (places : Provenance) (ident : Ident) (span : Span) : Provenance :=
  insertOrdered (fun first second => compare first.1 second.1) (ident, span) places

def find? (places : Provenance) (ident : Ident) : Option Span := places.lookup ident

end Provenance

/-- The statements stand in the order in which they were made; the texts that have been given out
are kept in ascending order. -/
structure Graph where
  triples : List Triple
  places : Provenance
  nextEntity : Nat
  nextStatement : Nat
  nextGroup : Nat
  minted : List String
  deriving DecidableEq, Repr

namespace Graph

def empty : Graph := ⟨[], [], 0, 0, 0, []⟩

def size (graph : Graph) : Nat := graph.triples.length

def isEmpty (graph : Graph) : Bool := graph.triples.isEmpty

def hasStatement (graph : Graph) (ident : Ident) : Bool := (graph.places.find? ident).isSome

def place? (graph : Graph) (ident : Ident) : Option Span := graph.places.find? ident

def find? (graph : Graph) (ident : Ident) : Option Triple :=
  graph.triples.find? (·.ident == ident)

def subjects (graph : Graph) : List Ident := (graph.triples.map (·.subject)).eraseDups

/-- The statements about one subject. Places, counters and given names stay, so that what is drawn
from the result is new to the whole graph. -/
def about (graph : Graph) (subject : Ident) : Graph :=
  { graph with triples := graph.triples.filter (·.subject == subject) }

def push (graph : Graph) (triple : Triple) (span : Span) : Graph :=
  { graph with
    triples := graph.triples ++ [triple]
    places := graph.places.record triple.ident span }

def addStatement (subject predicate object : Ident) (span : Span) (graph : Graph) : Ident × Graph :=
  let ident := Ident.statement graph.nextStatement
  let counted := { graph with nextStatement := graph.nextStatement + 1 }
  (ident, counted.push ⟨ident, subject, predicate, object⟩ span)

def partOf (triple : Triple) (group : Nat) (role : Role) : Triple :=
  ⟨.part group role, triple.ident, .reification role, triple.component role⟩

def addParts (triple : Triple) (span : Span) (graph : Graph) : Graph :=
  let group := graph.nextGroup
  Role.all.foldl (fun graph role => graph.push (partOf triple group role) span)
    { graph with nextGroup := group + 1 }

/-- A statement and its three parts. A label must not be the name of a statement that is there. -/
def addReified (label : Option Ident) (subject predicate object : Ident) (span : Span) :
    Attempt Graph Ident := fun graph =>
  match label with
  | some ident =>
      if graph.hasStatement ident then (.error (.statementTaken ident.text span.position), graph)
      else
        let triple : Triple := ⟨ident, subject, predicate, object⟩
        (.ok ident, (graph.push triple span).addParts triple span)
  | none =>
      let (ident, graph) := graph.addStatement subject predicate object span
      (.ok ident, graph.addParts ⟨ident, subject, predicate, object⟩ span)

def line (graph : Graph) (withPlaces : Bool) (triple : Triple) : String :=
  match withPlaces, graph.place? triple.ident with
  | true, some span => triple.text ++ " " ++ span.text
  | _, _ => triple.text

def lines (graph : Graph) (withPlaces : Bool) : List String :=
  graph.triples.map (graph.line withPlaces)

def listing (graph : Graph) (withPlaces : Bool) : String :=
  String.join ((graph.lines withPlaces).map (· ++ "\n"))

end Graph

end FactGraph
