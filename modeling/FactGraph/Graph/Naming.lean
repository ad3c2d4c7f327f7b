import FactGraph.Graph

/-! Names for entities. An anonymous marker in a name stands for a number that is drawn for it. -/

namespace FactGraph

def anonymousMarker : Char := '&'

def hasMarker (text : List Char) : Bool := text.contains anonymousMarker

/-- Replaces the markers, from left to right, by the numbers from `next` on; also gives the number
after the last one used. -/
def numberMarkers : List Char → Nat → List Char × Nat
  | [], next => ([], next)
  | c :: rest, next =>
      if c = anonymousMarker then
        let (numbered, after) := numberMarkers rest (next + 1)
        (Text.writeCounter next ++ numbered, after)
      else
        let (numbered, after) := numberMarkers rest next
        (c :: numbered, after)

/-- Numbers the markers anew while the outcome is among the texts given before. At most `tries`
outcomes can be among them, so the one after these is taken as it is. -/
def mint (given : List String) (text : List Char) : (tries : Nat) → (next : Nat) → String × Nat
  | 0, next =>
      let (numbered, after) := numberMarkers text next
      (String.ofList numbered, after)
  | tries + 1, next =>
      let (numbered, after) := numberMarkers text next
      if String.ofList numbered ∈ given then mint given text tries after
      else (String.ofList numbered, after)

namespace Graph

/-- A name without a marker is the same entity each time; all others are new. -/
def allocate (name : Option String) (graph : Graph) : Ident × Graph :=
  match name with
  | none => (.auto graph.nextEntity, { graph with nextEntity := graph.nextEntity + 1 })
  | some text =>
      if hasMarker text.toList then
        let (numbered, after) := mint graph.minted text.toList graph.minted.length graph.nextEntity
        (.unique numbered,
          { graph with
            nextEntity := after
            minted := insertOrdered compare numbered graph.minted })
      else (.user text, graph)

end Graph

end FactGraph
