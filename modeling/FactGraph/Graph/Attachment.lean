import FactGraph.Graph
import FactGraph.Property

namespace FactGraph.Property

def defaultCitationDepth : Nat := 256

mutual

/-- A property with a label or citations is reified; its citations follow, one after the other, and
are about the new statement. -/
def attachAt (most depth : Nat) (span : Span) (subject : Ident) : Property → Attempt Graph Ident
  | ⟨predicate, object, citations, label, _⟩ =>
      if most < depth then Attempt.refuse (.limit (.citation most))
      else if citations.isEmpty && label.isNone then
        Attempt.change (Graph.addStatement subject predicate object span)
      else do
        let statement ← Graph.addReified label subject predicate object span
        attachAll most (depth + 1) statement citations
        return statement

def attachAll (most depth : Nat) (subject : Ident) : List Property → Attempt Graph Unit
  | [] => return ()
  | citation :: rest => do
      let _ ← attachAt most depth citation.span subject citation
      attachAll most depth subject rest

end

def attach (most : Nat) (span : Span) (subject : Ident) (property : Property) :
    Attempt Graph Ident :=
  attachAt most 0 span subject property

def attachPairs (most : Nat) (span : Span) : List (Ident × Property) → Attempt Graph Unit
  | [] => return ()
  | (subject, property) :: rest => do
      let _ ← attach most span subject property
      attachPairs most span rest

/-- Every property for every subject, all properties for one subject before the next. -/
def attachEach (most : Nat) (span : Span) (subjects : List Ident) (properties : List Property) :
    Attempt Graph Unit :=
  attachPairs most span (subjects.flatMap fun subject => properties.map (subject, ·))

end FactGraph.Property
