import FactGraph.Graph
import FactGraph.MessagePack

/-! Graphs set down: the statements and their places, without the counters. As bytes, records are
maps with the names of their fields, and cases are maps from the name of the case to its content. -/

namespace FactGraph

open MessagePack

structure Snapshot where
  triples : List Triple
  places : List (Ident × Span)
  deriving DecidableEq, Repr

namespace Snapshot

def ofGraph (graph : Graph) : Snapshot := ⟨graph.triples, graph.places⟩

def place? (snapshot : Snapshot) (ident : Ident) : Option Span := snapshot.places.lookup ident

end Snapshot

namespace Role

def caseName : Role → String
  | subject => "Subject"
  | predicate => "Predicate"
  | object => "Object"

def caseNames : List String := all.map caseName

def written (role : Role) : Bytes := writeText role.caseName

end Role

namespace Ident

def caseNames : List String :=
  ["User", "Unique", "Auto", "Statement", "ReificationPart", "Reification"]

def partFields : List String := ["group", "role"]

def written : Ident → Bytes
  | user text => writeMap [("User", writeText text)]
  | unique text => writeMap [("Unique", writeText text)]
  | auto number => writeMap [("Auto", writeNumber number)]
  | statement number => writeMap [("Statement", writeNumber number)]
  | part group role =>
      writeMap
          [("ReificationPart", writeMap [("group", writeNumber group), ("role", role.written)])]
  | reification role => writeMap [("Reification", role.written)]

end Ident

namespace Span

def fieldNames : List String := ["start", "end", "line", "column"]

def written (span : Span) : Bytes :=
  writeMap [("start", writeNumber span.start), ("end", writeNumber span.stop),
    ("line", writeNumber span.line), ("column", writeNumber span.column)]

end Span

namespace Triple

def fieldNames : List String := ["id", "subject", "predicate", "object"]

def written (triple : Triple) : Bytes :=
  writeMap [("id", triple.ident.written), ("subject", triple.subject.written),
    ("predicate", triple.predicate.written), ("object", triple.object.written)]

end Triple

namespace Snapshot

def fieldNames : List String := ["triples", "provenance"]

def placeWritten (place : Ident × Span) : Bytes := writeArray [place.1.written, place.2.written]

def written (snapshot : Snapshot) : Bytes :=
  writeMap [("triples", writeArray (snapshot.triples.map Triple.written)),
    ("provenance", writeArray (snapshot.places.map placeWritten))]

end Snapshot

end FactGraph
