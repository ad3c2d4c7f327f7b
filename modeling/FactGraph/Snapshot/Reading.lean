import FactGraph.MessagePack.Value
import FactGraph.Snapshot

/-! Snapshots read back from bytes. Readings are told how many values with parts may be inside one
another where they stand; the map of a case is not counted. -/

namespace FactGraph

open MessagePack

def Role.ofValue? (value : Value) : Option Role := do
  let number ← value.plainCase? Role.caseNames
  Role.all[number]?

namespace Ident

def partOfValue? (room : Nat) (value : Value) : Option Ident :=
  match value.fields? partFields room with
  | some [group, role] => do
      let group ← group.number? Text.counterBound
      let role ← Role.ofValue? role
      return part group role
  | _ => none

def ofValue? (room : Nat) (value : Value) : Option Ident :=
  match value.case? caseNames with
  | some (0, content) => content.text?.map user
  | some (1, content) => content.text?.map unique
  | some (2, content) => (content.number? Text.counterBound).map auto
  | some (3, content) => (content.number? Text.counterBound).map statement
  | some (4, content) => partOfValue? room content
  | some (5, content) => (Role.ofValue? content).map reification
  | _ => none

end Ident

namespace Span

def lineBound : Nat := UInt32.size

/-- The contents of a span: a record, or a binary with a byte for each field, whatever follows
them. -/
def fieldsOfValue? (room : Nat) : Value → Option (List Value)
  | .binary bytes => some ((bytes.take fieldNames.length).map fun byte => .unsigned byte.toNat)
  | value => value.fields? fieldNames room

def ofValue? (room : Nat) (value : Value) : Option Span :=
  match fieldsOfValue? room value with
  | some [start, stop, line, column] => do
      let start ← start.number? Text.counterBound
      let stop ← stop.number? Text.counterBound
      let line ← line.number? lineBound
      let column ← column.number? lineBound
      return ⟨start, stop, line, column⟩
  | _ => none

end Span

def Triple.ofValue? (room : Nat) (value : Value) : Option Triple :=
  match value.fields? Triple.fieldNames room with
  | some [ident, subject, predicate, object] => do
      let ident ← Ident.ofValue? (room - 1) ident
      let subject ← Ident.ofValue? (room - 1) subject
      let predicate ← Ident.ofValue? (room - 1) predicate
      let object ← Ident.ofValue? (room - 1) object
      return ⟨ident, subject, predicate, object⟩
  | _ => none

namespace Snapshot

def placeOfValue? (room : Nat) (value : Value) : Option (Ident × Span) :=
  match value.items? with
  | some [ident, span] => do
      let ident ← Ident.ofValue? (room - 1) ident
      let span ← Span.ofValue? (room - 1) span
      return (ident, span)
  | _ => none

def ofValue? (room : Nat) (value : Value) : Option Snapshot :=
  match value.fields? fieldNames room with
  | some [triples, places] => do
      let triples ← triples.items?
      let triples ← triples.mapM (Triple.ofValue? (room - 2))
      let places ← places.items?
      let places ← places.mapM (placeOfValue? (room - 2))
      return ⟨triples, places⟩
  | _ => none

def deepest : Nat := 1023

/-- There is room for one more value with parts, as the map of a case is not counted. What follows
the snapshot is not looked at. -/
def ofBytes? (bytes : Bytes) : Option Snapshot := do
  let (value, _) ← readValue (deepest + 1) bytes
  ofValue? deepest value

end Snapshot

end FactGraph
