import FactGraph.Proofs.Graph.Spelled
import FactGraph.Proofs.MessagePack.Value
import FactGraph.Snapshot.Reading

namespace FactGraph

open MessagePack

namespace Role

def value (role : Role) : Value := .text (utf8 role.caseName)

theorem reads_written (role : Role) (room : Nat) :
    Reads (readValue room) role.written role.value := by
  refine reads_readValue_text room ?_
  rw [length_utf8]
  cases role <;> decide

theorem ofValue?_value (role : Role) : ofValue? role.value = some role := by
  have distinct : caseNames.Nodup := by decide
  cases role with
  | subject =>
    have found : subject.value.plainCase? caseNames = some 0 :=
      Value.plainCase?_name distinct 0 (by decide)
    simp [ofValue?, found, all]
  | predicate =>
    have found : predicate.value.plainCase? caseNames = some 1 :=
      Value.plainCase?_name distinct 1 (by decide)
    simp [ofValue?, found, all]
  | object =>
    have found : object.value.plainCase? caseNames = some 2 :=
      Value.plainCase?_name distinct 2 (by decide)
    simp [ofValue?, found, all]

end Role

namespace Ident

/-- Texts are short enough to be written, and numbers are counters. -/
def Sized : Ident → Prop
  | user text => text.utf8ByteSize < UInt32.size
  | unique text => text.utf8ByteSize < UInt32.size
  | ident => ident.Bounded

instance : DecidablePred Sized
  | user text => inferInstanceAs (Decidable (text.utf8ByteSize < UInt32.size))
  | unique text => inferInstanceAs (Decidable (text.utf8ByteSize < UInt32.size))
  | auto number => inferInstanceAs (Decidable (Bounded (auto number)))
  | statement number => inferInstanceAs (Decidable (Bounded (statement number)))
  | part group role => inferInstanceAs (Decidable (Bounded (part group role)))
  | reification role => inferInstanceAs (Decidable (Bounded (reification role)))

def value : Ident → Value
  | user text => record ["User"] [.text (utf8 text)]
  | unique text => record ["Unique"] [.text (utf8 text)]
  | auto number => record ["Auto"] [.unsigned number]
  | statement number => record ["Statement"] [.unsigned number]
  | part group role => record ["ReificationPart"] [record partFields [.unsigned group, role.value]]
  | reification role => record ["Reification"] [role.value]

theorem writable_partFields : Writable partFields :=
  ⟨by decide, by decide, by simp only [length_utf8]; decide⟩

theorem reads_case {room : Nat} {name : String} (known : name ∈ caseNames) {bytes : Bytes}
    {content : Value} (read : Reads (readValue room) bytes content) :
    Reads (readValue (room + 1)) (writeMap [(name, bytes)]) (record [name] [content]) := by
  have short : ∀ name ∈ caseNames, (utf8 name).length < UInt32.size := by
    simp only [length_utf8]
    decide
  have writable : Writable [name] :=
    ⟨List.nodup_singleton name, by decide +revert, by simpa using short name known⟩
  exact reads_record writable (.cons read .nil) rfl

theorem reads_written {ident : Ident} (sized : ident.Sized) (room : Nat) :
    Reads (readValue (room + 2)) ident.written ident.value := by
  cases ident with
  | user text => exact reads_case (by decide) (reads_readValue_text _ (length_utf8 text ▸ sized))
  | unique text => exact reads_case (by decide) (reads_readValue_text _ (length_utf8 text ▸ sized))
  | auto number => exact reads_case (by decide) (reads_readValue_number _ sized)
  | statement number => exact reads_case (by decide) (reads_readValue_number _ sized)
  | part group role =>
    have parts := reads_record writable_partFields
      (.cons (reads_readValue_number room sized) (.cons (role.reads_written room) .nil)) rfl
    exact reads_case (by decide) parts
  | reification role => exact reads_case (by decide) (role.reads_written _)

theorem ofValue?_value {ident : Ident} (sized : ident.Sized) (room : Nat) :
    ofValue? room ident.value = some ident := by
  have distinct : caseNames.Nodup := by decide
  cases ident with
  | user text =>
    have found : (user text).value.case? caseNames = some (0, _) :=
      Value.case?_record distinct 0 (by decide) _
    simp [ofValue?, found]
  | unique text =>
    have found : (unique text).value.case? caseNames = some (1, _) :=
      Value.case?_record distinct 1 (by decide) _
    simp [ofValue?, found]
  | auto number =>
    have found : (auto number).value.case? caseNames = some (2, _) :=
      Value.case?_record distinct 2 (by decide) _
    simp [ofValue?, found, Value.number?_unsigned sized]
  | statement number =>
    have found : (statement number).value.case? caseNames = some (3, _) :=
      Value.case?_record distinct 3 (by decide) _
    simp [ofValue?, found, Value.number?_unsigned sized]
  | part group role =>
    have found : (part group role).value.case? caseNames = some (4, _) :=
      Value.case?_record distinct 4 (by decide) _
    have parts : (record partFields [.unsigned group, role.value]).fields? partFields
        room = some _ :=
      fields?_record writable_partFields rfl room
    simp [ofValue?, found, partOfValue?, parts, Value.number?_unsigned sized, role.ofValue?_value]
  | reification role =>
    have found : (reification role).value.case? caseNames = some (5, _) :=
      Value.case?_record distinct 5 (by decide) _
    simp [ofValue?, found, role.ofValue?_value]

end Ident

namespace Span

def Sized (span : Span) : Prop :=
  (span.start < Text.counterBound ∧ span.stop < Text.counterBound) ∧
  span.line < lineBound ∧ span.column < lineBound

instance : DecidablePred Sized := fun _ => inferInstanceAs (Decidable (_ ∧ _))

def value (span : Span) : Value :=
  record fieldNames [.unsigned span.start, .unsigned span.stop, .unsigned span.line,
    .unsigned span.column]

theorem writable_fieldNames : Writable fieldNames :=
  ⟨by decide, by decide, by simp only [length_utf8]; decide⟩

theorem reads_written {span : Span} (sized : span.Sized) (room : Nat) :
    Reads (readValue (room + 1)) span.written span.value := by
  rcases sized with ⟨⟨start, stop⟩, line, column⟩
  have below {number : Nat} (small : number < lineBound) : number < UInt64.size :=
    Nat.lt_trans small (by decide)
  exact reads_record writable_fieldNames (.cons (reads_readValue_number room start)
    (.cons (reads_readValue_number room stop) (.cons (reads_readValue_number room (below line))
      (.cons (reads_readValue_number room (below column)) .nil)))) rfl

theorem ofValue?_value {span : Span} (sized : span.Sized) (room : Nat) :
    ofValue? room span.value = some span := by
  have parts : span.value.fields? fieldNames room = some _ :=
    fields?_record writable_fieldNames rfl room
  have fields : fieldsOfValue? room span.value = some _ := parts
  rcases sized with ⟨⟨start, stop⟩, line, column⟩
  simp [ofValue?, fields, Value.number?_unsigned start, Value.number?_unsigned stop,
    Value.number?_unsigned line, Value.number?_unsigned column]

end Span

namespace Triple

def Sized (triple : Triple) : Prop := ∀ ident ∈ triple.idents, ident.Sized

instance : DecidablePred Sized :=
  fun triple => inferInstanceAs (Decidable (∀ ident ∈ triple.idents, ident.Sized))

def value (triple : Triple) : Value := record fieldNames (triple.idents.map Ident.value)

theorem writable_fieldNames : Writable fieldNames :=
  ⟨by decide, by decide, by simp only [length_utf8]; decide⟩

theorem reads_written {triple : Triple} (sized : triple.Sized) (room : Nat) :
    Reads (readValue (room + 3)) triple.written triple.value := by
  have each : List.Forall₂ (Reads (readValue (room + 2))) (triple.idents.map Ident.written)
      (triple.idents.map Ident.value) :=
    List.forall₂_map_left_iff.2 (List.forall₂_map_right_iff.2
      (List.forall₂_same.2 fun ident inside => Ident.reads_written (sized ident inside) room))
  exact reads_record writable_fieldNames each rfl

theorem ofValue?_value {triple : Triple} (sized : triple.Sized) (room : Nat) :
    ofValue? room triple.value = some triple := by
  have parts : triple.value.fields? fieldNames room = some _ :=
    fields?_record writable_fieldNames rfl room
  have each : ∀ ident ∈ triple.idents, Ident.ofValue? (room - 1) ident.value = some ident :=
    fun ident inside => Ident.ofValue?_value (sized ident inside) _
  simp only [idents, List.forall_mem_cons] at each
  rcases each with ⟨ident, subject, predicate, object, _⟩
  simp [ofValue?, parts, idents, ident, subject, predicate, object]

end Triple

namespace Snapshot

/-- Everything in the snapshot is small enough to be written, and its lists are short enough. -/
def Sized (snapshot : Snapshot) : Prop :=
  (snapshot.triples.length < UInt32.size ∧ ∀ triple ∈ snapshot.triples, triple.Sized) ∧
    snapshot.places.length < UInt32.size ∧ ∀ place ∈ snapshot.places, place.1.Sized ∧ place.2.Sized

instance : DecidablePred Sized := fun _ => inferInstanceAs (Decidable (_ ∧ _))

def placeValue (place : Ident × Span) : Value := .array [place.1.value, place.2.value]

def value (snapshot : Snapshot) : Value :=
  record fieldNames [.array (snapshot.triples.map Triple.value),
    .array (snapshot.places.map placeValue)]

theorem writable_fieldNames : Writable fieldNames :=
  ⟨by decide, by decide, by simp only [length_utf8]; decide⟩

theorem reads_place {place : Ident × Span} (named : place.1.Sized) (placed : place.2.Sized)
    (room : Nat) :
    Reads (readValue (room + 3)) (placeWritten place) (placeValue place) :=
  reads_readValue_array (.cons (Ident.reads_written named room)
    (.cons (Span.reads_written placed (room + 1)) .nil))
    (show 2 < UInt32.size by decide)

theorem placeOfValue?_value {place : Ident × Span} (named : place.1.Sized) (placed : place.2.Sized)
    (room : Nat) :
    placeOfValue? room (placeValue place) = some place := by
  simp [placeOfValue?, placeValue, Ident.ofValue?_value named, Span.ofValue?_value placed]

section

variable {α : Type} {items : List α} {written : α → Bytes} {value : α → Value}

theorem reads_list {room : Nat}
    (each : ∀ item ∈ items, Reads (readValue room) (written item) (value item))
    (few : items.length < UInt32.size) :
    Reads (readValue (room + 1)) (writeArray (items.map written)) (.array (items.map value)) := by
  refine reads_readValue_array ?_ (by rwa [List.length_map])
  exact List.forall₂_map_left_iff.2 (List.forall₂_map_right_iff.2 (List.forall₂_same.2 each))

theorem mapM_value {meant : Value → Option α}
    (each : ∀ item ∈ items, meant (value item) = some item) :
    (items.map value).mapM meant = some items :=
  mapM_eq_some (List.forall₂_map_left_iff.2 (List.forall₂_same.2 each))

end

variable {snapshot : Snapshot}

theorem reads_written (sized : snapshot.Sized) (room : Nat) :
    Reads (readValue (room + 5)) snapshot.written snapshot.value := by
  rcases sized with ⟨⟨few, triples⟩, few', places⟩
  have stated :=
    reads_list (fun triple inside => Triple.reads_written (triples triple inside) room) few
  have placed :=
    reads_list (fun place inside =>
      reads_place (places place inside).1 (places place inside).2 room) few'
  exact reads_record writable_fieldNames (.cons stated (.cons placed .nil)) rfl

theorem ofValue?_value (sized : snapshot.Sized) (room : Nat) :
    ofValue? room snapshot.value = some snapshot := by
  rcases sized with ⟨⟨_, triples⟩, _, places⟩
  have parts : snapshot.value.fields? fieldNames room = some _ :=
    fields?_record writable_fieldNames rfl room
  have stated : (snapshot.triples.map Triple.value).mapM (Triple.ofValue? (room - 2)) =
      some snapshot.triples :=
    mapM_value fun triple inside => Triple.ofValue?_value (triples triple inside) _
  have placed : (snapshot.places.map placeValue).mapM (placeOfValue? (room - 2)) =
      some snapshot.places :=
    mapM_value fun place inside =>
    placeOfValue?_value (places place inside).1 (places place inside).2 _
  simp [ofValue?, parts, stated, placed]

end Snapshot

end FactGraph
