import FactGraph.Proofs.MessagePack.Reading
import Mathlib.Data.List.Forall2
import Mathlib.Data.List.Nodup

namespace FactGraph.MessagePack

variable {α β : Type}

theorem reads_readMany {read : Reading α} {items : List Bytes} {values : List α}
    (each : List.Forall₂ (Reads read) items values) :
    Reads (readMany read items.length) items.flatten values := by
  induction each with
  | nil => exact .pure []
  | cons first _ ih => exact first.bind (ih.map (List.cons _))

theorem reads_readEntry {read : Reading α} {first second : Bytes} {key content : α}
    (named : Reads read first key) (meant : Reads read second content) :
    Reads (readEntry read) (first ++ second) (key, content) :=
  named.bind (meant.map (Prod.mk key))

section

variable (part : Option (Reading Value))

theorem reads_number {number : Nat} (small : number < UInt64.size) :
    Reads (readWith part) (writeNumber number) (.unsigned number) := by
  have wide (code : UInt8) (width : Nat) (meant : headOf code.toNat = fun rest =>
        some (.unsigned width, rest))
      (below : number < 256 ^ width) :
      Reads (readWith part) (code :: bigEndian width number) (.unsigned number) := by
    have head : Reads readHead [code] (.unsigned width) :=
      reads_readHead (by rw [meant]; exact .pure _)
    exact head.bind ((reads_takeNumber below).map Value.unsigned)
  unfold writeNumber
  split
  · next short =>
    have head : Reads readHead [UInt8.ofNat number] (.whole (.unsigned number)) :=
      reads_short (Nat.lt_trans short (by decide)) fun rest => by
        unfold headOf
        rw [if_pos short]
    exact head.bind (.pure (Value.unsigned number))
  split
  · next short => exact wide 0xCC 1 rfl short
  split
  · next short => exact wide 0xCD 2 rfl short
  split
  · next short => exact wide 0xCE 4 rfl short
  · exact wide 0xCF 8 rfl small

theorem reads_text {text : String} (small : (utf8 text).length < UInt32.size) :
    Reads (readWith part) (writeText text) (.text (utf8 text)) :=
  (reads_textHead small).bind ((reads_takeBytes (utf8 text)).map Value.text)

end

theorem reads_array {read : Reading Value} {items : List Bytes} {values : List Value}
    (each : List.Forall₂ (Reads read) items values) (small : items.length < UInt32.size) :
    Reads (readWith (some read)) (writeArray items) (.array values) :=
  (reads_arrayHead small).bind ((reads_readMany each).map Value.array)

def record (names : List String) (contents : List Value) : Value :=
  .map ((names.map fun name => .text (utf8 name)).zip contents)

/-- Different names that are short enough to be written, and few enough. -/
structure Writable (names : List String) : Prop where
  distinct : names.Nodup
  few : names.length < UInt32.size
  short : ∀ name ∈ names, (utf8 name).length < UInt32.size

theorem reads_readValue_text (room : Nat) {text : String}
    (small : (utf8 text).length < UInt32.size) :
    Reads (readValue room) (writeText text) (.text (utf8 text)) := by
  cases room with
  | zero => exact reads_text none small
  | succ room => exact reads_text (some (readValue room)) small

theorem reads_readValue_number (room : Nat) {number : Nat} (small : number < UInt64.size) :
    Reads (readValue room) (writeNumber number) (.unsigned number) := by
  cases room with
  | zero => exact reads_number none small
  | succ room => exact reads_number (some (readValue room)) small

theorem reads_readValue_array {room : Nat} {items : List Bytes} {values : List Value}
    (each : List.Forall₂ (Reads (readValue room)) items values)
    (small : items.length < UInt32.size) :
    Reads (readValue (room + 1)) (writeArray items) (.array values) :=
  reads_array each small

theorem reads_record {names : List String} (writable : Writable names) {room : Nat}
    {items : List Bytes} {contents : List Value}
    (each : List.Forall₂ (Reads (readValue room)) items contents)
    (full : names.length = items.length) :
    Reads (readValue (room + 1)) (writeMap (names.zip items)) (record names contents) := by
  have pairs : List.Forall₂ (Reads (readEntry (readValue room)))
      ((names.zip items).map fun entry => writeText entry.1 ++ entry.2)
      ((names.map fun name => .text (utf8 name)).zip contents) := by
    have short := writable.short
    clear writable
    induction each generalizing names with
    | nil => simp
    | cons first _ ih =>
      rcases names with _ | ⟨name, names⟩
      · contradiction
      · rcases List.forall_mem_cons.1 short with ⟨own, others⟩
        exact .cons (reads_readEntry (reads_readValue_text room own) first)
          (ih (Nat.succ.inj full) others)
  have all := reads_readMany pairs
  have length : (names.zip items).length = names.length := by
    rw [List.length_zip, ← full, Nat.min_self]
  rw [List.length_map, ← List.flatMap_def] at all
  exact (reads_mapHead (length ▸ writable.few)).bind (all.map Value.map)

/-! What the values mean to those who look for names, fields and cases in them. -/

theorem toList_eq (bytes : ByteArray) : bytes.toList = bytes.data.toList := by
  have looped (index : Nat) (front : List UInt8) : ByteArray.toList.loop bytes index front =
      front.reverse ++ bytes.data.toList.drop index := by
    induction index, front using ByteArray.toList.loop.induct bytes with
    | case1 index front inside ih =>
      have there : index < bytes.data.toList.length := inside
      have item : bytes.get! index = bytes.data.toList[index] := by
        simp [ByteArray.get!, getElem!_pos bytes.data index inside]
      rw [ByteArray.toList.loop, if_pos inside, ih, List.drop_eq_getElem_cons there, item,
        List.reverse_cons, List.append_assoc, List.singleton_append]
    | case2 index front outside =>
      have beyond : bytes.data.toList.length ≤ index := Nat.le_of_not_lt outside
      rw [ByteArray.toList.loop, if_neg outside, List.drop_eq_nil_of_le beyond, List.append_nil]
  rw [ByteArray.toList, looped, List.reverse_nil, List.nil_append, List.drop_zero]

theorem fromUTF8?_utf8 (text : String) :
    String.fromUTF8? (ByteArray.mk (utf8 text).toArray) = some text := by
  have same : ByteArray.mk (utf8 text).toArray = text.toByteArray := by
    rw [utf8, toList_eq]
    rfl
  rw [same, String.fromUTF8?, dif_pos text.isValidUTF8]
  rfl

theorem length_utf8 (text : String) : (utf8 text).length = text.utf8ByteSize := by
  rw [utf8, toList_eq]
  rfl

theorem utf8_injective : Function.Injective utf8 := by
  intro first second same
  have found := fromUTF8?_utf8 first
  rw [same, fromUTF8?_utf8] at found
  exact (Option.some.inj found).symm

namespace Value

@[simp] theorem text?_text (text : String) : (Value.text (utf8 text)).text? = some text :=
  fromUTF8?_utf8 text

@[simp] theorem number?_unsigned {bound number : Nat} (below : number < bound) :
    (Value.unsigned number).number? bound = some number := if_pos below

@[simp] theorem items?_array (items : List Value) : (Value.array items).items? = some items := rfl

variable {names : List String}

theorem choice?_name (distinct : names.Nodup) {number : Nat} (inside : number < names.length) :
    (Value.text (utf8 names[number])).choice? names = some (some number) := by
  have found : (names.map utf8).findIdx? (· == utf8 names[number]) = some number := by
    rw [List.findIdx?_eq_some_iff_getElem]
    refine ⟨by simpa using inside, by simp, ?_⟩
    intro earlier before same
    have again : names[earlier] = names[number] := utf8_injective (by simpa using same)
    exact absurd ((distinct.getElem_inj_iff).1 again) (Nat.ne_of_lt before)
  rw [choice?, nameBytes?]
  · exact congrArg some found
  · nofun

theorem case?_record (distinct : names.Nodup) (number : Nat) (inside : number < names.length)
    (content : Value) :
    (record [names[number]] [content]).case? names = some (number, content) := by
  simp [record, case?, choice?_name distinct inside]

theorem plainCase?_name (distinct : names.Nodup) (number : Nat) (inside : number < names.length) :
    (Value.text (utf8 names[number])).plainCase? names = some number := by
  simp [plainCase?, choice?_name distinct inside]

end Value

theorem filter_eq_getElem {items : List α} {keep : α → Bool} {number : Nat}
    (inside : number < items.length)
    (only : ∀ index (below : index < items.length), keep items[index] = decide (index = number)) :
    items.filter keep = [items[number]] := by
  induction items generalizing number with
  | nil => contradiction
  | cons item items ih =>
    have first : keep item = decide (0 = number) := only 0 (Nat.zero_lt_succ _)
    have later (index : Nat) (below : index < items.length) : keep items[index] =
        decide (index + 1 = number) :=
      only (index + 1) (Nat.succ_lt_succ below)
    cases number with
    | zero =>
      have none : items.filter keep = [] := by
        refine List.filter_eq_nil_iff.2 fun other there => ?_
        rcases List.getElem_of_mem there with ⟨index, below, rfl⟩
        simp [later index below]
      simp [first, none]
    | succ number =>
      rw [List.filter_cons, first, if_neg (by simp), ih (Nat.lt_of_succ_lt_succ inside),
        List.getElem_cons_succ]
      intro index below
      simp [later index below]

theorem mapM_eq_some {f : α → Option β} {items : List α} {values : List β}
    (each : List.Forall₂ (fun item value => f item = some value) items values) :
    items.mapM f = some values := by
  induction each with
  | nil => rfl
  | cons first _ ih => simp [List.mapM_cons, first, ih]

theorem fields?_map {names : List String} {entries : List (Value × Value)}
    (full : entries.length = names.length)
    (keyed : ∀ number (inside : number < entries.length), entries[number].1.choice? names =
      some (some number))
    (room : Nat) : (Value.map entries).fields? names room = some (entries.map Prod.snd) := by
  have stand : entries.all (Value.mayStand names (room - 1)) := by
    rw [List.all_eq_true]
    intro entry there
    rcases List.getElem_of_mem there with ⟨number, inside, rfl⟩
    rw [Value.mayStand, keyed number inside]
  rw [Value.fields?, if_pos stand]
  refine mapM_eq_some (List.forall₂_iff_get.2 ⟨by simp [full], fun number _ inside => ?_⟩)
  have there : number < entries.length := by simpa using inside
  have one : entries.filter (fun entry => entry.1.choice? names == some (some number)) =
      [entries[number]] := by
    refine filter_eq_getElem there fun index below => ?_
    rw [keyed index below, Bool.eq_iff_iff]
    simp
  simp [Value.field?, one]

theorem fields?_record {names : List String} (writable : Writable names) {contents : List Value}
    (same : contents.length = names.length) (room : Nat) :
    (record names contents).fields? names room = some contents := by
  have keys : (names.map fun name => Value.text (utf8 name)).length = contents.length := by
    rw [List.length_map, same]
  have full : ((names.map fun name => Value.text (utf8 name)).zip contents).length =
      names.length := by
    rw [List.length_zip, keys, Nat.min_self, same]
  rw [record, fields?_map full, List.map_snd_zip (Nat.le_of_eq keys.symm)]
  intro number inside
  rw [List.getElem_zip, List.getElem_map]
  exact Value.choice?_name writable.distinct (full ▸ inside)

end FactGraph.MessagePack
