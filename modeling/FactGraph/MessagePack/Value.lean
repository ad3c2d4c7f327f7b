import FactGraph.MessagePack

/-! Values read from MessagePack, in any of the forms that the format has for them. -/

namespace FactGraph.MessagePack

/-- Texts, binaries, floats and extensions are kept as the bytes they consist of. -/
inductive Value where
  | nil
  | bool (flag : Bool)
  | unsigned (number : Nat)
  | signed (number : Int)
  | float (bytes : Bytes)
  | text (bytes : Bytes)
  | binary (bytes : Bytes)
  | array (items : List Value)
  | map (entries : List (Value × Value))
  | extension (bytes : Bytes)
  deriving Repr, Inhabited

/-- What a value begins with: the whole of a short value, or the size of what follows. -/
inductive Head where
  | whole (value : Value)
  | unsigned (width : Nat)
  | signed (width : Nat)
  | float (width : Nat)
  | text (length : Nat)
  | binary (length : Nat)
  | array (length : Nat)
  | map (length : Nat)
  | extension (length : Nat)

abbrev Reading (α : Type) := Bytes → Option (α × Bytes)

def takeBytes (count : Nat) : Reading Bytes := fun bytes =>
  let taken := bytes.take count
  if taken.length = count then some (taken, bytes.drop count) else none

def takeNumber (width : Nat) : Reading Nat := fun bytes => do
  let (digits, rest) ← takeBytes width bytes
  return (ofBigEndian digits, rest)

def toSigned (width number : Nat) : Int := (BitVec.ofNat (8 * width) number).toInt

def sized (head : Nat → Head) (width : Nat) : Reading Head := fun bytes => do
  let (length, rest) ← takeNumber width bytes
  return (head length, rest)

/-- The first byte tells the form. One byte, 0xC1, begins no value. -/
def headOf (first : Nat) : Reading Head := fun bytes =>
  if first < 0x80 then some (.whole (.unsigned first), bytes)
  else if first < 0x90 then some (.map (first - 0x80), bytes)
  else if first < 0xA0 then some (.array (first - 0x90), bytes)
  else if first < 0xC0 then some (.text (first - 0xA0), bytes)
  else if 0xE0 ≤ first then some (.whole (.signed (toSigned 1 first)), bytes)
  else
    match first with
    | 0xC0 => some (.whole .nil, bytes)
    | 0xC2 => some (.whole (.bool false), bytes)
    | 0xC3 => some (.whole (.bool true), bytes)
    | 0xC4 => sized .binary 1 bytes
    | 0xC5 => sized .binary 2 bytes
    | 0xC6 => sized .binary 4 bytes
    | 0xC7 => sized .extension 1 bytes
    | 0xC8 => sized .extension 2 bytes
    | 0xC9 => sized .extension 4 bytes
    | 0xCA => some (.float 4, bytes)
    | 0xCB => some (.float 8, bytes)
    | 0xCC => some (.unsigned 1, bytes)
    | 0xCD => some (.unsigned 2, bytes)
    | 0xCE => some (.unsigned 4, bytes)
    | 0xCF => some (.unsigned 8, bytes)
    | 0xD0 => some (.signed 1, bytes)
    | 0xD1 => some (.signed 2, bytes)
    | 0xD2 => some (.signed 4, bytes)
    | 0xD3 => some (.signed 8, bytes)
    | 0xD4 => some (.extension 1, bytes)
    | 0xD5 => some (.extension 2, bytes)
    | 0xD6 => some (.extension 4, bytes)
    | 0xD7 => some (.extension 8, bytes)
    | 0xD8 => some (.extension 16, bytes)
    | 0xD9 => sized .text 1 bytes
    | 0xDA => sized .text 2 bytes
    | 0xDB => sized .text 4 bytes
    | 0xDC => sized .array 2 bytes
    | 0xDD => sized .array 4 bytes
    | 0xDE => sized .map 2 bytes
    | 0xDF => sized .map 4 bytes
    | _ => none

def readHead : Reading Head
  | [] => none
  | first :: rest => headOf first.toNat rest

def readMany {α : Type} (read : Reading α) : (count : Nat) → Reading (List α)
  | 0, bytes => some ([], bytes)
  | count + 1, bytes => do
      let (item, rest) ← read bytes
      let (items, rest) ← readMany read count rest
      return (item :: items, rest)

def readEntry {α : Type} (read : Reading α) : Reading (α × α) := fun bytes => do
  let (key, rest) ← read bytes
  let (item, rest) ← read rest
  return ((key, item), rest)

/-- Reads a value whose parts, if it may have any, are read by the given reading. A value with parts
is an array, a map or an extension; an extension has a byte for its type in front of its content. -/
def readWith (part : Option (Reading Value)) : Reading Value := fun bytes => do
  let (head, rest) ← readHead bytes
  match head with
  | .whole value => return (value, rest)
  | .unsigned width => do
      let (number, rest) ← takeNumber width rest
      return (.unsigned number, rest)
  | .signed width => do
      let (number, rest) ← takeNumber width rest
      return (.signed (toSigned width number), rest)
  | .float width => do
      let (content, rest) ← takeBytes width rest
      return (.float content, rest)
  | .text length => do
      let (content, rest) ← takeBytes length rest
      return (.text content, rest)
  | .binary length => do
      let (content, rest) ← takeBytes length rest
      return (.binary content, rest)
  | .array length => do
      let part ← part
      let (items, rest) ← readMany part length rest
      return (.array items, rest)
  | .map length => do
      let part ← part
      let (entries, rest) ← readMany (readEntry part) length rest
      return (.map entries, rest)
  | .extension length => do
      let _ ← part
      let (content, rest) ← takeBytes (length + 1) rest
      return (.extension content, rest)

/-- Reads one value. At most `room` values with parts are inside one another. -/
def readValue : (room : Nat) → Reading Value
  | 0 => readWith none
  | room + 1 => readWith (some (readValue room))

namespace Value

def fits : (room : Nat) → Value → Bool
  | 0, array _ => false
  | 0, map _ => false
  | 0, extension _ => false
  | room + 1, array items => items.all (fits room)
  | room + 1, map entries => entries.all fun (key, content) => fits room key && fits room content
  | _, _ => true

def nameBytes? : Value → Option Bytes
  | text bytes => some bytes
  | binary bytes => some bytes
  | _ => none

def text? (value : Value) : Option String := do
  let bytes ← value.nameBytes?
  String.fromUTF8? (ByteArray.mk bytes.toArray)

def number? (bound : Nat) : Value → Option Nat
  | unsigned number => if number < bound then some number else none
  | signed number => if 0 ≤ number ∧ number.toNat < bound then some number.toNat else none
  | _ => none

/-- The items of an array; an empty binary is one too. -/
def items? : Value → Option (List Value)
  | array items => some items
  | binary [] => some []
  | _ => none

/-- Which of the names is meant: by the name itself, or by its number in an unsigned form. Other
names and numbers mean none of them. -/
def choice? (names : List String) : Value → Option (Option Nat)
  | unsigned number => some (if number < names.length then some number else none)
  | value => do
      let bytes ← value.nameBytes?
      return (names.map utf8).findIdx? (· == bytes)

def field? (names : List String) (entries : List (Value × Value)) (number : Nat) : Option Value :=
  match entries.filter fun (key, _) => key.choice? names == some (some number) with
  | [(_, content)] => some content
  | _ => none

/-- Whether an entry may stand in a record: under the name of a field, or, if there is room for its
content, under another name or number. -/
def mayStand (names : List String) (room : Nat) : Value × Value → Bool
  | (key, content) =>
      match key.choice? names with
      | some (some _) => true
      | some none => content.fits room
      | none => false

/-- The contents of a record, in the order of its fields: all of them as an array, or a map with
each of them and perhaps with more entries. The record is one of the `room` values with parts that
may be inside one another. -/
def fields? (names : List String) (room : Nat) : Value → Option (List Value)
  | array items => if items.length = names.length then some items else none
  | map entries =>
      if entries.all (mayStand names (room - 1)) then
        (List.range names.length).mapM (field? names entries)
      else none
  | _ => none

def case? (names : List String) : Value → Option (Nat × Value)
  | map [(key, content)] => do
      let number ← (key.choice? names).join
      return (number, content)
  | _ => none

/-- A case without content, alone or as a case whose content is nil. -/
def plainCase? (names : List String) : Value → Option Nat
  | map [(key, nil)] => (key.choice? names).join
  | map _ => none
  | value => (value.choice? names).join

end Value

end FactGraph.MessagePack
