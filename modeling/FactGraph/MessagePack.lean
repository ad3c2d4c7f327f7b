namespace FactGraph.MessagePack

abbrev Bytes := List UInt8

/-- The lowest `count` bytes of a number, the highest of them first. -/
def bigEndian : (count : Nat) → Nat → Bytes
  | 0, _ => []
  | count + 1, number => UInt8.ofNat (number >>> (8 * count)) :: bigEndian count number

def ofBigEndian (bytes : Bytes) : Nat :=
  bytes.foldl (fun number byte => number * 256 + byte.toNat) 0

def writeNumber (number : Nat) : Bytes :=
  if number < 0x80 then [UInt8.ofNat number]
  else if number < UInt8.size then 0xCC :: bigEndian 1 number
  else if number < UInt16.size then 0xCD :: bigEndian 2 number
  else if number < UInt32.size then 0xCE :: bigEndian 4 number
  else 0xCF :: bigEndian 8 number

def textHead (length : Nat) : Bytes :=
  if length < 0x20 then [UInt8.ofNat (0xA0 + length)]
  else if length < UInt8.size then 0xD9 :: bigEndian 1 length
  else if length < UInt16.size then 0xDA :: bigEndian 2 length
  else 0xDB :: bigEndian 4 length

def arrayHead (length : Nat) : Bytes :=
  if length < 0x10 then [UInt8.ofNat (0x90 + length)]
  else if length < UInt16.size then 0xDC :: bigEndian 2 length
  else 0xDD :: bigEndian 4 length

def mapHead (length : Nat) : Bytes :=
  if length < 0x10 then [UInt8.ofNat (0x80 + length)]
  else if length < UInt16.size then 0xDE :: bigEndian 2 length
  else 0xDF :: bigEndian 4 length

def utf8 (text : String) : Bytes := text.toUTF8.toList

def writeText (text : String) : Bytes := textHead (utf8 text).length ++ utf8 text

def writeArray (items : List Bytes) : Bytes := arrayHead items.length ++ items.flatten

def writeMap (entries : List (String × Bytes)) : Bytes :=
  mapHead entries.length ++ entries.flatMap fun (name, item) => writeText name ++ item

end FactGraph.MessagePack
