import FactGraph.Compilation
import FactGraph.Disk
import FactGraph.Snapshot.Reading

namespace FactGraph

def Trouble.fault (trouble : Trouble) (action path : String) : Fault :=
  .file ("failed to " ++ action ++ " file '" ++ path ++ "': " ++ trouble.text)

abbrev Source := String → Except Trouble (List UInt8)

def Source.text (source : Source) (path : String) : Except Trouble String := do
  let bytes ← source path
  match String.fromUTF8? (ByteArray.mk bytes.toArray) with
  | some text => return text
  | none => .error .notText

/-- Compiles a file. Faults in its text are reported as in this file. -/
def Compilation.ofFile (source : Source) (path : String) (limits : Limits) :
    Except Report Compilation :=
  match source.text path with
  | .error trouble => .error (.plain (trouble.fault "read" path))
  | .ok text =>
      match Compilation.ofSource text limits with
      | .ok compilation => .ok compilation
      | .error fault => .error (.within path fault)

namespace Snapshot

def save (snapshot : Snapshot) (disk : Disk) (path : String) : Except Fault Disk :=
  match disk.write path snapshot.written with
  | .ok disk => .ok disk
  | .error trouble => .error (trouble.fault "create" path)

/-- The fault stands for any reason that the format may give for not reading the bytes: which one it
is depends on where the reading stops, and its wording belongs to the format, not to the
snapshot. -/
def ofBytes (bytes : List UInt8) : Except Fault Snapshot :=
  match ofBytes? bytes with
  | some snapshot => .ok snapshot
  | none => .error (.snapshot "not a snapshot")

def load (disk : Disk) (path : String) : Except Fault Snapshot :=
  match disk.entry path with
  | .error trouble => .error (trouble.fault "open" path)
  | .ok entry =>
      match Disk.content entry with
      | .error trouble => .error (trouble.fault "read" path)
      | .ok bytes => ofBytes bytes

end Snapshot

end FactGraph
