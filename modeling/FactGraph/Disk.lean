import FactGraph.Text

namespace FactGraph

inductive Trouble where
  | missing
  | notDirectory
  | isDirectory
  | denied
  | nameTooLong
  /-- A path with a zero byte. -/
  | badName
  /-- A file that is to be text and is not. -/
  | notText
  deriving DecidableEq, Repr

namespace Trouble

def text : Trouble → String
  | missing => "No such file or directory (os error 2)"
  | notDirectory => "Not a directory (os error 20)"
  | isDirectory => "Is a directory (os error 21)"
  | denied => "Permission denied (os error 13)"
  | nameTooLong => "File name too long (os error 36)"
  | badName => "file name contained an unexpected NUL byte"
  | notText => "stream did not contain valid UTF-8"

end Trouble

inductive Entry where
  | directory
  | file (bytes : List UInt8)
  deriving DecidableEq, Repr

/-- Entries by the ways to them; later ones are hidden by earlier ones. A way is the list of the
names to go along from the working directory. It begins with `..` for each directory above that one,
or with the root of the system if it leads from there. -/
structure Disk where
  entries : List (List String × Entry)
  deriving DecidableEq, Repr

namespace Disk

def empty : Disk := ⟨[]⟩

def root : List String := ["/"]

def isAbove (way : List String) : Bool := way.all (· == "..")

/-- The working directory, those above it and the root are always there. Nothing else outside of the
working directory is known. -/
def look (disk : Disk) (way : List String) : Option Entry :=
  if isAbove way || way == root then some .directory else disk.entries.lookup way

def put (disk : Disk) (way : List String) (entry : Entry) : Disk := ⟨(way, entry) :: disk.entries⟩

/-- The directory in which a way ends. The root is in itself. -/
def parent (way : List String) : List String :=
  if isAbove way then ".." :: way
  else if way == root then root
  else way.dropLast

def stepAside (way : List String) (name : String) : Option (List String) :=
  if name == "" || name == "." then some way
  else if name == ".." then some (parent way)
  else none

def cut : List Char → List (List Char)
  | [] => [[]]
  | c :: rest =>
      if c == '/' then [] :: cut rest
      else
        match cut rest with
        | [] => [[c]]
        | name :: names => (c :: name) :: names

def names (path : String) : List String := (cut path.toList).map String.ofList

def origin (path : String) : List String :=
  if path.toList.head? == some '/' then root else []

/-- Goes along names and makes the directories that are not there; gives the way to the last one. -/
def makeAlong (disk : Disk) (way : List String) : List String → Disk × List String
  | [] => (disk, way)
  | name :: rest =>
      match stepAside way name with
      | some way => makeAlong disk way rest
      | none =>
          let way := way ++ [name]
          let disk := if (disk.look way).isSome then disk else disk.put way .directory
          makeAlong disk way rest

def makeDirectory (disk : Disk) (path : String) : Disk :=
  (disk.makeAlong (origin path) (names path)).1

def makeFile (disk : Disk) (path : String) (bytes : List UInt8) : Disk :=
  let names := names path
  let (disk, way) := disk.makeAlong (origin path) names.dropLast
  disk.put (way ++ names.getLast?.toList) (.file bytes)

def longestName : Nat := 255

def longestPath : Nat := 4095

/-- What a path may be refused for before it is followed. -/
def checkPath (path : String) : Except Trouble Unit :=
  if path.toList.contains '\x00' then .error .badName
  else if path.isEmpty then .error .missing
  else if longestPath < Text.width path.toList then .error .nameTooLong
  else .ok ()

def child (disk : Disk) (way : List String) (name : String) : Except Trouble Entry :=
  if longestName < Text.width name.toList then .error .nameTooLong
  else
    match disk.look (way ++ [name]) with
    | some entry => .ok entry
    | none => .error .missing

/-- Follows names from a directory. Only the last may lead to a file. -/
def follow (disk : Disk) (way : List String) : List String → Except Trouble Entry
  | [] => .ok .directory
  | name :: rest =>
      match stepAside way name with
      | some way => follow disk way rest
      | none =>
          match disk.child way name with
          | .error trouble => .error trouble
          | .ok .directory => follow disk (way ++ [name]) rest
          | .ok (.file bytes) => if rest.isEmpty then .ok (.file bytes) else .error .notDirectory

/-- Follows names to where a file may be written; gives the way to it. A slash after the last name
asks for a directory. -/
def followToWrite (disk : Disk) (way : List String) : List String → Except Trouble (List String)
  | [] => .error .isDirectory
  | name :: rest =>
      match stepAside way name with
      | some way => followToWrite disk way rest
      | none =>
          if rest.isEmpty then
            match disk.child way name with
            | .ok .directory => .error .isDirectory
            | .ok (.file _) => .ok (way ++ [name])
            | .error .missing => .ok (way ++ [name])
            | .error trouble => .error trouble
          else if rest.all (·.isEmpty) then .error .isDirectory
          else
            match disk.child way name with
            | .ok .directory => followToWrite disk (way ++ [name]) rest
            | .ok (.file _) => .error .notDirectory
            | .error trouble => .error trouble

/-- The entry at a path. Directories can be opened like files. -/
def entry (disk : Disk) (path : String) : Except Trouble Entry := do
  checkPath path
  disk.follow (origin path) (names path)

def content : Entry → Except Trouble (List UInt8)
  | .file bytes => .ok bytes
  | .directory => .error .isDirectory

def read (disk : Disk) (path : String) : Except Trouble (List UInt8) := do
  let entry ← disk.entry path
  content entry

def write (disk : Disk) (path : String) (bytes : List UInt8) : Except Trouble Disk := do
  checkPath path
  let way ← disk.followToWrite (origin path) (names path)
  return disk.put way (.file bytes)

end Disk

end FactGraph
