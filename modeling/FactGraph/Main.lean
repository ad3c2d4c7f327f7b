import FactGraph.CommandLine.Run

namespace FactGraph.CommandLine

def troubleOf : IO.Error → Trouble
  | .inappropriateType _ code _ => if code == 21 then .isDirectory else .notDirectory
  | .illegalOperation _ _ => .isDirectory
  | .permissionDenied _ _ _ => .denied
  | .invalidArgument _ code _ => if code == 36 then .nameTooLong else .missing
  | _ => .missing

def readPath (path : String) : IO (Except Trouble (List UInt8)) := do
  try
    let bytes ← IO.FS.readBinFile path
    return .ok bytes.toList
  catch failure => return .error (troubleOf failure)

def sourceFor (words : List String) : IO Source := do
  let known ← words.mapM fun word => do
    let content ← readPath word
    return (word, content)
  return fun path => (known.lookup path).getD (.error .missing)

def fail (text : String) : IO UInt32 := do
  IO.eprint (errorLine text)
  return 1

def carryOut (plan : Plan) : IO UInt32 := do
  IO.print plan.printed
  match plan.ending with
  | .error text => fail text
  | .ok none => return 0
  | .ok (some (path, snapshot)) =>
      try
        IO.FS.writeBinFile path (ByteArray.mk snapshot.written.toArray)
        return 0
      catch failure => fail ((troubleOf failure).fault "create" path).message

end FactGraph.CommandLine

open FactGraph CommandLine in
def main (words : List String) : IO UInt32 := do
  let options := (Options.ofWords words).toOption.getD {}
  let source ← sourceFor options.files
  carryOut (plan source words)
