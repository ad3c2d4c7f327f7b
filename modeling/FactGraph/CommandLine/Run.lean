import FactGraph.CommandLine.Options
import FactGraph.Files
import FactGraph.Graph
import FactGraph.Ident

/-! Runs of the command line. A run is planned from the files it reads: what it prints, and then how
it ends, by failing, or with at most one file to be written. -/

namespace FactGraph.CommandLine

structure Plan where
  printed : String
  ending : Except String (Option (String × Snapshot))

namespace Plan

def failing (text : String) : Plan := ⟨"", .error text⟩

def printing (text : String) : Plan := ⟨text, .ok none⟩

end Plan

def subjectOf (options : Options) : Except String (Option Ident) :=
  match options.subject with
  | none => .ok none
  | some text =>
      match Ident.ofSubject? text with
      | some ident => .ok (some ident)
      | none => .error (Fault.message (.badIdent text))

def graphOf (source : Source) (limits : Limits) (subject : Option Ident) (path : String) :
    Except String Graph :=
  match Compilation.ofFile source path limits with
  | .error report => .error report.text
  | .ok compilation =>
      match subject with
      | some subject => .ok (compilation.graph.about subject)
      | none => .ok compilation.graph

def block (several places : Bool) (path : String) (graph : Graph) : String :=
  (if several then "# " ++ path ++ "\n" else "") ++ graph.listing places

/-- Goes through the files up to the first that fails; gives what is printed, and the graph of the
last one. -/
def goThrough (graphOf : String → Except String Graph) (print : String → Graph → String)
    (last : Option Graph) : List String → String × Except String (Option Graph)
  | [] => ("", .ok last)
  | path :: paths =>
      match graphOf path with
      | .error text => ("", .error text)
      | .ok graph =>
          let (printed, ending) := goThrough graphOf print (some graph) paths
          (print path graph ++ printed, ending)

def planFiles (source : Source) (options : Options) (subject : Option Ident) : Plan :=
  let limits : Limits := { nesting := options.nesting.getD Precedence.defaultNesting }
  let (printed, ending) :=
    goThrough (graphOf source limits subject)
      (block (1 < options.files.length) options.places) none options.files
  match ending with
  | .error text => ⟨printed, .error text⟩
  | .ok last =>
      match options.output, last with
      | some path, some graph => ⟨printed, .ok (some (path, Snapshot.ofGraph graph))⟩
      | _, _ => ⟨printed, .ok none⟩

/-- Help and version are asked for before anything is read, the subject before the files are. -/
def planOptions (source : Source) (options : Options) : Plan :=
  if options.help then .printing helpText
  else if options.version then .printing versionText
  else if options.files.isEmpty then .failing "no input files (see --help)"
  else
    match subjectOf options with
    | .error text => .failing text
    | .ok subject => planFiles source options subject

def plan (source : Source) (words : List String) : Plan :=
  match Options.ofWords words with
  | .error text => .failing text
  | .ok options => planOptions source options

structure Outcome where
  code : Nat
  out : String
  err : String
  disk : Disk
  deriving DecidableEq, Repr

def errorLine (text : String) : String := "error: " ++ text ++ "\n"

def run (disk : Disk) (words : List String) : Outcome :=
  let plan := plan disk.read words
  match plan.ending with
  | .error text => ⟨1, plan.printed, errorLine text, disk⟩
  | .ok none => ⟨0, plan.printed, "", disk⟩
  | .ok (some (path, snapshot)) =>
      match snapshot.save disk path with
      | .ok disk => ⟨0, plan.printed, "", disk⟩
      | .error fault => ⟨1, plan.printed, errorLine fault.message, disk⟩

end FactGraph.CommandLine
