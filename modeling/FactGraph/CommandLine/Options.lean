import FactGraph.Text

namespace FactGraph.CommandLine

structure Options where
  files : List String := []
  help : Bool := false
  version : Bool := false
  places : Bool := false
  subject : Option String := none
  output : Option String := none
  nesting : Option Nat := none
  trace : Bool := false
  deriving DecidableEq, Repr

namespace Options

def missingValue (option : String) : String := option ++ " requires a value"

/-- Of an option that is given more than once the last value counts. The word after an option with
a value is that value, whatever it looks like. -/
def read (options : Options) : List String → Except String Options
  | [] => .ok options
  | word :: rest =>
      if word = "-h" ∨ word = "--help" then read { options with help := true } rest
      else if word = "-V" ∨ word = "--version" then read { options with version := true } rest
      else if word = "--provenance" then read { options with places := true } rest
      else if word = "--trace" then read { options with trace := true } rest
      else if word = "--subject" then
        match rest with
        | [] => .error (missingValue word)
        | value :: rest => read { options with subject := some value } rest
      else if word = "--output" then
        match rest with
        | [] => .error (missingValue word)
        | value :: rest => read { options with output := some value } rest
      else if word = "--max-depth" then
        match rest with
        | [] => .error (missingValue word)
        | value :: rest =>
            match Text.readCounter value.toList with
            | some nesting => read { options with nesting := some nesting } rest
            | none => .error ("invalid --max-depth value: " ++ value)
      else if word.toList.head? = some '-' then .error ("unknown option: " ++ word)
      else read { options with files := options.files ++ [word] } rest

def ofWords (words : List String) : Except String Options := read {} words

end Options

def versionText : String := "citegraph 0.1.0\n"

def helpText : String :=
"citegraph - compile relationship notation into reified triples

USAGE:
    citegraph [OPTIONS] <FILE>...

ARGUMENTS:
    <FILE>...          Source files, each compiled into its own graph

OPTIONS:
    -h, --help         Print help information
    -V, --version      Print version information
    --provenance       Append the line:column each statement was written at
    --subject <ID>     Print only triples about ID (bare text is a user id)
    --output <PATH>    Write a MessagePack snapshot of the last graph
    --max-depth <N>    Limit expression nesting (default 128)
    --trace            Log every parser step to stderr

ENVIRONMENT:
    CITEGRAPH_LOG      Log filter, e.g. debug or citegraph_store=debug

EXAMPLES:
    citegraph facts.cg
    citegraph --provenance --subject ent1 facts.cg
    citegraph --output facts.msgpack facts.cg
"

end FactGraph.CommandLine
