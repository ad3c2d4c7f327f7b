import FactGraph.Span

namespace FactGraph

inductive Limit where
  | nesting (most : Nat)
  | citation (most : Nat)
  deriving DecidableEq, Repr

inductive Fault where
  /-- No token starts here; the excerpt is the beginning of what is there. -/
  | unreadable (offset : Nat) (place : Position) (excerpt : String)
  | unexpected (context : String) (expected : List String) (found : String) (place : Position)
  | pastEnd (place : Position)
  | mismatch (expected : String) (found : String) (place : Position)
  | redefined (name : String) (place : Position)
  | undefined (name : String) (place : Position)
  /-- A label needs a descriptor of exactly one property. -/
  | labelTarget (count : Nat) (place : Position)
  /-- A label is exactly one entity. -/
  | labelSource (count : Nat) (place : Position)
  | statementTaken (ident : String) (place : Position)
  | limit (limit : Limit)
  | badIdent (text : String)
  | file (text : String)
  | snapshot (text : String)
  | internal (text : String)
  deriving DecidableEq, Repr

namespace Limit

def message : Limit → String
  | nesting most => s!"max nesting depth ({most}) exceeded"
  | citation most => s!"max citation depth ({most}) exceeded"

end Limit

namespace Fault

def quoted (name : String) : String := "'" ++ name ++ "'"

def alternatives : List String → String
  | [] => "nothing"
  | [only] => quoted only
  | [first, second] => quoted first ++ " or " ++ quoted second
  | names =>
      String.intercalate ", " (names.dropLast.map quoted) ++ ", or " ++
        quoted (names.getLast?.getD "")

def message : Fault → String
  | unreadable offset place excerpt =>
      s!"lexical error at {place.text} (offset {offset}): unexpected input " ++ quoted excerpt
  | unexpected context expected found place =>
      s!"Invalid {context}: expected {alternatives expected}, but found {found} at {place.text}"
  | pastEnd place => s!"cannot advance, already at the end of input ({place.text})"
  | mismatch expected found place =>
      s!"expected a token of type {quoted expected}, found {found} at {place.text}"
  | redefined name place =>
      s!"variable {quoted name} is already defined, cannot redefine it at {place.text}"
  | undefined name place => s!"undefined variable {quoted name} at {place.text}"
  | labelTarget count place =>
      "a label must name exactly one property, but the descriptor has " ++
        s!"{count} at {place.text}"
  | labelSource count place =>
      s!"a label must be exactly one identifier, but found {count} at {place.text}"
  | statementTaken ident place =>
      s!"statement id {quoted ident} is already in use, " ++
        s!"cannot label another statement with it at {place.text}"
  | limit reached => s!"limit exceeded: {reached.message}"
  | badIdent text => s!"invalid identifier: {text}"
  | file text => s!"I/O error: {text}"
  | snapshot text => s!"serialization error: {text}"
  | internal text => s!"internal error: {text}"

def position? : Fault → Option Position
  | unreadable _ place _ => some place
  | unexpected _ _ _ place => some place
  | pastEnd place => some place
  | mismatch _ _ place => some place
  | redefined _ place => some place
  | undefined _ place => some place
  | labelTarget _ place => some place
  | labelSource _ place => some place
  | statementTaken _ place => some place
  | _ => none

def isLimit : Fault → Bool
  | limit _ => true
  | _ => false

end Fault

structure Place where
  source : Option String
  position : Option Position
  deriving DecidableEq, Repr

namespace Place

/-- A position is worded only together with its source. -/
def text : Place → String
  | ⟨none, _⟩ => ""
  | ⟨some source, none⟩ => source
  | ⟨some source, some position⟩ => s!"{source}:{position.text}"

end Place

structure Report where
  fault : Fault
  place : Option Place
  deriving DecidableEq, Repr

namespace Report

def plain (fault : Fault) : Report := ⟨fault, none⟩

def within (source : String) (fault : Fault) : Report :=
  ⟨fault, some ⟨some source, fault.position?⟩⟩

def text (report : Report) : String :=
  match report.place with
  | some place => s!"{place.text}: {report.fault.message}"
  | none => report.fault.message

end Report

end FactGraph
