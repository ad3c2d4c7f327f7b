import FactGraph.Span

namespace FactGraph

namespace Token

inductive Kind where
  /-- A name with the sign of a variable that is given a value. -/
  | target
  /-- A name with the sign of a variable that is used. -/
  | reference
  | identifier
  | assign
  | arrow
  | colon
  | bang
  | leftParen
  | rightParen
  /-- Blanks and semicolons between operands. -/
  | terminator
  | endOfInput
  deriving DecidableEq, Repr, Inhabited

namespace Kind

def all : List Kind :=
  [target, reference, identifier, assign, arrow, colon, bang, leftParen, rightParen, terminator,
    endOfInput]

def name : Kind → String
  | target => "variable"
  | reference => "reference"
  | identifier => "identifier"
  | assign => ":="
  | arrow => "=>"
  | colon => ":"
  | bang => "!"
  | leftParen => "("
  | rightParen => ")"
  | terminator => "terminator"
  | endOfInput => "end of input"

def endsConstruct : Kind → Bool
  | endOfInput => true
  | rightParen => true
  | _ => false

end Kind

end Token

/-- The text is all that was matched, blanks included; the value is the name in it. -/
structure Token where
  kind : Token.Kind
  text : String
  value : Option String
  span : Span
  deriving DecidableEq, Repr, Inhabited

namespace Token

def endOfInput (span : Span) : Token := ⟨.endOfInput, "", none, span⟩

def describe (token : Token) : String :=
  match token.value with
  | some value => token.kind.name ++ ":" ++ value
  | none => token.kind.name

end Token

end FactGraph
