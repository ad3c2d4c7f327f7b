import FactGraph.Precedence.Symbols
import FactGraph.Token.Cursor

/-! Reading expressions by the powers of their symbols. An expression begins with a token that has a
rule for this; then, as long as the next token binds tighter than asked for, that token's rule
is given what has been read so far. -/

namespace FactGraph.Precedence

def defaultNesting : Nat := 128

structure Reader (σ : Type) where
  pending : List (Except Fault Token)
  current : Option Token
  state : σ

namespace Reader

variable {σ ν α : Type}

def ofSource (source : String) (state : σ) : Reader σ :=
  ⟨(Token.Cursor.ofSource source).tokens, none, state⟩

def atConstructEnd (reader : Reader σ) : Bool :=
  match reader.current with
  | some token => token.kind.endsConstruct
  | none => false

def atEndOfInput (reader : Reader σ) : Bool :=
  match reader.current with
  | some token => token.kind == .endOfInput
  | none => true

def power (symbols : Symbols σ ν) (reader : Reader σ) : Nat :=
  match reader.current with
  | some token => symbols.power token.kind
  | none => 0

def obstacle? (expected : Option Token.Kind) (reader : Reader σ) : Option Fault :=
  match reader.current with
  | none => none
  | some token =>
      if token.kind = .endOfInput then some (.pastEnd token.span.position)
      else
        match expected with
        | none => none
        | some kind =>
            if token.kind = kind then none
            else some (.mismatch kind.name token.describe token.span.position)

/-- Passes the token at hand, and gives the one after it. A token without a symbol is lost. -/
def advance (symbols : Symbols σ ν) (expected : Option Token.Kind) : Attempt (Reader σ) Token :=
  fun reader =>
    match reader.obstacle? expected with
    | some fault => (.error fault, reader)
    | none =>
        match reader.pending with
        | [] => (.error (.internal "token stream ended without end of input"), reader)
        | .error fault :: rest => (.error fault, { reader with pending := rest })
        | .ok token :: rest =>
            if symbols.defines token.kind then
              (.ok token, { reader with pending := rest, current := some token })
            else
              (.error (.internal ("no symbol defined for token kind " ++ token.kind.name)),
                { reader with pending := rest })

def hold (symbols : Symbols σ ν) : Attempt (Reader σ) Token := fun reader =>
  match reader.current with
  | some token => (.ok token, reader)
  | none => advance symbols none reader

def take (symbols : Symbols σ ν) : Attempt (Reader σ) Token := do
  let token ← hold symbols
  let _ ← advance symbols none
  return token

def run (symbols : Symbols σ ν) (operand : Nat → Attempt (Reader σ) (Option ν)) :
    Action σ ν α → Attempt (Reader σ) α
  | .give value => return value
  | .refuse fault => Attempt.refuse fault
  | .operand power next => do
      let value ← operand power
      run symbols operand (next value)
  | .close kind next => do
      let _ ← advance symbols (some kind)
      run symbols operand next
  | .atEnd next => do
      let reader ← Attempt.state
      run symbols operand (next reader.atConstructEnd)
  | .read next => do
      let reader ← Attempt.state
      run symbols operand (next reader.state)
  | .write state next => do
      Attempt.change fun reader => ((), { reader with state })
      run symbols operand next

def openingOf (symbols : Symbols σ ν) (token : Token) : Attempt (Reader σ) (Opening σ ν) :=
  match symbols.opening? token.kind with
  | some rule => return rule
  | none =>
      Attempt.refuse
        (.unexpected "expression" symbols.openingNames token.describe token.span.position)

def followingOf (symbols : Symbols σ ν) (token : Token) : Attempt (Reader σ) (Following σ ν) :=
  match symbols.following? token.kind with
  | some rule => return rule
  | none =>
      Attempt.refuse
        (.unexpected "operator" symbols.followingNames token.describe token.span.position)

/-- Applies the tokens that bind tighter than `power`, one after the other. Each takes at least one
of the pending tokens; where the bound on their number is reached, nothing is left to take. -/
def followWithin (symbols : Symbols σ ν) (operand : Nat → Attempt (Reader σ) (Option ν))
    (power : Nat) : (bound : Nat) → Option ν → Attempt (Reader σ) (Option ν)
  | 0, left => do
      let reader ← Attempt.state
      if power < reader.power symbols then do
        let _ ← take symbols
        return left
      else return left
  | bound + 1, left => do
      let reader ← Attempt.state
      if power < reader.power symbols then do
        let token ← take symbols
        let rule ← followingOf symbols token
        let value ← run symbols operand (rule token left)
        followWithin symbols operand power bound value
      else return left

def follow (symbols : Symbols σ ν) (operand : Nat → Attempt (Reader σ) (Option ν)) (power : Nat)
    (left : Option ν) : Attempt (Reader σ) (Option ν) := fun reader =>
  followWithin symbols operand power reader.pending.length left reader

/-- Reads an expression whose operators bind tighter than `power`. Expressions within it have one
less of the room; without any the limit is reached. -/
def expressionWithin (symbols : Symbols σ ν) (nesting : Nat) :
    (room : Nat) → (power : Nat) → Attempt (Reader σ) (Option ν)
  | 0, _ => Attempt.refuse (.limit (.nesting nesting))
  | room + 1, power => do
      let token ← take symbols
      let rule ← openingOf symbols token
      let left ← run symbols (expressionWithin symbols nesting room) (rule token)
      follow symbols (expressionWithin symbols nesting room) power left

def expression (symbols : Symbols σ ν) (nesting power : Nat) : Attempt (Reader σ) (Option ν) :=
  expressionWithin symbols nesting nesting power

/-- Reads expressions up to the end of the input. Each takes at least one of the pending tokens. -/
def sequenceWithin (symbols : Symbols σ ν) (nesting : Nat) :
    (bound : Nat) → Attempt (Reader σ) (List ν)
  | 0 => do
      let reader ← Attempt.state
      if reader.atEndOfInput then return []
      else do
        let value ← expression symbols nesting 0
        return value.toList
  | bound + 1 => do
      let reader ← Attempt.state
      if reader.atEndOfInput then return []
      else do
        let value ← expression symbols nesting 0
        let values ← sequenceWithin symbols nesting bound
        return value.toList ++ values

def sequence (symbols : Symbols σ ν) (nesting : Nat) : Attempt (Reader σ) (List ν) := fun reader =>
  sequenceWithin symbols nesting reader.pending.length reader

def parse (symbols : Symbols σ ν) (nesting : Nat) : Attempt (Reader σ) (List ν) := do
  let _ ← advance symbols none
  sequence symbols nesting

end Reader

end FactGraph.Precedence
