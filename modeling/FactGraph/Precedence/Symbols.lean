import FactGraph.Precedence.Action

namespace FactGraph.Precedence

abbrev Opening (σ ν : Type) := Token → Action σ ν (Option ν)

abbrev Following (σ ν : Type) := Token → Option ν → Action σ ν (Option ν)

structure Symbol (σ ν : Type) where
  power : Nat
  opening : Option (Opening σ ν)
  following : Option (Following σ ν)

abbrev Symbols (σ ν : Type) := Token.Kind → Option (Symbol σ ν)

namespace Symbols

variable {σ ν : Type}

def none : Symbols σ ν := fun _ => .none

def defines (symbols : Symbols σ ν) (kind : Token.Kind) : Bool := (symbols kind).isSome

def power (symbols : Symbols σ ν) (kind : Token.Kind) : Nat :=
  match symbols kind with
  | some symbol => symbol.power
  | .none => 0

def opening? (symbols : Symbols σ ν) (kind : Token.Kind) : Option (Opening σ ν) :=
  (symbols kind).bind (·.opening)

def following? (symbols : Symbols σ ν) (kind : Token.Kind) : Option (Following σ ν) :=
  (symbols kind).bind (·.following)

def alter (symbols : Symbols σ ν) (kind : Token.Kind)
    (change : Option (Symbol σ ν) → Option (Symbol σ ν)) : Symbols σ ν :=
  fun other => if other = kind then change (symbols kind) else symbols other

/-- Adds a symbol, or raises the power of the one that is there; a lower power changes nothing. -/
def add (symbols : Symbols σ ν) (kind : Token.Kind) (power : Nat) : Symbols σ ν :=
  symbols.alter kind fun
    | some symbol => some { symbol with power := max symbol.power power }
    | .none => some ⟨power, .none, .none⟩

def addOpening (symbols : Symbols σ ν) (kind : Token.Kind) (power : Nat) (rule : Opening σ ν) :
    Symbols σ ν :=
  (symbols.add kind power).alter kind (·.map ({ · with opening := some rule }))

def addFollowing (symbols : Symbols σ ν) (kind : Token.Kind) (power : Nat)
    (rule : Following σ ν) : Symbols σ ν :=
  (symbols.add kind power).alter kind (·.map ({ · with following := some rule }))

def openingNames (symbols : Symbols σ ν) : List String :=
  (Token.Kind.all.filter fun kind => (symbols.opening? kind).isSome).map (·.name)

def followingNames (symbols : Symbols σ ν) : List String :=
  (Token.Kind.all.filter fun kind => (symbols.following? kind).isSome).map (·.name)

end Symbols

namespace Form

variable {σ ν : Type}

def leaf (meaning : Token → Option ν) : Opening σ ν := fun token => return meaning token

def group (power : Nat) (closing : Token.Kind) : Opening σ ν := fun _ => do
  let inner ← Action.expression power
  Action.pass closing
  return inner

/-- Stands for the expression after it, and for nothing at the end of a construct. -/
def skip (power : Nat) : Opening σ ν := fun _ => do
  if ← Action.ended then return none
  else Action.expression power

def unary (power : Nat) (meaning : Token → Option ν → Option ν) : Opening σ ν := fun token => do
  let right ← Action.expression power
  return meaning token right

def keep : Following σ ν := fun _ left => return left

def trailing (meaning : Option ν → Token → Option ν) : Following σ ν := fun token left =>
  return meaning left token

/-- An operator with an operand on each side. Its own power in front of the right operand groups to
the left, a lower one to the right. -/
def binary (power : Nat) (meaning : Option ν → Token → Option ν → Option ν) : Following σ ν :=
  fun token left => do
    let right ← Action.expression power
    return meaning left token right

end Form

end FactGraph.Precedence
