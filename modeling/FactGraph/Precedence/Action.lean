import FactGraph.Attempt
import FactGraph.Token

/-! What the rule of a symbol does: it reads operands, closes groups, looks whether the construct is
over, and works on the state of its language. It cannot reach the tokens in any other way. -/

namespace FactGraph.Precedence

/-- An action of a language with states in `σ` and meanings in `ν`. An operand may have none. -/
inductive Action (σ ν α : Type) where
  | give (value : α)
  | refuse (fault : Fault)
  /-- Reads an expression whose operators bind tighter than `power`. -/
  | operand (power : Nat) (next : Option ν → Action σ ν α)
  /-- Passes a token, which has to be of the given kind. -/
  | close (kind : Token.Kind) (next : Action σ ν α)
  /-- Whether the next token ends the construct. -/
  | atEnd (next : Bool → Action σ ν α)
  | read (next : σ → Action σ ν α)
  | write (state : σ) (next : Action σ ν α)

namespace Action

variable {σ ν α β : Type}

def bind : Action σ ν α → (α → Action σ ν β) → Action σ ν β
  | give value, next => next value
  | refuse fault, _ => refuse fault
  | operand power rest, next => operand power fun value => (rest value).bind next
  | close kind rest, next => close kind (rest.bind next)
  | atEnd rest, next => atEnd fun answer => (rest answer).bind next
  | read rest, next => read fun state => (rest state).bind next
  | write state rest, next => write state (rest.bind next)

instance : Monad (Action σ ν) where
  pure := give
  bind := bind

def expression (power : Nat) : Action σ ν (Option ν) := operand power give

def pass (kind : Token.Kind) : Action σ ν Unit := close kind (give ())

def ended : Action σ ν Bool := atEnd give

def state : Action σ ν σ := read give

/-- A step on the state of the language; when it fails the state it has reached stays. -/
def perform (step : Attempt σ α) : Action σ ν α :=
  read fun current =>
    match step current with
    | (.ok value, reached) => write reached (give value)
    | (.error fault, reached) => write reached (refuse fault)

theorem bind_eq (action : Action σ ν α) (next : α → Action σ ν β) :
    action >>= next = action.bind next := rfl

theorem pure_eq (value : α) : (pure value : Action σ ν α) = give value := rfl

theorem bind_give (action : Action σ ν α) : action.bind give = action := by
  induction action with
  | give => rfl
  | refuse => rfl
  | operand power rest ih => simp only [bind, ih]
  | close kind rest ih => simp only [bind, ih]
  | atEnd rest ih => simp only [bind, ih]
  | read rest ih => simp only [bind, ih]
  | write state rest ih => simp only [bind, ih]

theorem bind_assoc {γ : Type} (action : Action σ ν α) (first : α → Action σ ν β)
    (second : β → Action σ ν γ) :
    (action.bind first).bind second = action.bind fun value => (first value).bind second := by
  induction action with
  | give => rfl
  | refuse => rfl
  | operand power rest ih => simp only [bind, ih]
  | close kind rest ih => simp only [bind, ih]
  | atEnd rest ih => simp only [bind, ih]
  | read rest ih => simp only [bind, ih]
  | write state rest ih => simp only [bind, ih]

instance : LawfulMonad (Action σ ν) := LawfulMonad.mk' (Action σ ν)
  (fun action => bind_give action)
  (fun _ _ => rfl)
  (fun action first second => bind_assoc action first second)

end Action

end FactGraph.Precedence
