import FactGraph.Precedence.Reader
import Mathlib.Data.List.Forall2
import Mathlib.Data.Option.Basic

/-! Two runs side by side. If the rules of two tables do like things with like tokens, then two
readers with like tokens before them come to like meanings and like states, or to like faults. A run
may also stop where the other goes on, if it stops with a fault that it may have alone. -/

namespace FactGraph

/-- How one of two runs may fail: together with the other, or alone if it is the first. -/
structure Failing where
  together : Fault → Fault → Prop
  alone : Fault → Prop

namespace Attempt

variable {σ τ α β γ δ : Type} {failing : Failing} {like : σ → τ → Prop} {same : α → β → Prop}
  {next : γ → δ → Prop}

/-- How two steps have ended. Where both have failed, the states that they have reached are alike,
too. -/
inductive Alike (failing : Failing) (like : σ → τ → Prop) (same : α → β → Prop) :
    Except Fault α × σ → Except Fault β × τ → Prop
  | answered {value : α} {other : β} {state : σ} {state' : τ} (answers : same value other)
      (states : like state state') : Alike failing like same (.ok value, state) (.ok other, state')
  | failed {fault other : Fault} {state : σ} {state' : τ} (faults : failing.together fault other)
      (states : like state state') :
      Alike failing like same (.error fault, state) (.error other, state')
  | alone {fault : Fault} {state : σ} {ending : Except Fault β × τ}
      (stopped : failing.alone fault) :
      Alike failing like same (.error fault, state) ending

def Parallel (failing : Failing) (like : σ → τ → Prop) (step : Attempt σ α) (other : Attempt τ β)
    (same : α → β → Prop) : Prop :=
  ∀ state state', like state state' → Alike failing like same (step state) (other state')

namespace Parallel

theorem pure {value : α} {other : β} (answers : same value other) :
    Parallel failing like (Pure.pure value) (Pure.pure other) same :=
  fun _ _ states => .answered answers states

theorem refuse {fault other : Fault} (faults : failing.together fault other) :
    Parallel failing like (Attempt.refuse fault) (Attempt.refuse other) same :=
  fun _ _ states => .failed faults states

theorem state : Parallel failing like Attempt.state Attempt.state like :=
  fun _ _ states => .answered states states

theorem bind {step : Attempt σ α} {other : Attempt τ β} {rest : α → Attempt σ γ}
    {rest' : β → Attempt τ δ} (first : Parallel failing like step other same)
    (second : ∀ value value', same value value' →
      Parallel failing like (rest value) (rest' value') next) :
    Parallel failing like (step >>= rest) (other >>= rest') next := by
  intro state state' states
  have ending := first state state' states
  rw [bind_apply, bind_apply]
  revert ending
  generalize step state = outcome
  generalize other state' = outcome'
  intro ending
  cases ending with
  | answered answers reached => exact second _ _ answers _ _ reached
  | failed faults reached => exact .failed faults reached
  | alone stopped => exact .alone stopped

theorem of_ok {step : Attempt σ α} {other : Attempt τ β} {state reached : σ}
    {state' : τ} {value : α} (steps : Parallel failing like step other same)
    (states : like state state') (ran : step state = (.ok value, reached)) :
    ∃ value' reached', other state' = (.ok value', reached') ∧
    same value value' ∧ like reached reached' := by
  have ending := steps state state' states
  rw [ran] at ending
  generalize ended : other state' = outcome at ending
  cases ending with
  | answered answers states => exact ⟨_, _, rfl, answers, states⟩

end Parallel

end Attempt

namespace Precedence

structure Likeness (σ ν : Type) extends Failing where
  state : σ → σ → Prop
  meaning : ν → ν → Prop
  token : Token → Token → Prop

variable {σ ν α β γ δ : Type} {like : Likeness σ ν} {same : α → β → Prop} {next : γ → δ → Prop}

abbrev Likeness.operand (like : Likeness σ ν) : Option ν → Option ν → Prop :=
  Option.Rel like.meaning

namespace Action

/-- Given like operands and like states, the actions do the same things in the same order, and come
to like answers. The first may also be about to stop alone. -/
inductive Parallel (like : Likeness σ ν) (same : α → β → Prop) : Action σ ν α → Action σ ν β → Prop
  | give {value : α} {other : β} (answers : same value other) :
      Parallel like same (give value) (give other)
  | refuse {fault other : Fault} (faults : like.together fault other) :
      Parallel like same (refuse fault) (refuse other)
  | operand {power : Nat} {next : Option ν → Action σ ν α} {next' : Option ν → Action σ ν β}
      (rest : ∀ value value', like.operand value value' →
        Parallel like same (next value) (next' value')) :
      Parallel like same (operand power next) (operand power next')
  | close {kind : Token.Kind} {next : Action σ ν α} {next' : Action σ ν β}
      (rest : Parallel like same next next') :
      Parallel like same (close kind next) (close kind next')
  | atEnd {next : Bool → Action σ ν α} {next' : Bool → Action σ ν β}
      (rest : ∀ answer, Parallel like same (next answer) (next' answer)) :
      Parallel like same (atEnd next) (atEnd next')
  | read {next : σ → Action σ ν α} {next' : σ → Action σ ν β}
      (rest : ∀ state state', like.state state state' →
        Parallel like same (next state) (next' state')) :
      Parallel like same (read next) (read next')
  | write {state state' : σ} {next : Action σ ν α} {next' : Action σ ν β}
      (states : like.state state state') (rest : Parallel like same next next') :
      Parallel like same (write state next) (write state' next')
  | alone {fault : Fault} {state : σ} {other : Action σ ν β} (stopped : like.alone fault) :
      Parallel like same (write state (Action.refuse fault)) other

namespace Parallel

theorem bind {action : Action σ ν α} {other : Action σ ν β} {rest : α → Action σ ν γ}
    {rest' : β → Action σ ν δ} (first : action.Parallel like same other)
    (second : ∀ value value', same value value' → (rest value).Parallel like next (rest' value')) :
    (action >>= rest).Parallel like next (other >>= rest') := by
  rw [bind_eq, bind_eq]
  induction first with
  | give answers => exact second _ _ answers
  | refuse faults => exact .refuse faults
  | operand _ ih => exact .operand ih
  | close _ ih => exact .close ih
  | atEnd _ ih => exact .atEnd ih
  | read _ ih => exact .read ih
  | write states _ ih => exact .write states ih
  | alone stopped => exact .alone stopped

theorem expression (power : Nat) :
    (Action.expression power : Action σ ν (Option ν)).Parallel like like.operand
      (Action.expression power) :=
  .operand fun _ _ answers => .give answers

theorem pass (kind : Token.Kind) :
    (Action.pass kind : Action σ ν Unit).Parallel like Eq (Action.pass kind) := .close (.give rfl)

theorem ended : (Action.ended : Action σ ν Bool).Parallel like Eq Action.ended :=
  .atEnd fun _ => .give rfl

theorem state : (Action.state : Action σ ν σ).Parallel like like.state Action.state :=
  .read fun _ _ states => .give states

theorem perform {step : Attempt σ α} {other : Attempt σ β}
    (steps : Attempt.Parallel like.toFailing like.state step other same) :
    (Action.perform step : Action σ ν α).Parallel like same (Action.perform other) := by
  apply read
  intro current current' states
  have ending := steps current current' states
  revert ending
  generalize step current = outcome
  generalize other current' = outcome'
  intro ending
  cases ending with
  | answered answers reached => exact .write reached (.give answers)
  | failed faults reached => exact .write reached (.refuse faults)
  | alone stopped => exact .alone stopped

end Parallel

end Action

/-- Like tokens are of one kind, and the faults that a reader has with them are alike. -/
structure Likeness.Fair (like : Likeness σ ν) : Prop where
  kind {token other : Token} : like.token token other → token.kind = other.kind
  pastEnd {token other : Token} : like.token token other →
    like.together (.pastEnd token.span.position) (.pastEnd other.span.position)
  mismatch (expected : String) {token other : Token} : like.token token other →
    like.together (.mismatch expected token.describe token.span.position)
      (.mismatch expected other.describe other.span.position)
  unexpected (context : String) (expected : List String) {token other : Token} :
      like.token token other →
    like.together (.unexpected context expected token.describe token.span.position)
      (.unexpected context expected other.describe other.span.position)
  internal (text : String) : like.together (.internal text) (.internal text)

theorem rel_cases {α β : Type} {same : α → β → Prop} {value : Option α} {other : Option β}
    (related : Option.Rel same value other) :
    value = none ∧ other = none ∨
    ∃ first second, value = some first ∧ other = some second ∧ same first second := by
  cases related with
  | none => exact .inl ⟨rfl, rfl⟩
  | some answers => exact .inr ⟨_, _, rfl, rfl, answers⟩

theorem rel_eq_iff {α : Type} {value other : Option α} :
    Option.Rel Eq value other ↔ value = other := by
  constructor
  · intro related
    cases related with
    | none => rfl
    | some same => exact congrArg some same
  · rintro rfl
    cases value with
    | none => exact .none
    | some value => exact .some rfl

theorem isSome_eq_of_rel {α β : Type} {same : α → β → Prop} {value : Option α} {other : Option β}
    (related : Option.Rel same value other) : value.isSome = other.isSome := by
  cases related <;> rfl

structure Symbol.Parallel (like : Likeness σ ν) (kind : Token.Kind) (symbol other : Symbol σ ν) :
    Prop where
  power : symbol.power = other.power
  opening : Option.Rel
    (fun rule rule' => ∀ token token' : Token, token.kind = kind → like.token token token' →
      (rule token).Parallel like like.operand (rule' token'))
    symbol.opening other.opening
  following : Option.Rel
    (fun rule rule' => ∀ (token token' : Token) (left left' : Option ν), token.kind = kind →
      like.token token token' → like.operand left left' →
      (rule token left).Parallel like like.operand (rule' token' left'))
    symbol.following other.following

def Symbols.Parallel (like : Likeness σ ν) (symbols others : Symbols σ ν) : Prop :=
  ∀ kind, Option.Rel (Symbol.Parallel like kind) (symbols kind) (others kind)

namespace Symbols.Parallel

variable {symbols others : Symbols σ ν}

theorem power (tables : symbols.Parallel like others) (kind : Token.Kind) :
    symbols.power kind = others.power kind := by
  rcases rel_cases (tables kind) with ⟨missing, missing'⟩ | ⟨symbol, symbol', found, found', alike⟩
  · simp only [Symbols.power, missing, missing']
  · simp only [Symbols.power, found, found', alike.power]

theorem defines (tables : symbols.Parallel like others) (kind : Token.Kind) :
    symbols.defines kind = others.defines kind := isSome_eq_of_rel (tables kind)

theorem opening (tables : symbols.Parallel like others) (kind : Token.Kind) :
    Option.Rel
      (fun rule rule' => ∀ token token' : Token, token.kind = kind → like.token token token' →
        (rule token).Parallel like like.operand (rule' token'))
      (symbols.opening? kind) (others.opening? kind) := by
  rcases rel_cases (tables kind) with ⟨missing, missing'⟩ | ⟨symbol, symbol', found, found', alike⟩
  · simp only [opening?, missing, missing', Option.bind_none]
    exact .none
  · simp only [opening?, found, found', Option.bind_some]
    exact alike.opening

theorem following (tables : symbols.Parallel like others) (kind : Token.Kind) :
    Option.Rel
      (fun rule rule' => ∀ (token token' : Token) (left left' : Option ν), token.kind = kind →
        like.token token token' → like.operand left left' →
        (rule token left).Parallel like like.operand (rule' token' left'))
      (symbols.following? kind) (others.following? kind) := by
  rcases rel_cases (tables kind) with ⟨missing, missing'⟩ | ⟨symbol, symbol', found, found', alike⟩
  · simp only [following?, missing, missing', Option.bind_none]
    exact .none
  · simp only [following?, found, found', Option.bind_some]
    exact alike.following

theorem openingNames_eq (tables : symbols.Parallel like others) :
    symbols.openingNames = others.openingNames := by
  have each (kind : Token.Kind) : (symbols.opening? kind).isSome = (others.opening? kind).isSome :=
    isSome_eq_of_rel (tables.opening kind)
  simp only [openingNames, each]

theorem followingNames_eq (tables : symbols.Parallel like others) :
    symbols.followingNames = others.followingNames := by
  have each (kind : Token.Kind) : (symbols.following? kind).isSome =
      (others.following? kind).isSome :=
    isSome_eq_of_rel (tables.following kind)
  simp only [followingNames, each]

end Symbols.Parallel

namespace Reader

inductive Due (like : Likeness σ ν) : Except Fault Token → Except Fault Token → Prop
  | token {token other : Token} (tokens : like.token token other) : Due like (.ok token) (.ok other)
  | fault {fault other : Fault} (faults : like.together fault other) :
      Due like (.error fault) (.error other)

structure Alike (like : Likeness σ ν) (reader other : Reader σ) : Prop where
  state : like.state reader.state other.state
  current : Option.Rel like.token reader.current other.current
  pending : List.Forall₂ (Due like) reader.pending other.pending

abbrev Parallel (like : Likeness σ ν) (step other : Attempt (Reader σ) α) (same : α → α → Prop) :
    Prop :=
  Attempt.Parallel like.toFailing (Alike like) step other same

variable {symbols others : Symbols σ ν} {reader other : Reader σ}

theorem Alike.atConstructEnd_eq (fair : like.Fair) (readers : Alike like reader other) :
    reader.atConstructEnd = other.atConstructEnd := by
  rcases reader with ⟨pending, current, state⟩
  rcases other with ⟨pending', current', state'⟩
  cases readers.current with
  | none => rfl
  | some tokens => exact congrArg Token.Kind.endsConstruct (fair.kind tokens)

theorem Alike.atEndOfInput_eq (fair : like.Fair) (readers : Alike like reader other) :
    reader.atEndOfInput = other.atEndOfInput := by
  rcases reader with ⟨pending, current, state⟩
  rcases other with ⟨pending', current', state'⟩
  cases readers.current with
  | none => rfl
  | some tokens => exact congrArg (· == Token.Kind.endOfInput) (fair.kind tokens)

theorem Alike.power_eq (fair : like.Fair) (tables : symbols.Parallel like others)
    (readers : Alike like reader other) : reader.power symbols = other.power others := by
  rcases reader with ⟨pending, current, state⟩
  rcases other with ⟨pending', current', state'⟩
  cases readers.current with
  | none => rfl
  | some tokens =>
    have kind := fair.kind tokens
    simp only [Reader.power, kind, tables.power]

theorem Alike.obstacle (fair : like.Fair) (expected : Option Token.Kind)
    (readers : Alike like reader other) :
    Option.Rel like.together (reader.obstacle? expected) (other.obstacle? expected) := by
  rcases reader with ⟨pending, current, state⟩
  rcases other with ⟨pending', current', state'⟩
  cases readers.current with
  | none => exact .none
  | @some token token' tokens =>
    have kind := fair.kind tokens
    simp only [obstacle?, kind]
    split
    · exact .some (fair.pastEnd tokens)
    · cases expected with
      | none => exact .none
      | some expected =>
        dsimp only
        split
        · exact .none
        · exact .some (fair.mismatch expected.name tokens)

theorem advance_parallel (fair : like.Fair) (tables : symbols.Parallel like others)
    (expected : Option Token.Kind) :
    Parallel like (advance symbols expected) (advance others expected) like.token := by
  intro reader other readers
  rcases rel_cases (readers.obstacle fair expected) with
    ⟨free, free'⟩ | ⟨fault, fault', stopped, stopped', faults⟩
  · simp only [advance, free, free']
    rcases reader with ⟨pending, current, state⟩
    rcases other with ⟨pending', current', state'⟩
    cases readers.pending with
    | nil => exact .failed (fair.internal _) readers
    | cons due later =>
      cases due with
      | fault faults => exact .failed faults ⟨readers.state, readers.current, later⟩
      | token tokens =>
        have kind := fair.kind tokens
        simp only [kind, tables.defines]
        split
        · exact .answered tokens ⟨readers.state, .some tokens, later⟩
        · exact .failed (fair.internal _) ⟨readers.state, readers.current, later⟩
  · simp only [advance, stopped, stopped']
    exact .failed faults readers

theorem hold_parallel (fair : like.Fair) (tables : symbols.Parallel like others) :
    Parallel like (hold symbols) (hold others) like.token := by
  intro reader other readers
  have advanced := advance_parallel fair tables none reader other readers
  rcases reader with ⟨pending, current, state⟩
  rcases other with ⟨pending', current', state'⟩
  have held := readers.current
  cases held with
  | none => exact advanced
  | some tokens => exact .answered tokens readers

theorem take_parallel (fair : like.Fair) (tables : symbols.Parallel like others) :
    Parallel like (take symbols) (take others) like.token := by
  apply (hold_parallel fair tables).bind
  intro token other tokens
  apply (advance_parallel fair tables none).bind
  intro _ _ _
  exact .pure tokens

variable {operand operand' : Nat → Attempt (Reader σ) (Option ν)}

theorem run_parallel (fair : like.Fair) (tables : symbols.Parallel like others)
    (operands : ∀ power, Parallel like (operand power) (operand' power) like.operand)
    {action action' : Action σ ν α} {same : α → α → Prop}
    (actions : action.Parallel like same action') :
    Parallel like (run symbols operand action) (run others operand' action') same := by
  induction actions with
  | give answers => exact .pure answers
  | refuse faults => exact .refuse faults
  | @operand power _ _ _ ih => exact (operands power).bind ih
  | @close kind _ _ _ ih =>
    apply (advance_parallel fair tables (some kind)).bind
    intro _ _ _
    exact ih
  | atEnd _ ih =>
    apply Attempt.Parallel.state.bind
    intro reader other readers
    rw [readers.atConstructEnd_eq fair]
    exact ih other.atConstructEnd
  | read _ ih =>
    apply Attempt.Parallel.state.bind
    intro reader other readers
    exact ih reader.state other.state readers.state
  | @write state state' _ _ states _ ih =>
    have writing : Parallel like
        (Attempt.change fun reader : Reader σ => ((), { reader with state }))
        (Attempt.change fun reader : Reader σ => ((), { reader with state := state' })) Eq := by
      intro reader other readers
      exact .answered rfl ⟨states, readers.current, readers.pending⟩
    apply writing.bind
    intro _ _ _
    exact ih
  | alone stopped =>
    intro reader other _
    exact .alone stopped

theorem openingOf_parallel (fair : like.Fair) (tables : symbols.Parallel like others)
    {token other : Token} (tokens : like.token token other) :
    Parallel like (openingOf symbols token) (openingOf others other)
      fun rule rule' => (rule token).Parallel like like.operand (rule' other) := by
  have kind := fair.kind tokens
  unfold openingOf
  rw [tables.openingNames_eq, ← kind]
  rcases rel_cases (tables.opening token.kind)
    with ⟨missing, missing'⟩ | ⟨rule, rule', found, found', rules⟩
  · simp only [missing, missing']
    exact .refuse (fair.unexpected _ _ tokens)
  · simp only [found, found']
    exact .pure (rules token other rfl tokens)

theorem followingOf_parallel (fair : like.Fair) (tables : symbols.Parallel like others)
    {token other : Token} (tokens : like.token token other) :
    Parallel like (followingOf symbols token) (followingOf others other)
      fun rule rule' => ∀ left left', like.operand left left' →
        (rule token left).Parallel like like.operand (rule' other left') := by
  have kind := fair.kind tokens
  unfold followingOf
  rw [tables.followingNames_eq, ← kind]
  rcases rel_cases (tables.following token.kind)
    with ⟨missing, missing'⟩ | ⟨rule, rule', found, found', rules⟩
  · simp only [missing, missing']
    exact .refuse (fair.unexpected _ _ tokens)
  · simp only [found, found']
    exact .pure fun left left' lefts => rules token other left left' rfl tokens lefts

theorem followWithin_parallel (fair : like.Fair) (tables : symbols.Parallel like others)
    (operands : ∀ power, Parallel like (operand power) (operand' power) like.operand)
    (power bound : Nat) (left left' : Option ν) (lefts : like.operand left left') :
    Parallel like (followWithin symbols operand power bound left)
      (followWithin others operand' power bound left') like.operand := by
  induction bound generalizing left left' with
  | zero =>
    apply Attempt.Parallel.state.bind
    intro reader other readers
    rw [readers.power_eq fair tables]
    split
    · apply (take_parallel fair tables).bind
      intro _ _ _
      exact .pure lefts
    · exact .pure lefts
  | succ bound ih =>
    apply Attempt.Parallel.state.bind
    intro reader other readers
    rw [readers.power_eq fair tables]
    split
    · apply (take_parallel fair tables).bind
      intro token token' tokens
      apply (followingOf_parallel fair tables tokens).bind
      intro rule rule' rules
      exact (run_parallel fair tables operands (rules left left' lefts)).bind ih
    · exact .pure lefts

theorem follow_parallel (fair : like.Fair) (tables : symbols.Parallel like others)
    (operands : ∀ power, Parallel like (operand power) (operand' power) like.operand) (power : Nat)
    (left left' : Option ν) (lefts : like.operand left left') :
    Parallel like (follow symbols operand power left)
      (follow others operand' power left') like.operand := by
  intro reader other readers
  unfold follow
  rw [readers.pending.length_eq]
  exact followWithin_parallel fair tables operands power _ left left' lefts reader other readers

/-- The room for nested expressions in two runs: as much in one as in the other, or less in the
first, which may then stop alone. -/
inductive Roomy (like : Likeness σ ν) (nesting nesting' : Nat) : (room room' : Nat) → Prop
  | even {room : Nat} (faults : like.together (.limit (.nesting nesting))
        (.limit (.nesting nesting'))) :
      Roomy like nesting nesting' room room
  | less {room room' : Nat} (le : room ≤ room') (stopped : like.alone (.limit (.nesting nesting))) :
      Roomy like nesting nesting' room room'

variable {nesting nesting' room room' : Nat}

theorem Roomy.pred (rooms : Roomy like nesting nesting' (room + 1) (room' + 1)) :
    Roomy like nesting nesting' room room' := by
  cases rooms with
  | even faults => exact .even faults
  | less le stopped => exact .less (Nat.le_of_succ_le_succ le) stopped

theorem expressionWithin_parallel (fair : like.Fair) (tables : symbols.Parallel like others)
    (rooms : Roomy like nesting nesting' room room') (power : Nat) :
    Parallel like (expressionWithin symbols nesting room power)
      (expressionWithin others nesting' room' power) like.operand := by
  induction room generalizing room' power with
  | zero =>
    cases rooms with
    | even faults => exact .refuse faults
    | less _ stopped =>
      intro reader other _
      exact .alone stopped
  | succ room ih =>
    obtain ⟨room', rfl⟩ : ∃ smaller, room' = smaller + 1 := by
      cases rooms with
      | even => exact ⟨room, rfl⟩
      | less le => exact ⟨room' - 1, by omega⟩
    have operands := ih rooms.pred
    apply (take_parallel fair tables).bind
    intro token token' tokens
    apply (openingOf_parallel fair tables tokens).bind
    intro rule rule' rules
    apply (run_parallel fair tables operands rules).bind
    exact follow_parallel fair tables operands power

theorem sequenceWithin_parallel (fair : like.Fair) (tables : symbols.Parallel like others)
    (rooms : Roomy like nesting nesting' nesting nesting') (bound : Nat) :
    Parallel like (sequenceWithin symbols nesting bound) (sequenceWithin others nesting' bound)
      (List.Forall₂ like.meaning) := by
  have list {value value' : Option ν} (values : like.operand value value') :
      List.Forall₂ like.meaning value.toList value'.toList := by
    cases values with
    | none => exact .nil
    | some meanings => exact .cons meanings .nil
  induction bound with
  | zero =>
    apply Attempt.Parallel.state.bind
    intro reader other readers
    rw [readers.atEndOfInput_eq fair]
    split
    · exact .pure .nil
    · apply (expressionWithin_parallel fair tables rooms 0).bind
      intro value value' values
      exact .pure (list values)
  | succ bound ih =>
    apply Attempt.Parallel.state.bind
    intro reader other readers
    rw [readers.atEndOfInput_eq fair]
    split
    · exact .pure .nil
    · apply (expressionWithin_parallel fair tables rooms 0).bind
      intro value value' values
      apply ih.bind
      intro _ _ later
      exact .pure (List.rel_append (list values) later)

theorem sequence_parallel (fair : like.Fair) (tables : symbols.Parallel like others)
    (rooms : Roomy like nesting nesting' nesting nesting') :
    Parallel like (sequence symbols nesting) (sequence others nesting')
      (List.Forall₂ like.meaning) := by
  intro reader other readers
  unfold sequence
  rw [readers.pending.length_eq]
  exact sequenceWithin_parallel fair tables rooms _ reader other readers

theorem parse_parallel (fair : like.Fair) (tables : symbols.Parallel like others)
    (rooms : Roomy like nesting nesting' nesting nesting') :
    Parallel like (parse symbols nesting) (parse others nesting') (List.Forall₂ like.meaning) := by
  apply (advance_parallel fair tables none).bind
  intro _ _ _
  exact sequence_parallel fair tables rooms

end Reader

end Precedence

end FactGraph
