import FactGraph.Proofs.Precedence.Course
import FactGraph.Proofs.Precedence.Parallel

/-! Runs that are only followed as long as their states are of a kind. A run that comes to a last
state of this kind has never left it, where it cannot be come back to; so it may be compared with
another run under the rules that give up as soon as it is left. -/

namespace FactGraph.Precedence

variable {σ ν α β γ δ : Type} {kept : σ → Prop}

def straying : Fault := .internal "not followed any further"

namespace Action

open Classical in
/-- The action, given up where it would write a state that is not kept. -/
noncomputable def guarded (kept : σ → Prop) : Action σ ν α → Action σ ν α
  | give value => give value
  | refuse fault => refuse fault
  | operand power next => operand power fun value => (next value).guarded kept
  | close kind next => close kind (next.guarded kept)
  | atEnd next => atEnd fun answer => (next answer).guarded kept
  | read next => read fun state => (next state).guarded kept
  | write state next =>
    if kept state then write state (next.guarded kept) else write state (refuse straying)

/-- Where every state is kept, nothing is given up. -/
theorem guarded_of_forall (all : ∀ state, kept state) (action : Action σ ν α) :
    action.guarded kept = action := by
  induction action with
  | give | refuse => rfl
  | operand power next ih => simp only [guarded, ih]
  | close kind next ih => simp only [guarded, ih]
  | atEnd next ih => simp only [guarded, ih]
  | read next ih => simp only [guarded, ih]
  | write state next ih => rw [guarded, if_pos (all state), ih]

theorem guarded_bind (action : Action σ ν α) (next : α → Action σ ν β) :
    (action >>= next).guarded kept = action.guarded kept >>= fun value =>
    (next value).guarded kept := by
  rw [bind_eq, bind_eq]
  induction action with
  | give | refuse => rfl
  | operand power next ih => simp only [Action.bind, guarded, ih]
  | close kind next ih => simp only [Action.bind, guarded, ih]
  | atEnd next ih => simp only [Action.bind, guarded, ih]
  | read next ih => simp only [Action.bind, guarded, ih]
  | write state next ih =>
    simp only [Action.bind, guarded]
    split
    · rw [Action.bind, ih]
    · rfl

/-- What is left to do when a step on the state has come to its end: to leave the state and to
answer. -/
def finish (answer : β → α) : Except Fault β × σ → Action σ ν α
  | (.ok value, reached) => write reached (give (answer value))
  | (.error fault, reached) => write reached (refuse fault)

theorem perform_bind_pure (step : Attempt σ β) (answer : β → α) :
    (perform step >>= fun value => pure (answer value) : Action σ ν α) =
      read fun state => finish answer (step state) := by
  rw [bind_eq, perform, Action.bind]
  congr 1
  funext state
  rcases step state with ⟨_ | value, reached⟩ <;> rfl

theorem perform_eq (step : Attempt σ α) :
    (perform step : Action σ ν α) = read fun state => finish id (step state) := by
  rw [← perform_bind_pure]
  exact (bind_pure _).symm

theorem guarded_finish_of_kept {answer : β → α} {ending : Except Fault β × σ}
    (inside : kept ending.2) :
    (finish answer ending : Action σ ν α).guarded kept = finish answer ending := by
  rcases ending with ⟨_ | _, reached⟩ <;> exact if_pos inside

theorem guarded_finish_of_left {answer : β → α} {ending : Except Fault β × σ}
    (outside : ¬ kept ending.2) :
    (finish answer ending : Action σ ν α).guarded kept = write ending.2 (refuse straying) := by
  rcases ending with ⟨_ | _, reached⟩ <;> exact if_neg outside

def Follows (kept : σ → Prop) (like : Likeness σ ν) (same : α → β → Prop) (action : Action σ ν α)
    (other : Action σ ν β) : Prop := (action.guarded kept).Parallel like same other

namespace Follows

variable {like : Likeness σ ν} {same : α → β → Prop} {next : γ → δ → Prop}

theorem pure {value : α} {other : β} (answers : same value other) :
    (Pure.pure value : Action σ ν α).Follows kept like same (Pure.pure other) := .give answers

theorem refuse {fault other : Fault} (faults : like.together fault other) :
    (Action.refuse fault : Action σ ν α).Follows kept like same
      (Action.refuse other : Action σ ν β) :=
  Parallel.refuse faults

theorem bind {action : Action σ ν α} {other : Action σ ν β} {rest : α → Action σ ν γ}
    {rest' : β → Action σ ν δ} (first : action.Follows kept like same other)
    (second : ∀ value value', same value value' →
      (rest value).Follows kept like next (rest' value')) :
    (action >>= rest).Follows kept like next (other >>= rest') := by
  rw [Follows, guarded_bind]
  exact Parallel.bind first second

theorem expression (power : Nat) :
    (Action.expression power : Action σ ν (Option ν)).Follows kept like like.operand
      (Action.expression power) :=
  Parallel.expression power

theorem pass (kind : Token.Kind) :
    (Action.pass kind : Action σ ν Unit).Follows kept like Eq (Action.pass kind) :=
  Parallel.pass kind

theorem ended : (Action.ended : Action σ ν Bool).Follows kept like Eq Action.ended := Parallel.ended

theorem state : (Action.state : Action σ ν σ).Follows kept like like.state Action.state :=
  Parallel.state

theorem perform {step : Attempt σ α} {other : Attempt σ β}
    (strays : (∀ state, kept state) ∨ like.alone straying)
    (steps : ∀ state state', like.state state state' → kept (step state).2 →
      Attempt.Alike like.toFailing like.state same (step state) (other state')) :
    (Action.perform step : Action σ ν α).Follows kept like same (Action.perform other) := by
  rw [perform_eq, perform_eq]
  apply Parallel.read
  intro current current' states
  by_cases inside : kept (step current).2
  · have ending := steps current current' states inside
    rw [guarded_finish_of_kept inside]
    revert ending
    generalize step current = outcome
    generalize other current' = outcome'
    intro ending
    cases ending with
    | answered answers reached => exact .write reached (.give answers)
    | failed faults reached => exact .write reached (.refuse faults)
    | alone stopped => exact .alone stopped
  · rw [guarded_finish_of_left inside]
    exact .alone (strays.resolve_left fun all => inside (all _))

end Follows

end Action

namespace Symbol

noncomputable def guarded (kept : σ → Prop) (symbol : Symbol σ ν) : Symbol σ ν where
  power := symbol.power
  opening := symbol.opening.map fun rule token => (rule token).guarded kept
  following := symbol.following.map fun rule token left => (rule token left).guarded kept

end Symbol

namespace Symbols

noncomputable def guarded (kept : σ → Prop) (symbols : Symbols σ ν) : Symbols σ ν :=
  fun kind => (symbols kind).map (·.guarded kept)

variable (symbols : Symbols σ ν)

theorem guarded_of_forall (all : ∀ state, kept state) : symbols.guarded kept = symbols := by
  funext kind
  have same (symbol : Symbol σ ν) : symbol.guarded kept = symbol := by
    rcases symbol with ⟨power, opening, following⟩
    cases opening <;> cases following <;> simp [Symbol.guarded, Action.guarded_of_forall all]
  simp [guarded, same]

theorem defines_guarded (kind : Token.Kind) :
    (symbols.guarded kept).defines kind = symbols.defines kind := by
  simp [defines, guarded]

theorem power_guarded (kind : Token.Kind) :
    (symbols.guarded kept).power kind = symbols.power kind := by
  unfold power guarded
  cases symbols kind <;> rfl

theorem opening?_guarded (kind : Token.Kind) :
    (symbols.guarded kept).opening? kind =
      (symbols.opening? kind).map fun rule token => (rule token).guarded kept := by
  unfold opening? guarded
  cases symbols kind <;> rfl

theorem following?_guarded (kind : Token.Kind) :
    (symbols.guarded kept).following? kind =
      (symbols.following? kind).map fun rule token left => (rule token left).guarded kept := by
  unfold following? guarded
  cases symbols kind <;> rfl

end Symbols

namespace Reader

variable {symbols : Symbols σ ν}

theorem advance_guarded (expected : Option Token.Kind) :
    advance (symbols.guarded kept) expected = advance symbols expected := by
  funext reader
  simp only [advance, Symbols.defines_guarded]

theorem take_guarded : take (symbols.guarded kept) = take symbols := by
  have hold_guarded : hold (symbols.guarded kept) = hold symbols := by
    funext reader
    simp only [hold, advance_guarded]
  rw [take, take, hold_guarded, advance_guarded]

theorem power_guarded (reader : Reader σ) :
    reader.power (symbols.guarded kept) = reader.power symbols := by
  simp only [power, Symbols.power_guarded]

variable {reader after : Reader σ} {token : Token}

theorem state_of_take (taken : take symbols reader = (.ok token, after)) :
    after.state = reader.state := by
  have moved {expected : Option Token.Kind} {first : Reader σ} {other : Token} {second : Reader σ}
      (passed : advance symbols expected first = (.ok other, second)) :
      second.state = first.state := by
    rcases exists_of_advance passed with ⟨_, _, rfl⟩
    rfl
  rcases take_eq_ok taken with ⟨holding, next, held, passed⟩
  have still : holding.state = reader.state := by
    unfold hold at held
    split at held
    · exact congrArg Reader.state (Prod.mk.inj held).2.symm
    · exact moved held
  exact (moved passed).trans still

theorem takeOpening_guarded {rule : Opening σ ν}
    (taken : takeOpening symbols reader = (.ok (token, rule), after)) :
    takeOpening (symbols.guarded kept) reader =
      (.ok (token, fun token => (rule token).guarded kept), after) := by
  rcases takeOpening_eq_ok taken with ⟨first, found⟩
  rw [takeOpening, take_guarded, Attempt.bind_ok first]
  simp [openingOf, Symbols.opening?_guarded, found]

theorem takeFollowing_guarded {rule : Following σ ν}
    (taken : takeFollowing symbols reader = (.ok (token, rule), after)) :
    takeFollowing (symbols.guarded kept) reader =
      (.ok (token, fun token left => (rule token left).guarded kept), after) := by
  rcases takeFollowing_eq_ok taken with ⟨first, found⟩
  rw [takeFollowing, take_guarded, Attempt.bind_ok first]
  simp [followingOf, Symbols.following?_guarded, found]

end Reader

noncomputable def Task.guarded (kept : σ → Prop) : Task σ ν → Task σ ν
  | action room doing => action room (doing.guarded kept)
  | task => task

/-- The action writes only at its end, by a step that does not come from a state that is not kept to
one that is. -/
inductive Action.Steady (kept : σ → Prop) : Action σ ν α → Prop
  | give {value : α} : Steady kept (give value)
  | refuse {fault : Fault} : Steady kept (refuse fault)
  | operand {power : Nat} {next : Option ν → Action σ ν α}
      (rest : ∀ value, Steady kept (next value)) :
      Steady kept (operand power next)
  | close {kind : Token.Kind} {next : Action σ ν α} (rest : Steady kept next) :
      Steady kept (close kind next)
  | atEnd {next : Bool → Action σ ν α} (rest : ∀ answer, Steady kept (next answer)) :
      Steady kept (atEnd next)
  | read {next : σ → Action σ ν α} (rest : ∀ state, Steady kept (next state)) :
      Steady kept (read next)
  | step {β : Type} {step : Attempt σ β} {answer : β →
        α}
      (stays : ∀ state, kept (step state).2 → kept state) :
      Steady kept (.read fun state => finish answer (step state))

namespace Action.Steady

theorem perform {step : Attempt σ β} (answer : β → α)
    (stays : ∀ state, kept (step state).2 → kept state) :
    (Action.perform step >>= fun value => Pure.pure (answer value) : Action σ ν α).Steady kept :=
  perform_bind_pure step answer ▸ .step stays

end Action.Steady

structure Symbols.Steady (symbols : Symbols σ ν) (kept : σ → Prop) : Prop where
  opening {kind : Token.Kind} {rule : Opening σ ν} (token : Token) :
      symbols.opening? kind = some rule →
    (rule token).Steady kept
  following {kind : Token.Kind} {rule : Following σ ν} (token : Token) (left : Option ν) :
    symbols.following? kind = some rule → (rule token left).Steady kept

def Task.Steady (kept : σ → Prop) : Task σ ν → Prop
  | action _ doing => doing.Steady kept
  | _ => True

namespace Course

variable {symbols : Symbols σ ν} {nesting room : Nat} {reader after : Reader σ} {calls : List Call}
  {value : Option ν}

theorem of_finish {answer : β → Option ν} {outcome : Except Fault β × σ} (others : Symbols σ ν)
    (course : Course symbols nesting (.action room (Action.finish answer outcome)) reader calls
      (.ok value, after)) :
    after.state = outcome.2 ∧
      Course others nesting (.action room (Action.finish answer outcome)) reader calls
        (.ok value, after) := by
  rcases outcome with ⟨_ | found, reached⟩
  · cases course with
    | write behind => cases behind
  · cases course with
    | write behind =>
      cases behind
      exact ⟨rfl, .write .give⟩

/-- A run that ends with a state that is kept has had only such, and goes on in the same way if it
is given up at any other. -/
theorem guarded {task : Task σ ν} (steady : symbols.Steady kept)
    (course : Course symbols nesting task reader calls (.ok value, after)) (own : task.Steady kept)
    (last : kept after.state) :
    kept reader.state ∧ Course (symbols.guarded kept) nesting (task.guarded kept) reader calls
      (.ok value, after) := by
  generalize ending : (Except.ok value, after) = result at course
  induction course generalizing value after with
  | limit | unopened | openingFailed | unfollowed | followingFailed | refuse
  | operandFailed | unclosed =>
    cases ending
  | opened taken _ _ ran follows =>
    cases ending
    have first := Reader.takeOpening_eq_ok taken
    rcases follows trivial last rfl with ⟨middle, rest⟩
    rcases ran (steady.opening _ first.2) middle rfl with ⟨start, rule⟩
    refine ⟨?_, .opened (Reader.takeOpening_guarded taken) rule rest⟩
    rwa [Reader.state_of_take first.1] at start
  | loose looser =>
    cases ending
    exact ⟨last, .loose (by rwa [Reader.power_guarded])⟩
  | followed tighter taken _ _ ran follows =>
    cases ending
    have first := Reader.takeFollowing_eq_ok taken
    rcases follows trivial last rfl with ⟨middle, rest⟩
    rcases ran (steady.following _ _ first.2) middle rfl with ⟨start, rule⟩
    refine ⟨?_, .followed (by rwa [Reader.power_guarded])
      (Reader.takeFollowing_guarded taken) rule rest⟩
    rwa [Reader.state_of_take first.1] at start
  | give =>
    cases ending
    exact ⟨last, .give⟩
  | operand _ _ read rest =>
    cases own with
    | operand own =>
      rcases rest (own _) last ending with ⟨middle, behind⟩
      rcases read trivial middle rfl with ⟨start, operand⟩
      exact ⟨start, .operand operand behind⟩
  | close held passed _ rest =>
    cases own with
    | close own =>
      rcases rest own last ending with ⟨start, behind⟩
      rcases Reader.exists_of_advance passed with ⟨_, _, rfl⟩
      exact ⟨start, .close held (by rwa [Reader.advance_guarded]) behind⟩
  | atEnd _ rest =>
    cases own with
    | atEnd own =>
      rcases rest (own _) last ending with ⟨start, behind⟩
      exact ⟨start, .atEnd behind⟩
  | @read _ _ reader _ _ behind rest =>
    cases own with
    | read own =>
      rcases rest (own _) last ending with ⟨start, behind⟩
      exact ⟨start, .read behind⟩
    | @step _ step answer stays =>
      cases ending
      have left : Course _ _ (.action _ (Action.finish answer (step reader.state))) _ _ _ := behind
      rcases left.of_finish (symbols.guarded kept) with ⟨same, again⟩
      have inside : kept (step reader.state).2 := same ▸ last
      rw [← Action.guarded_finish_of_kept inside] at again
      exact ⟨stays _ inside, .read again⟩
  | write =>
    cases own

end Course

variable {symbols : Symbols σ ν} {nesting : Nat} {reader after : Reader σ} {calls : List Call}
  {values : List ν}

theorem Courses.guarded (steady : symbols.Steady kept)
    (courses : Courses symbols nesting reader calls (.ok values, after)) (last : kept after.state) :
    kept reader.state ∧ Courses (symbols.guarded kept) nesting reader calls
      (.ok values, after) := by
  generalize ending : (Except.ok values, after) = result at courses
  induction courses generalizing values after with
  | failed | laterFailed => cases ending
  | finished ended =>
    cases ending
    exact ⟨last, .finished ended⟩
  | more goes_on read _ ih =>
    cases ending
    rcases ih last rfl with ⟨middle, rest⟩
    rcases read.guarded steady trivial middle with ⟨start, first⟩
    exact ⟨start, .more goes_on first rest⟩

theorem Reader.parse_guarded (steady : symbols.Steady kept)
    (parsed : parse symbols nesting reader = (.ok values, after)) (last : kept after.state) :
    parse (symbols.guarded kept) nesting reader = (.ok values, after) := by
  rcases WholeCourse.exists_of_parse symbols nesting reader with ⟨calls, course⟩
  rw [parsed] at course
  cases course with
  | begun passed courses =>
    have begun : advance (symbols.guarded kept) none reader = _ :=
      (congrFun (advance_guarded none) reader).trans passed
    exact (WholeCourse.begun begun (courses.guarded steady last).2).parse_eq

end FactGraph.Precedence
