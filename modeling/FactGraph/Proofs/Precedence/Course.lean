import FactGraph.Precedence.Progress
import FactGraph.Proofs.Attempt

/-! The course of a run, call by call: which rules are called, and which tokens they take. The
relation knows no bounds on its loops; that every run has a course says that the loops come to an
end. -/

namespace FactGraph.Precedence

/-- A call of a rule with the token that it is called for, or the token with which a rule closes a
group. -/
inductive Call where
  | opening (token : Token)
  | following (token : Token)
  | closing (token : Token)

def Call.token : Call → Token
  | opening token => token
  | following token => token
  | closing token => token

def Call.taken (calls : List Call) : List (Except Fault Token) :=
  calls.map fun call => .ok call.token

variable {σ ν : Type}

namespace Reader

def remaining (reader : Reader σ) : List (Except Fault Token) :=
  reader.current.toList.map .ok ++ reader.pending

def takeOpening (symbols : Symbols σ ν) : Attempt (Reader σ) (Token × Opening σ ν) := do
  let token ← take symbols
  let rule ← openingOf symbols token
  return (token, rule)

def takeFollowing (symbols : Symbols σ ν) : Attempt (Reader σ) (Token × Following σ ν) := do
  let token ← take symbols
  let rule ← followingOf symbols token
  return (token, rule)

end Reader

open Reader (remaining takeOpening takeFollowing take advance run expressionWithin)

/-- What there is to do: to read an expression, to carry out what a rule says, or to apply the
operators that follow. -/
inductive Task (σ ν : Type) where
  | expression (room power : Nat)
  | action (room : Nat) (action : Action σ ν (Option ν))
  | follow (room power : Nat) (left : Option ν)

def Task.step (symbols : Symbols σ ν) (nesting : Nat) : Task σ ν → Attempt (Reader σ) (Option ν)
  | .expression room power => expressionWithin symbols nesting room power
  | .action room doing => run symbols (expressionWithin symbols nesting room) doing
  | .follow room power left =>
    Reader.follow symbols (expressionWithin symbols nesting room) power left

/-- From a reader, the task makes these calls, one after the other, and ends in this way. -/
inductive Course (symbols : Symbols σ ν) (nesting : Nat) :
    Task σ ν → Reader σ → List Call → Except Fault (Option ν) × Reader σ → Prop
  | limit {power : Nat} {reader : Reader σ} :
      Course symbols nesting (.expression 0 power) reader []
        (.error (.limit (.nesting nesting)), reader)
  | unopened {reader reached : Reader σ} {fault : Fault} {room power : Nat}
      (refused : takeOpening symbols reader = (.error fault, reached)) :
      Course symbols nesting (.expression (room + 1) power) reader [] (.error fault, reached)
  | openingFailed {reader after : Reader σ} {token : Token} {rule : Opening σ ν} {room : Nat}
      {calls : List Call} {fault : Fault} {reached : Reader σ} {power : Nat}
      (taken : takeOpening symbols reader = (.ok (token, rule), after))
      (failed : Course symbols nesting (.action room (rule token)) after calls
        (.error fault, reached)) :
      Course symbols nesting (.expression (room + 1) power) reader (.opening token :: calls)
        (.error fault, reached)
  | opened {reader after : Reader σ} {token : Token} {rule : Opening σ ν} {room : Nat}
      {calls : List Call} {left : Option ν} {reached : Reader σ} {power : Nat} {later : List Call}
      {ending : Except Fault (Option ν) × Reader σ}
      (taken : takeOpening symbols reader = (.ok (token, rule), after))
      (ran : Course symbols nesting (.action room (rule token)) after calls (.ok left, reached))
      (followed : Course symbols nesting (.follow room power left) reached later ending) :
      Course symbols nesting (.expression (room + 1) power) reader
        (.opening token :: (calls ++ later)) ending
  | loose {power room : Nat} {left : Option ν} {reader : Reader σ}
      (looser : reader.power symbols ≤ power) :
      Course symbols nesting (.follow room power left) reader [] (.ok left, reader)
  | unfollowed {power : Nat} {reader reached : Reader σ} {fault : Fault} {room : Nat}
      {left : Option ν} (tighter : power < reader.power symbols)
      (refused : takeFollowing symbols reader = (.error fault, reached)) :
      Course symbols nesting (.follow room power left) reader [] (.error fault, reached)
  | followingFailed {power : Nat} {reader after : Reader σ} {token : Token} {rule : Following σ ν}
      {room : Nat} {left : Option ν} {calls : List Call} {fault : Fault} {reached : Reader σ}
      (tighter : power < reader.power symbols)
      (taken : takeFollowing symbols reader = (.ok (token, rule), after))
      (failed : Course symbols nesting (.action room (rule token left)) after calls
        (.error fault, reached)) :
      Course symbols nesting (.follow room power left) reader (.following token :: calls)
        (.error fault, reached)
  | followed {power : Nat} {reader after : Reader σ} {token : Token} {rule : Following σ ν}
      {room : Nat} {left : Option ν} {calls : List Call} {value : Option ν} {reached : Reader σ}
      {later : List Call} {ending : Except Fault (Option ν) × Reader σ}
      (tighter : power < reader.power symbols)
      (taken : takeFollowing symbols reader = (.ok (token, rule), after))
      (ran : Course symbols nesting (.action room (rule token left)) after calls
        (.ok value, reached))
      (followed : Course symbols nesting (.follow room power value) reached later ending) :
      Course symbols nesting (.follow room power left) reader
        (.following token :: (calls ++ later)) ending
  | give {room : Nat} {value : Option ν} {reader : Reader σ} :
      Course symbols nesting (.action room (.give value)) reader [] (.ok value, reader)
  | refuse {room : Nat} {fault : Fault} {reader : Reader σ} :
      Course symbols nesting (.action room (.refuse fault)) reader [] (.error fault, reader)
  | operandFailed {room power : Nat} {reader : Reader σ} {calls : List Call} {fault : Fault}
      {reached : Reader σ} {next : Option ν → Action σ ν (Option ν)}
      (failed : Course symbols nesting (.expression room power) reader calls
        (.error fault, reached)) :
      Course symbols nesting (.action room (.operand power next)) reader calls
        (.error fault, reached)
  | operand {room power : Nat} {reader : Reader σ} {calls : List Call} {value : Option ν}
      {reached : Reader σ} {next : Option ν → Action σ ν (Option ν)} {later : List Call}
      {ending : Except Fault (Option ν) × Reader σ}
      (read : Course symbols nesting (.expression room power) reader calls (.ok value, reached))
      (rest : Course symbols nesting (.action room (next value)) reached later ending) :
      Course symbols nesting (.action room (.operand power next)) reader (calls ++ later) ending
  | unclosed {kind : Token.Kind} {reader reached : Reader σ} {fault : Fault} {room : Nat}
      {next : Action σ ν (Option ν)}
      (refused : advance symbols (some kind) reader = (.error fault, reached)) :
      Course symbols nesting (.action room (.close kind next)) reader [] (.error fault, reached)
  | close {token : Token} {kind : Token.Kind} {reader after : Reader σ} {other : Token}
      {room : Nat} {next : Action σ ν (Option ν)} {calls : List Call}
      {ending : Except Fault (Option ν) × Reader σ} (held : reader.current = some token)
      (passed : advance symbols (some kind) reader = (.ok other, after))
      (rest : Course symbols nesting (.action room next) after calls ending) :
      Course symbols nesting (.action room (.close kind next)) reader (.closing token :: calls)
        ending
  | atEnd {room : Nat} {next : Bool → Action σ ν (Option ν)} {reader : Reader σ}
      {calls : List Call} {ending : Except Fault (Option ν) × Reader σ}
      (rest : Course symbols nesting (.action room (next reader.atConstructEnd)) reader calls
        ending) :
      Course symbols nesting (.action room (.atEnd next)) reader calls ending
  | read {room : Nat} {next : σ → Action σ ν (Option ν)} {reader : Reader σ} {calls : List Call}
      {ending : Except Fault (Option ν) × Reader σ}
      (rest : Course symbols nesting (.action room (next reader.state)) reader calls ending) :
      Course symbols nesting (.action room (.read next)) reader calls ending
  | write {room : Nat} {next : Action σ ν (Option ν)} {reader : Reader σ} {calls : List Call}
      {ending : Except Fault (Option ν) × Reader σ} {state : σ}
      (rest : Course symbols nesting (.action room next) { reader with state } calls ending) :
      Course symbols nesting (.action room (.write state next)) reader calls ending

namespace Reader

variable {symbols : Symbols σ ν} {reader after : Reader σ} {token other : Token}
  {expected : Option Token.Kind} {fault : Fault}

theorem exists_of_advance (passed : advance symbols expected reader = (.ok other, after)) :
    ∃ rest, reader.pending = .ok other :: rest ∧ after = ⟨rest, some other, reader.state⟩ := by
  unfold advance at passed
  split at passed
  · simp at passed
  · split at passed
    · simp at passed
    · simp at passed
    · next next rest pending =>
      split at passed
      · simp only [Prod.mk.injEq, Except.ok.injEq] at passed
        obtain ⟨rfl, rfl⟩ := passed
        exact ⟨rest, pending, rfl⟩
      · simp at passed

theorem kind_of_advance {kind : Token.Kind} (held : reader.current = some token)
    (passed : advance symbols (some kind) reader = (.ok other, after)) : token.kind = kind := by
  by_cases same : token.kind = kind
  · exact same
  · have stopped : ∃ fault, reader.obstacle? (some kind) = some fault := by
      simp only [obstacle?, held, if_neg same]
      split
      · exact ⟨_, rfl⟩
      · exact ⟨_, rfl⟩
    rcases stopped with ⟨fault, obstacle⟩
    simp [advance, obstacle] at passed

theorem remaining_of_advance (held : reader.current = some token)
    (passed : advance symbols expected reader = (.ok other, after)) :
    reader.remaining = Call.taken [.closing token] ++ after.remaining := by
  rcases exists_of_advance passed with ⟨rest, pending, rfl⟩
  simp [remaining, held, pending, Call.taken, Call.token]

theorem remaining_of_hold (held : hold symbols reader = (.ok token, after)) :
    reader.remaining = after.remaining ∧ after.current = some token := by
  unfold hold at held
  split at held
  · next first current =>
    simp only [Prod.mk.injEq, Except.ok.injEq] at held
    obtain ⟨rfl, rfl⟩ := held
    exact ⟨rfl, current⟩
  · next current =>
    rcases exists_of_advance held with ⟨rest, pending, rfl⟩
    simp [remaining, current, pending]

theorem take_eq_ok (taken : take symbols reader = (.ok token, after)) :
    ∃ holding next, hold symbols reader = (.ok token, holding) ∧
    advance symbols none holding = (.ok next, after) := by
  rcases Attempt.exists_of_bind_ok taken with ⟨first, holding, held, more⟩
  rcases Attempt.exists_of_bind_ok more with ⟨next, reached, passed, answered⟩
  simp only [Attempt.pure_apply, Prod.mk.injEq, Except.ok.injEq] at answered
  obtain ⟨rfl, rfl⟩ := answered
  exact ⟨holding, next, held, passed⟩

theorem take_eq_error (failed : take symbols reader = (.error fault, after)) :
    hold symbols reader = (.error fault, after) ∨
      ∃ held holding, hold symbols reader = (.ok held, holding) ∧
        advance symbols none holding = (.error fault, after) := by
  rcases Attempt.bind_eq_error_iff.1 failed with stopped | ⟨held, holding, first, passing⟩
  · exact .inl stopped
  · exact .inr ⟨held, holding, first, Attempt.bind_pure_eq_error_iff.1 passing⟩

theorem advance_of_hold_eq_error (failed : hold symbols reader = (.error fault, after)) :
    advance symbols none reader = (.error fault, after) := by
  unfold hold at failed
  split at failed
  · simp at failed
  · exact failed

/-- What is taken is the first of the remaining tokens, and the next one is at hand afterwards. -/
theorem remaining_of_take (taken : take symbols reader = (.ok token, after)) :
    reader.remaining = .ok token :: after.remaining ∧ after.current.isSome := by
  rcases take_eq_ok taken with ⟨holding, next, held, passed⟩
  rcases remaining_of_hold held with ⟨same, current⟩
  refine ⟨same.trans (remaining_of_advance current passed), ?_⟩
  rcases exists_of_advance passed with ⟨rest, _, rfl⟩
  rfl

theorem takeOpening_eq_ok {rule : Opening σ ν}
    (taken : takeOpening symbols reader = (.ok (token, rule), after)) :
    take symbols reader = (.ok token, after) ∧ symbols.opening? token.kind = some rule := by
  rcases Attempt.exists_of_bind_ok taken with ⟨held, reached, first, ruled⟩
  rcases found : symbols.opening? held.kind with _ | own
  · simp [openingOf, found, Attempt.bind_apply] at ruled
  · simp only [openingOf, found, pure_bind, Attempt.pure_apply, Prod.mk.injEq,
      Except.ok.injEq] at ruled
    obtain ⟨⟨rfl, rfl⟩, rfl⟩ := ruled
    exact ⟨first, found⟩

theorem takeFollowing_eq_ok {rule : Following σ ν}
    (taken : takeFollowing symbols reader = (.ok (token, rule), after)) :
    take symbols reader = (.ok token, after) ∧ symbols.following? token.kind = some rule := by
  rcases Attempt.exists_of_bind_ok taken with ⟨held, reached, first, ruled⟩
  rcases found : symbols.following? held.kind with _ | own
  · simp [followingOf, found, Attempt.bind_apply] at ruled
  · simp only [followingOf, found, pure_bind, Attempt.pure_apply, Prod.mk.injEq,
      Except.ok.injEq] at ruled
    obtain ⟨⟨rfl, rfl⟩, rfl⟩ := ruled
    exact ⟨first, found⟩

theorem takeOpening_eq_error (failed : takeOpening symbols reader = (.error fault, after)) :
    take symbols reader = (.error fault, after) ∨
      ∃ token middle, take symbols reader = (.ok token, middle) ∧
        fault = .unexpected "expression" symbols.openingNames token.describe
          token.span.position := by
  rcases Attempt.bind_eq_error_iff.1 failed with stopped | ⟨token, middle, taken, ruled⟩
  · exact .inl stopped
  · refine .inr ⟨token, middle, taken, ?_⟩
    rw [Attempt.bind_pure_eq_error_iff, openingOf] at ruled
    rcases found : symbols.opening? token.kind with _ | rule
    · rw [found] at ruled
      exact (Except.error.inj (congrArg Prod.fst ruled)).symm
    · simp [found] at ruled

theorem takeFollowing_eq_error (failed : takeFollowing symbols reader = (.error fault, after)) :
    take symbols reader = (.error fault, after) ∨
      ∃ token middle, take symbols reader = (.ok token, middle) ∧
        fault = .unexpected "operator" symbols.followingNames token.describe
          token.span.position := by
  rcases Attempt.bind_eq_error_iff.1 failed with stopped | ⟨token, middle, taken, ruled⟩
  · exact .inl stopped
  · refine .inr ⟨token, middle, taken, ?_⟩
    rw [Attempt.bind_pure_eq_error_iff, followingOf] at ruled
    rcases found : symbols.following? token.kind with _ | rule
    · rw [found] at ruled
      exact (Except.error.inj (congrArg Prod.fst ruled)).symm
    · simp [found] at ruled

theorem remaining_of_takeOpening {rule : Opening σ ν}
    (taken : takeOpening symbols reader = (.ok (token, rule), after)) :
    reader.remaining = Call.taken [.opening token] ++ after.remaining ∧ after.current.isSome :=
  remaining_of_take (takeOpening_eq_ok taken).1

theorem remaining_of_takeFollowing {rule : Following σ ν}
    (taken : takeFollowing symbols reader = (.ok (token, rule), after)) :
    reader.remaining = Call.taken [.following token] ++ after.remaining ∧ after.current.isSome :=
  remaining_of_take (takeFollowing_eq_ok taken).1

/-- The calls take the first of the remaining tokens, in their order. Where there is an answer, they
have taken all that are not there any more. -/
def Takes {α : Type} (reader : Reader σ) (calls : List Call) (ending : Except Fault α × Reader σ) :
    Prop :=
  ∃ rest, reader.remaining = Call.taken calls ++ rest ∧ ∀ value, ending.1 = .ok value →
  rest = ending.2.remaining

namespace Takes

variable {α β : Type} {middle : Reader σ} {calls later : List Call} {value : α}
  {ending : Except Fault β × Reader σ}

theorem nothing : reader.Takes [] (.ok value, reader) := ⟨_, rfl, fun _ _ => rfl⟩

theorem failed {fault : Fault} : reader.Takes (α := β) [] (.error fault, after) := ⟨_, rfl, nofun⟩

theorem behind (first : reader.remaining = Call.taken calls ++ middle.remaining)
    (rest : middle.Takes later ending) : reader.Takes (calls ++ later) ending := by
  rcases rest with ⟨rest, split, left_over⟩
  refine ⟨rest, ?_, left_over⟩
  rw [first, split, Call.taken, Call.taken, Call.taken, List.map_append, List.append_assoc]

theorem split (takes : reader.Takes calls (.ok value, middle)) :
    reader.remaining = Call.taken calls ++ middle.remaining := by
  rcases takes with ⟨rest, split, left_over⟩
  rw [split, left_over value rfl]

theorem trans (first : reader.Takes calls (.ok value, middle)) (rest : middle.Takes later ending) :
    reader.Takes (calls ++ later) ending := rest.behind first.split

theorem length (takes : reader.Takes calls (.ok value, middle)) :
    reader.remaining.length = calls.length + middle.remaining.length := by
  rw [takes.split, Call.taken, List.length_append, List.length_map]

end Takes

variable {nesting room power : Nat}

theorem expressionWithin_succ : expressionWithin symbols nesting (room + 1) power =
    takeOpening symbols >>= fun found =>
      run symbols (expressionWithin symbols nesting room) (found.2 found.1) >>=
        follow symbols (expressionWithin symbols nesting room) power := by
  rw [expressionWithin, takeOpening]
  simp only [bind_assoc, pure_bind]

theorem follow_of_tighter {left : Option ν} (tighter : power < reader.power symbols) :
    follow symbols (expressionWithin symbols nesting room) power left reader =
      (takeFollowing symbols >>= fun found =>
        run symbols (expressionWithin symbols nesting room) (found.2 found.1 left) >>=
          follow symbols (expressionWithin symbols nesting room) power) reader := by
  rw [follow_eq (expressionWithin_consumes symbols nesting room), if_pos tighter, takeFollowing]
  simp only [bind_assoc, pure_bind]

theorem follow_of_looser {left : Option ν} (looser : reader.power symbols ≤ power) :
    follow symbols (expressionWithin symbols nesting room) power left reader =
      (.ok left, reader) := by
  rw [follow_eq (expressionWithin_consumes symbols nesting room), if_neg (Nat.not_lt.mpr looser)]

end Reader

namespace Task

variable {symbols : Symbols σ ν} {nesting room power : Nat} {reader after : Reader σ}
  {token : Token}

theorem step_of_takeOpening {rule : Opening σ ν}
    (taken : takeOpening symbols reader = (.ok (token, rule), after)) :
    (expression (room + 1) power).step symbols nesting reader =
      ((action room (rule token)).step symbols nesting >>= fun left =>
        (follow room power left).step symbols nesting) after :=
  (congrFun Reader.expressionWithin_succ reader).trans (Attempt.bind_ok taken)

theorem step_of_takeFollowing {rule : Following σ ν} {left : Option ν}
    (tighter : power < reader.power symbols)
    (taken : takeFollowing symbols reader = (.ok (token, rule), after)) :
    (follow room power left).step symbols nesting reader =
      ((action room (rule token left)).step symbols nesting >>= fun value =>
        (follow room power value).step symbols nesting) after :=
  (Reader.follow_of_tighter tighter).trans (Attempt.bind_ok taken)

end Task

namespace Course

variable {symbols : Symbols σ ν} {nesting : Nat} {task : Task σ ν} {reader : Reader σ}
  {calls : List Call} {ending : Except Fault (Option ν) × Reader σ}

/-- A course ends as the step does. -/
theorem step_eq (course : Course symbols nesting task reader calls ending) :
    task.step symbols nesting reader = ending := by
  induction course with
  | limit => rfl
  | unopened refused => rw [Task.step, Reader.expressionWithin_succ, Attempt.bind_error refused]
  | openingFailed taken _ ran => rw [Task.step_of_takeOpening taken, Attempt.bind_error ran]
  | opened taken _ _ ran follows =>
    rw [Task.step_of_takeOpening taken, Attempt.bind_ok ran, follows]
  | loose looser => exact Reader.follow_of_looser looser
  | unfollowed tighter refused =>
    rw [Task.step, Reader.follow_of_tighter tighter, Attempt.bind_error refused]
  | followingFailed tighter taken _ ran =>
    rw [Task.step_of_takeFollowing tighter taken, Attempt.bind_error ran]
  | followed tighter taken _ _ ran follows =>
    rw [Task.step_of_takeFollowing tighter taken, Attempt.bind_ok ran, follows]
  | give => rfl
  | refuse => rfl
  | operandFailed _ failed => exact Attempt.bind_error failed
  | operand _ _ read rest => exact (Attempt.bind_ok read).trans rest
  | unclosed refused => exact Attempt.bind_error refused
  | close _ passed _ rest => exact (Attempt.bind_ok passed).trans rest
  | atEnd _ rest => exact rest
  | read _ rest => exact rest
  | write _ rest => exact rest

theorem held (course : Course symbols nesting task reader calls ending)
    (answered : ∃ value, ending.1 = .ok value) (holds : reader.current.isSome) :
    ending.2.current.isSome := by
  induction course with
  | limit | unopened | openingFailed | unfollowed | followingFailed | refuse
  | operandFailed | unclosed =>
    rcases answered with ⟨value, impossible⟩
    contradiction
  | loose | give => exact holds
  | opened taken _ _ ran follows =>
    exact follows answered (ran ⟨_, rfl⟩ (Reader.remaining_of_takeOpening taken).2)
  | followed _ taken _ _ ran follows =>
    exact follows answered (ran ⟨_, rfl⟩ (Reader.remaining_of_takeFollowing taken).2)
  | operand _ _ read rest => exact rest answered (read ⟨_, rfl⟩ holds)
  | close _ passed _ ih =>
    rcases Reader.exists_of_advance passed with ⟨_, _, rfl⟩
    exact ih answered rfl
  | atEnd _ ih | read _ ih | write _ ih => exact ih answered holds

theorem takes (course : Course symbols nesting task reader calls ending) :
    reader.Takes calls ending := by
  induction course with
  | limit | unopened | unfollowed | refuse | unclosed => exact .failed
  | loose | give => exact .nothing
  | openingFailed taken _ ran => exact ran.behind (Reader.remaining_of_takeOpening taken).1
  | followingFailed _ taken _ ran => exact ran.behind (Reader.remaining_of_takeFollowing taken).1
  | opened taken _ _ ran follows =>
    exact (ran.trans follows).behind (Reader.remaining_of_takeOpening taken).1
  | followed _ taken _ _ ran follows =>
    exact (ran.trans follows).behind (Reader.remaining_of_takeFollowing taken).1
  | operandFailed _ failed => exact failed
  | operand _ _ read rest => exact read.trans rest
  | close current passed _ rest => exact rest.behind (Reader.remaining_of_advance current passed)
  | atEnd _ rest | read _ rest | write _ rest => exact rest

theorem ne_nil {room power : Nat} {value : Option ν} {after : Reader σ}
    (course : Course symbols nesting (.expression room power) reader calls (.ok value, after)) :
    calls ≠ [] := by
  cases course with
  | opened => exact List.cons_ne_nil _ _

/-- Induction on the operators that follow an expression, where they come to an answer. -/
@[elab_as_elim]
theorem follow_induction_on {room power : Nat} {value : Option ν} {after : Reader σ}
    {motive : (left : Option ν) → (reader : Reader σ) → (calls : List Call) →
      Course symbols nesting (.follow room power left) reader calls (.ok value, after) → Prop}
    {left : Option ν} {reader : Reader σ} {calls : List Call}
    (course : Course symbols nesting (.follow room power left) reader calls (.ok value, after))
    (loose : ∀ looser, motive value after [] (.loose looser))
    (followed : ∀ {left reader behind token rule calls found reached later}
      (tighter : power < reader.power symbols)
      (taken : takeFollowing symbols reader = (.ok (token, rule), behind))
      (ran : Course symbols nesting (.action room (rule token left)) behind calls
        (.ok found, reached))
      (follows : Course symbols nesting (.follow room power found) reached later
        (.ok value, after)),
      motive found reached later follows →
        motive left reader _ (.followed tighter taken ran follows)) :
    motive left reader calls course := by
  have every {left : Option ν} {reader : Reader σ} {calls : List Call} {task : Task σ ν}
      {ending : Except Fault (Option ν) × Reader σ}
      (course : Course symbols nesting task reader calls ending)
      (follow : task = .follow room power left) (answered : ending = (.ok value, after)) :
      ∀ same, motive left reader calls same := by
    induction course generalizing left with
    | limit | unopened | openingFailed | opened | give | refuse | operandFailed | operand | unclosed
    | close | atEnd | read | write => cases follow
    | unfollowed | followingFailed => cases answered
    | loose looser =>
      cases follow
      cases answered
      exact fun _ => loose looser
    | followed tighter taken ran follows _ ih =>
      cases follow
      cases answered
      exact fun _ => followed tighter taken ran follows (ih rfl rfl follows)
  exact every course rfl rfl course

end Course

def Task.Ends (symbols : Symbols σ ν) (nesting : Nat) (task : Task σ ν) : Prop :=
  ∀ reader : Reader σ, reader.current.isSome →
    ∃ calls, Course symbols nesting task reader calls (task.step symbols nesting reader)

namespace Task

variable {symbols : Symbols σ ν} {nesting room : Nat}

/-- If the expressions within it end, an action does, as it is carried out from the outside to the
inside. -/
theorem action_ends (operands : ∀ power, (expression room power).Ends symbols nesting)
    (action : Action σ ν (Option ν)) : (Task.action room action).Ends symbols nesting := by
  induction action with
  | give value => exact fun reader _ => ⟨_, .give⟩
  | refuse fault => exact fun reader _ => ⟨_, .refuse⟩
  | operand power next ih =>
    intro reader holds
    rcases operands power reader holds with ⟨calls, read⟩
    rcases ran : (expression room power).step symbols nesting reader with ⟨fault | value, reached⟩
    · rw [ran] at read
      have stopped : (Task.action room (.operand power next)).step symbols nesting reader =
          (.error fault, reached) := Attempt.bind_error ran
      exact ⟨calls, stopped ▸ .operandFailed read⟩
    · rw [ran] at read
      have goes_on : (Task.action room (.operand power next)).step symbols nesting reader =
          (Task.action room (next value)).step symbols nesting reached := Attempt.bind_ok ran
      rcases ih value reached (read.held ⟨value, rfl⟩ holds) with ⟨later, rest⟩
      exact ⟨calls ++ later, goes_on ▸ .operand read rest⟩
  | close kind next ih =>
    intro reader holds
    rcases Option.isSome_iff_exists.mp holds with ⟨token, current⟩
    rcases passed : Reader.advance symbols (some kind) reader with ⟨fault | other, after⟩
    · have stopped : (Task.action room (.close kind next)).step symbols nesting reader =
          (.error fault, after) := Attempt.bind_error passed
      exact ⟨[], stopped ▸ .unclosed passed⟩
    · have goes_on : (Task.action room (.close kind next)).step symbols nesting reader =
          (Task.action room next).step symbols nesting after := Attempt.bind_ok passed
      have holds_after : after.current.isSome := by
        rcases Reader.exists_of_advance passed with ⟨_, _, rfl⟩
        rfl
      rcases ih after holds_after with ⟨later, rest⟩
      exact ⟨.closing token :: later, goes_on ▸ .close current passed rest⟩
  | atEnd next ih =>
    intro reader holds
    rcases ih reader.atConstructEnd reader holds with ⟨calls, rest⟩
    exact ⟨calls, .atEnd rest⟩
  | read next ih =>
    intro reader holds
    rcases ih reader.state reader holds with ⟨calls, rest⟩
    exact ⟨calls, .read rest⟩
  | write state next ih =>
    intro reader holds
    rcases ih { reader with state } holds with ⟨calls, rest⟩
    exact ⟨calls, .write rest⟩

/-- Operators are applied to the end, since each takes one of the remaining tokens. -/
theorem follow_ends (operands : ∀ power, (expression room power).Ends symbols nesting) (power : Nat)
    (left : Option ν) : (Task.follow room power left).Ends symbols nesting := by
  intro reader holds
  induction length : reader.remaining.length using Nat.strongRecOn generalizing reader left with
  | ind bound ih =>
    by_cases tighter : power < reader.power symbols
    · rcases taken : takeFollowing symbols reader with ⟨fault | ⟨token, rule⟩, after⟩
      · have stopped : (Task.follow room power left).step symbols nesting reader =
            (.error fault, after) := by
          rw [step, Reader.follow_of_tighter tighter, Attempt.bind_error taken]
        exact ⟨[], stopped ▸ .unfollowed tighter taken⟩
      · have first := Reader.remaining_of_takeFollowing taken
        rcases action_ends operands (rule token left) after first.2 with ⟨calls, ran⟩
        rw [step_of_takeFollowing tighter taken]
        rcases done : (Task.action room (rule token left)).step symbols nesting after with
          ⟨fault | value, reached⟩
        · rw [done] at ran
          rw [Attempt.bind_error done]
          exact ⟨_, .followingFailed tighter taken ran⟩
        · rw [done] at ran
          rw [Attempt.bind_ok done]
          have shorter : reached.remaining.length < bound := by
            have own := ran.takes.length
            rw [← length, first.1, Call.taken, List.length_append, List.length_map,
              List.length_singleton]
            omega
          rcases ih _ shorter value reached (ran.held ⟨value, rfl⟩ first.2) rfl
            with ⟨later, follows⟩
          exact ⟨_, .followed tighter taken ran follows⟩
    · have loose := Nat.le_of_not_lt tighter
      have ended : (Task.follow room power left).step symbols nesting reader = (.ok left, reader) :=
        Reader.follow_of_looser loose
      exact ⟨[], ended ▸ .loose loose⟩

/-- Every expression has a course, by induction on the room for those within it. -/
theorem expression_ends (room power : Nat) (reader : Reader σ) :
    ∃ calls, Course symbols nesting (.expression room power) reader calls
      ((Task.expression room power).step symbols nesting reader) := by
  induction room generalizing power reader with
  | zero => exact ⟨[], .limit⟩
  | succ room ih =>
    have operands (power : Nat) : (expression room power).Ends symbols nesting :=
      fun reader _ => ih power reader
    rcases taken : takeOpening symbols reader with ⟨fault | ⟨token, rule⟩, after⟩
    · have stopped : (Task.expression (room + 1) power).step symbols nesting reader =
          (.error fault, after) := by
        rw [step, Reader.expressionWithin_succ, Attempt.bind_error taken]
      exact ⟨[], stopped ▸ .unopened taken⟩
    · have holds := (Reader.remaining_of_takeOpening taken).2
      rcases action_ends operands (rule token) after holds with ⟨calls, ran⟩
      rw [step_of_takeOpening taken]
      rcases done : (Task.action room (rule token)).step symbols nesting after
        with ⟨fault | left, reached⟩
      · rw [done] at ran
        rw [Attempt.bind_error done]
        exact ⟨_, .openingFailed taken ran⟩
      · rw [done] at ran
        rcases follow_ends operands power left reached (ran.held ⟨left, rfl⟩ holds)
          with ⟨later, follows⟩
        rw [Attempt.bind_ok done]
        exact ⟨_, .opened taken ran follows⟩

end Task

inductive Courses (symbols : Symbols σ ν) (nesting : Nat) :
    Reader σ → List Call → Except Fault (List ν) × Reader σ → Prop
  | finished {reader : Reader σ} (ended : reader.atEndOfInput = true) :
      Courses symbols nesting reader [] (.ok [], reader)
  | failed {reader : Reader σ} {calls : List Call} {fault : Fault} {reached : Reader σ}
      (goes_on : reader.atEndOfInput = false)
      (stopped : Course symbols nesting (.expression nesting 0) reader calls
        (.error fault, reached)) :
      Courses symbols nesting reader calls (.error fault, reached)
  | laterFailed {reader : Reader σ} {calls : List Call} {value : Option ν} {reached : Reader σ}
      {later : List Call} {fault : Fault} {after : Reader σ}
      (goes_on : reader.atEndOfInput = false)
      (read : Course symbols nesting (.expression nesting 0) reader calls (.ok value, reached))
      (stopped : Courses symbols nesting reached later (.error fault, after)) :
      Courses symbols nesting reader (calls ++ later) (.error fault, after)
  | more {reader : Reader σ} {calls : List Call} {value : Option ν} {reached : Reader σ}
      {later : List Call} {values : List ν} {after : Reader σ}
      (goes_on : reader.atEndOfInput = false)
      (read : Course symbols nesting (.expression nesting 0) reader calls (.ok value, reached))
      (rest : Courses symbols nesting reached later (.ok values, after)) :
      Courses symbols nesting reader (calls ++ later) (.ok (value.toList ++ values), after)

inductive WholeCourse (symbols : Symbols σ ν) (nesting : Nat) :
    Reader σ → List Call → Except Fault (List ν) × Reader σ → Prop
  | unbegun {reader reached : Reader σ} {fault : Fault}
      (refused : advance symbols none reader = (.error fault, reached)) :
      WholeCourse symbols nesting reader [] (.error fault, reached)
  | begun {reader after : Reader σ} {first : Token} {calls : List Call}
      {ending : Except Fault (List ν) × Reader σ}
      (passed : advance symbols none reader = (.ok first, after))
      (rest : Courses symbols nesting after calls ending) :
      WholeCourse symbols nesting reader calls ending

variable {symbols : Symbols σ ν} {nesting : Nat} {reader : Reader σ} {calls : List Call}
  {ending : Except Fault (List ν) × Reader σ}

theorem Reader.sequence_of_goes_on (goes_on : reader.atEndOfInput = false) :
    sequence symbols nesting reader =
      ((Task.expression nesting 0).step symbols nesting >>= fun value =>
        sequence symbols nesting >>= fun values => pure (value.toList ++ values)) reader := by
  rw [sequence_eq, if_neg (Bool.eq_false_iff.mp goes_on)]
  rfl

namespace Courses

theorem sequence_eq (courses : Courses symbols nesting reader calls ending) :
    Reader.sequence symbols nesting reader = ending := by
  induction courses with
  | finished ended => rw [Reader.sequence_eq, if_pos ended]
  | failed goes_on stopped =>
    rw [Reader.sequence_of_goes_on goes_on, Attempt.bind_error stopped.step_eq]
  | laterFailed goes_on read _ ih =>
    rw [Reader.sequence_of_goes_on goes_on, Attempt.bind_ok read.step_eq, Attempt.bind_error ih]
  | more goes_on read _ ih =>
    rw [Reader.sequence_of_goes_on goes_on, Attempt.bind_ok read.step_eq, Attempt.bind_ok ih]
    rfl

theorem held (courses : Courses symbols nesting reader calls ending)
    (answered : ∃ values, ending.1 = .ok values) (holds : reader.current.isSome) :
    ending.2.current.isSome := by
  induction courses with
  | finished => exact holds
  | failed | laterFailed =>
    rcases answered with ⟨values, impossible⟩
    contradiction
  | more _ read _ ih => exact ih ⟨_, rfl⟩ (read.held ⟨_, rfl⟩ holds)

theorem takes (courses : Courses symbols nesting reader calls ending) :
    reader.Takes calls ending := by
  induction courses with
  | finished => exact .nothing
  | failed _ stopped =>
    rcases stopped.takes with ⟨rest, split, _⟩
    exact ⟨rest, split, nofun⟩
  | laterFailed _ read _ later => exact read.takes.trans later
  | more _ read _ later =>
    rcases read.takes.trans later with ⟨rest, split, left_over⟩
    exact ⟨rest, split, fun _ _ => left_over _ rfl⟩

theorem ended (courses : Courses symbols nesting reader calls ending)
    (answered : ∃ values, ending.1 = .ok values) : ending.2.atEndOfInput = true := by
  induction courses with
  | finished ended => exact ended
  | failed | laterFailed =>
    rcases answered with ⟨values, impossible⟩
    contradiction
  | more _ _ _ later => exact later ⟨_, rfl⟩

end Courses

/-- The expressions come to an end, since each takes one of the remaining tokens. -/
theorem exists_courses (symbols : Symbols σ ν) (nesting : Nat) (reader : Reader σ) :
    ∃ calls, Courses symbols nesting reader calls (Reader.sequence symbols nesting reader) := by
  induction length : reader.remaining.length using Nat.strongRecOn generalizing reader with
  | ind bound ih =>
    cases goes_on : reader.atEndOfInput with
    | true =>
      have ended : Reader.sequence symbols nesting reader = (.ok [], reader) := by
        rw [Reader.sequence_eq, if_pos goes_on]
      exact ⟨[], ended ▸ .finished goes_on⟩
    | false =>
      rw [Reader.sequence_of_goes_on goes_on]
      rcases Task.expression_ends nesting 0 reader with ⟨calls, read⟩
      rcases done : (Task.expression nesting 0).step symbols nesting reader
        with ⟨fault | value, reached⟩
      · rw [done] at read
        rw [Attempt.bind_error done]
        exact ⟨calls, .failed goes_on read⟩
      · rw [done] at read
        have shorter : reached.remaining.length < bound := by
          have some_call := List.length_pos_iff.mpr read.ne_nil
          rw [← length, read.takes.length]
          omega
        rcases ih _ shorter reached rfl with ⟨later, rest⟩
        rw [Attempt.bind_ok done]
        rcases finished : Reader.sequence symbols nesting reached with ⟨fault | values, after⟩
        · rw [finished] at rest
          rw [Attempt.bind_error finished]
          exact ⟨_, .laterFailed goes_on read rest⟩
        · rw [finished] at rest
          rw [Attempt.bind_ok finished]
          exact ⟨_, .more goes_on read rest⟩

namespace WholeCourse

theorem parse_eq (course : WholeCourse symbols nesting reader calls ending) :
    Reader.parse symbols nesting reader = ending := by
  cases course with
  | unbegun refused => exact Attempt.bind_error refused
  | begun passed rest => exact (Attempt.bind_ok passed).trans rest.sequence_eq

theorem exists_of_parse (symbols : Symbols σ ν) (nesting : Nat) (reader : Reader σ) :
    ∃ calls, WholeCourse symbols nesting reader calls (Reader.parse symbols nesting reader) := by
  rcases passed : advance symbols none reader with ⟨fault | first, after⟩
  · have stopped : Reader.parse symbols nesting reader = (.error fault, after) :=
      Attempt.bind_error passed
    exact ⟨[], stopped ▸ .unbegun passed⟩
  · have goes_on : Reader.parse symbols nesting reader = Reader.sequence symbols nesting after :=
      Attempt.bind_ok passed
    rcases exists_courses symbols nesting after with ⟨calls, rest⟩
    exact ⟨calls, goes_on ▸ .begun passed rest⟩

/-- The calls take the first of the pending tokens, in their order. Where there is an answer, they
leave the end of the input, and what comes after it. -/
theorem takes (course : WholeCourse symbols nesting reader calls ending) :
    ∃ rest, reader.pending = Call.taken calls ++ rest ∧
      ∀ values, ending.1 = .ok values →
      ∃ token later, rest = .ok token :: later ∧ token.kind = .endOfInput := by
  cases course with
  | unbegun refused => exact ⟨_, rfl, nofun⟩
  | begun passed courses =>
    rcases Reader.exists_of_advance passed with ⟨rest, pending, rfl⟩
    rcases courses.takes with ⟨left, split, left_over⟩
    refine ⟨left, pending.trans split, ?_⟩
    intro values answered
    have at_end := courses.ended ⟨values, answered⟩
    obtain rfl := left_over values answered
    rcases Option.isSome_iff_exists.mp (courses.held ⟨values, answered⟩ rfl) with ⟨token, current⟩
    refine ⟨token, ending.2.pending, by simp [remaining, current], ?_⟩
    simpa [Reader.atEndOfInput, current] using at_end

end WholeCourse

end FactGraph.Precedence
