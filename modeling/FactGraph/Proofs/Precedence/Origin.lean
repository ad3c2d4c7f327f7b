import FactGraph.Proofs.Precedence.Stage

namespace FactGraph.Precedence

open Relation (ReflTransGen)
open Reader (remaining takeOpening takeFollowing take hold advance run)

variable {σ ν : Type}

def Reader.Finds : Fault → Prop
  | .pastEnd _ | .mismatch _ _ _ | .internal _ | .unexpected _ _ _ _ | .limit _ => True
  | _ => False

/-- Begun with the reader, the action comes to refuse by itself, after operands that have had
answers. -/
inductive Action.Refuses (symbols : Symbols σ ν) (nesting room : Nat) (fault : Fault)
    (reached : Reader σ) : Action σ ν (Option ν) → Reader σ → Prop
  | refuse : Refuses symbols nesting room fault reached (.refuse fault) reached
  | operand {power : Nat} {reader after : Reader σ} {value : Option ν}
      {next : Option ν → Action σ ν (Option ν)}
      (read : (Task.expression room power).step symbols nesting reader = (.ok value, after))
      (rest : Refuses symbols nesting room fault reached (next value) after) :
      Refuses symbols nesting room fault reached (.operand power next) reader
  | close {kind : Token.Kind} {reader after : Reader σ} {other : Token}
      {next : Action σ ν (Option ν)}
      (passed : advance symbols (some kind) reader = (.ok other, after))
      (rest : Refuses symbols nesting room fault reached next after) :
      Refuses symbols nesting room fault reached (.close kind next) reader
  | atEnd {next : Bool → Action σ ν (Option ν)} {reader : Reader σ}
      (rest : Refuses symbols nesting room fault reached (next reader.atConstructEnd) reader) :
      Refuses symbols nesting room fault reached (.atEnd next) reader
  | read {next : σ → Action σ ν (Option ν)} {reader : Reader σ}
      (rest : Refuses symbols nesting room fault reached (next reader.state) reader) :
      Refuses symbols nesting room fault reached (.read next) reader
  | write {next : Action σ ν (Option ν)} {reader : Reader σ} {current : σ}
      (rest : Refuses symbols nesting room fault reached next { reader with state := current }) :
      Refuses symbols nesting room fault reached (.write current next) reader

inductive Stage.Blamed (symbols : Symbols σ ν) (nesting : Nat) (fault : Fault)
    (reached : Reader σ) : Stage σ ν → Prop
  | opening {rule : Opening σ ν} {token : Token} {room : Nat} {reader : Reader σ}
      (found : symbols.opening? token.kind = some rule)
      (refuses : (rule token).Refuses symbols nesting room fault reached reader) :
      Blamed symbols nesting fault reached ⟨.action room (rule token), reader⟩
  | following {rule : Following σ ν} {token : Token} {left : Option ν} {room : Nat}
      {reader : Reader σ} (found : symbols.following? token.kind = some rule)
      (refuses : (rule token left).Refuses symbols nesting room fault reached reader) :
      Blamed symbols nesting fault reached ⟨.action room (rule token left), reader⟩

variable {symbols : Symbols σ ν} {nesting room : Nat} {fault : Fault} {reader reached : Reader σ}

namespace Action.Refuses

theorem of_state {next : σ → Action σ ν (Option ν)}
    (refuses : (Action.state >>= next).Refuses symbols nesting room fault reached reader) :
    (next reader.state).Refuses symbols nesting room fault reached reader := by
  cases refuses with
  | read rest => exact rest

theorem of_expression {power : Nat} {next : Option ν → Action σ ν (Option ν)}
    (refuses : (Action.expression power >>= next).Refuses symbols nesting room fault
      reached reader) :
    ∃ value after, (Task.expression room power).step symbols nesting reader = (.ok value, after) ∧
      (next value).Refuses symbols nesting room fault reached after := by
  cases refuses with
  | operand read rest => exact ⟨_, _, read, rest⟩

end Action.Refuses

theorem Action.Refuses.run_eq {action : Action σ ν (Option ν)}
    (refuses : action.Refuses symbols nesting room fault reached reader) :
    (Task.action room action).step symbols nesting reader = (.error fault, reached) := by
  induction refuses with
  | refuse => rfl
  | operand read _ ih => exact (Attempt.bind_ok read).trans ih
  | close passed _ ih => exact (Attempt.bind_ok passed).trans ih
  | atEnd _ ih | read _ ih | write _ ih => exact ih

theorem Stage.Blamed.ending_eq {stage : Stage σ ν}
    (blamed : stage.Blamed symbols nesting fault reached) :
    stage.ending symbols nesting = (.error fault, reached) := by
  cases blamed with
  | opening _ refuses => exact refuses.run_eq
  | following _ refuses => exact refuses.run_eq

namespace Reader

theorem not_mem_remaining {calls : List Call} {after : Reader σ}
    (readable : .error fault ∉ reader.remaining)
    (split : reader.remaining = Call.taken calls ++ after.remaining) :
    .error fault ∉ after.remaining := by
  intro inside
  exact readable (split ▸ List.mem_append_right _ inside)

theorem finds_of_advance {expected : Option Token.Kind}
    (refused : advance symbols expected reader = (.error fault, reached)) :
    Finds fault ∨ .error fault ∈ reader.remaining := by
  have obstacle {other : Fault} (met : reader.obstacle? expected = some other) : Finds other := by
    unfold obstacle? at met
    split at met
    · contradiction
    · split at met
      · exact Option.some.inj met ▸ trivial
      · split at met
        · contradiction
        · split at met
          · contradiction
          · exact Option.some.inj met ▸ trivial
  unfold advance at refused
  split at refused
  · next met => exact .inl (Except.error.inj (Prod.mk.inj refused).1 ▸ obstacle met)
  · split at refused
    · exact .inl (Except.error.inj (Prod.mk.inj refused).1 ▸ trivial)
    · next pending =>
      obtain rfl := Except.error.inj (Prod.mk.inj refused).1
      exact .inr (List.mem_append_right _ (pending ▸ List.mem_cons_self))
    · split at refused
      · simp at refused
      · exact .inl (Except.error.inj (Prod.mk.inj refused).1 ▸ trivial)

theorem finds_of_take (refused : take symbols reader = (.error fault, reached)) :
    Finds fault ∨ .error fault ∈ reader.remaining := by
  rcases take_eq_error refused with stopped | ⟨token, holding, held, stopped⟩
  · exact finds_of_advance (advance_of_hold_eq_error stopped)
  · rw [(remaining_of_hold held).1]
    exact finds_of_advance stopped

theorem finds_of_takeOpening (refused : takeOpening symbols reader = (.error fault, reached)) :
    Finds fault ∨ .error fault ∈ reader.remaining := by
  rcases takeOpening_eq_error refused with stopped | ⟨token, _, _, rfl⟩
  · exact finds_of_take stopped
  · exact .inl trivial

theorem finds_of_takeFollowing (refused : takeFollowing symbols reader = (.error fault, reached)) :
    Finds fault ∨ .error fault ∈ reader.remaining := by
  rcases takeFollowing_eq_error refused with stopped | ⟨token, _, _, rfl⟩
  · exact finds_of_take stopped
  · exact .inl trivial

end Reader

/-- Whatever is answered to the action, it refuses only with such faults. -/
def Action.Raises {α : Type} (allowed : Fault → Prop) : Action σ ν α → Prop
  | .give _ => True
  | .refuse fault => allowed fault
  | .operand _ next => ∀ value, (next value).Raises allowed
  | .close _ next => next.Raises allowed
  | .atEnd next => ∀ answer, (next answer).Raises allowed
  | .read next => ∀ state, (next state).Raises allowed
  | .write _ next => next.Raises allowed

namespace Action.Raises

variable {α β : Type} {allowed : Fault → Prop}

theorem bind {action : Action σ ν α} {next : α → Action σ ν β} (first : action.Raises allowed)
    (second : ∀ value, (next value).Raises allowed) : (action >>= next).Raises allowed := by
  rw [bind_eq]
  induction action with
  | give value => exact second value
  | refuse fault => exact first
  | operand power rest ih => exact fun value => ih value (first value)
  | close kind rest ih => exact ih first
  | atEnd rest ih => exact fun answer => ih answer (first answer)
  | read rest ih => exact fun state => ih state (first state)
  | write state rest ih => exact ih first

theorem pure (value : α) : (Pure.pure value : Action σ ν α).Raises allowed := trivial

theorem expression (power : Nat) :
    (Action.expression power : Action σ ν (Option ν)).Raises allowed :=
  fun _ => trivial

theorem pass (kind : Token.Kind) : (Action.pass kind : Action σ ν Unit).Raises allowed := trivial

theorem ended : (Action.ended : Action σ ν Bool).Raises allowed := fun _ => trivial

theorem state : (Action.state : Action σ ν σ).Raises allowed := fun _ => trivial

theorem perform {step : Attempt σ α}
    (faults : ∀ state fault, (step state).1 = .error fault → allowed fault) :
    (Action.perform step : Action σ ν α).Raises allowed := by
  intro current
  dsimp only
  split
  · trivial
  · next run => exact faults current _ (congrArg Prod.fst run)

end Action.Raises

theorem Action.Refuses.allowed_of_raises {allowed : Fault → Prop} {action : Action σ ν (Option ν)}
    (refuses : action.Refuses symbols nesting room fault reached reader)
    (raises : action.Raises allowed) :
    allowed fault := by
  induction refuses with
  | refuse => exact raises
  | operand _ _ ih | atEnd _ ih | read _ ih => exact ih (raises _)
  | close _ _ ih | write _ ih => exact ih raises

/-- Either the stage is an action that refuses by itself, or it leads to a call that does. -/
def Stage.Explained (symbols : Symbols σ ν) (nesting : Nat) (fault : Fault) (reached : Reader σ)
    (stage : Stage σ ν) : Prop :=
  (∃ room doing, stage.task = .action room doing ∧
    doing.Refuses symbols nesting room fault reached stage.start) ∨
  ∃ call, ReflTransGen (Stage.Leads symbols nesting) stage call ∧
  call.Blamed symbols nesting fault reached

namespace Stage.Explained

variable {stage later : Stage σ ν}

theorem of_leads (leads : Stage.Leads symbols nesting stage later)
    (called :
      ∃ call, ReflTransGen (Stage.Leads symbols nesting) later call ∧
      call.Blamed symbols nesting fault reached) :
    stage.Explained symbols nesting fault reached := by
  rcases called with ⟨call, reaches, blamed⟩
  exact .inr ⟨call, .head leads reaches, blamed⟩

theorem called (explained : stage.Explained symbols nesting fault reached)
    (blamed : ∀ room doing, stage.task = .action room doing →
      doing.Refuses symbols nesting room fault reached stage.start →
      stage.Blamed symbols nesting fault reached) :
    ∃ call, ReflTransGen (Stage.Leads symbols nesting) stage call ∧
    call.Blamed symbols nesting fault reached := by
  rcases explained with ⟨room, doing, same, refuses⟩ | called
  · exact ⟨stage, .refl, blamed room doing same refuses⟩
  · exact called

theorem of_rest {first rest : Action σ ν (Option ν)} {after : Reader σ}
    (leads : Stage.Leads symbols nesting ⟨.action room first, reader⟩ ⟨.action room rest, after⟩)
    (refuses : rest.Refuses symbols nesting room fault reached after →
      first.Refuses symbols nesting room fault reached reader)
    (explained : Stage.Explained symbols nesting fault reached ⟨.action room rest, after⟩) :
    Stage.Explained symbols nesting fault reached ⟨.action room first, reader⟩ := by
  rcases explained with ⟨_, _, same, refused⟩ | called
  · obtain ⟨rfl, rfl⟩ := Task.action.inj same
    exact .inl ⟨_, _, rfl, refuses refused⟩
  · exact of_leads leads called

end Stage.Explained

/-- A rule that is called refuses, or leads to a call that does. -/
theorem Course.explained {task : Task σ ν} {calls : List Call}
    {ending : Except Fault (Option ν) × Reader σ}
    (course : Course symbols nesting task reader calls ending)
    (failed : ending = (.error fault, reached)) (own : ¬ Reader.Finds fault)
    (readable : .error fault ∉ reader.remaining) :
    Stage.Explained symbols nesting fault reached ⟨task, reader⟩ := by
  induction course with
  | loose | give => simp at failed
  | limit =>
    obtain ⟨rfl, rfl⟩ := failed
    exact absurd trivial own
  | unopened refused =>
    obtain ⟨rfl, rfl⟩ := failed
    exact absurd (Reader.finds_of_takeOpening refused) (not_or.2 ⟨own, readable⟩)
  | unfollowed _ refused =>
    obtain ⟨rfl, rfl⟩ := failed
    exact absurd (Reader.finds_of_takeFollowing refused) (not_or.2 ⟨own, readable⟩)
  | unclosed refused =>
    obtain ⟨rfl, rfl⟩ := failed
    exact absurd (Reader.finds_of_advance refused) (not_or.2 ⟨own, readable⟩)
  | openingFailed taken _ ih =>
    have found := (Reader.takeOpening_eq_ok taken).2
    have explained :=
      ih failed (Reader.not_mem_remaining readable (Reader.remaining_of_takeOpening taken).1)
    refine .of_leads (.opening taken) (explained.called ?_)
    rintro _ _ ⟨⟩ refuses
    exact .opening found refuses
  | opened taken ran _ _ ih =>
    have begun := Reader.not_mem_remaining readable (Reader.remaining_of_takeOpening taken).1
    have explained := ih failed (Reader.not_mem_remaining begun ran.takes.split)
    exact .of_leads (.opened taken ran.step_eq) (explained.called nofun)
  | followingFailed tighter taken _ ih =>
    have found := (Reader.takeFollowing_eq_ok taken).2
    have explained :=
      ih failed (Reader.not_mem_remaining readable (Reader.remaining_of_takeFollowing taken).1)
    refine .of_leads (.following tighter taken) (explained.called ?_)
    rintro _ _ ⟨⟩ refuses
    exact .following found refuses
  | followed tighter taken ran _ _ ih =>
    have begun := Reader.not_mem_remaining readable (Reader.remaining_of_takeFollowing taken).1
    have explained := ih failed (Reader.not_mem_remaining begun ran.takes.split)
    exact .of_leads (.followed tighter taken ran.step_eq) (explained.called nofun)
  | refuse =>
    obtain ⟨rfl, rfl⟩ := failed
    exact .inl ⟨_, _, rfl, .refuse⟩
  | operandFailed _ ih => exact .of_leads .operand ((ih failed readable).called nofun)
  | operand read _ _ ih =>
    have explained := ih failed (Reader.not_mem_remaining readable read.takes.split)
    exact .of_rest (.supplied read.step_eq) (.operand read.step_eq) explained
  | close held passed _ ih =>
    have explained :=
      ih failed (Reader.not_mem_remaining readable (Reader.remaining_of_advance held passed))
    exact .of_rest (.close passed) (.close passed) explained
  | atEnd _ ih => exact .of_rest .atEnd .atEnd (ih failed readable)
  | read _ ih => exact .of_rest .read .read (ih failed readable)
  | write _ ih => exact .of_rest .write .write (ih failed readable)

theorem Courses.exists_blamed {calls : List Call} {ending : Except Fault (List ν) × Reader σ}
    (courses : Courses symbols nesting reader calls ending)
    (failed : ending = (.error fault, reached)) (own : ¬ Reader.Finds fault)
    (readable : .error fault ∉ reader.remaining) :
    ∃ call, Reader.Visits symbols nesting reader call ∧
    call.Blamed symbols nesting fault reached := by
  induction courses with
  | finished | more => simp at failed
  | failed goes_on stopped =>
    obtain ⟨rfl, rfl⟩ := failed
    rcases (stopped.explained rfl own readable).called nofun with ⟨call, reaches, blamed⟩
    exact ⟨call, .now goes_on reaches, blamed⟩
  | laterFailed goes_on read _ ih =>
    rcases ih failed (Reader.not_mem_remaining readable read.takes.split)
      with ⟨call, visits, blamed⟩
    exact ⟨call, .later goes_on read.step_eq visits, blamed⟩

/-- A run that fails, but not for its tokens, has come to the call of a rule that has refused. -/
theorem Reader.exists_blamed_of_parse
    (failed : parse symbols nesting reader = (.error fault, reached)) (own : ¬ Finds fault)
    (readable : .error fault ∉ reader.remaining) :
    ∃ call, reader.Meets symbols nesting call ∧ call.Blamed symbols nesting fault reached := by
  rcases WholeCourse.exists_of_parse symbols nesting reader with ⟨calls, course⟩
  rw [failed] at course
  cases course with
  | unbegun refused => exact absurd (finds_of_advance refused) (not_or.2 ⟨own, readable⟩)
  | begun passed courses =>
    rcases exists_of_advance passed with ⟨rest, pending, rfl⟩
    have unread (inside : .error fault ∈ reader.pending) : False :=
      readable (List.mem_append_right _ inside)
    rcases courses.exists_blamed rfl own fun inside => unread (pending ▸ inside)
      with ⟨call, visits, blamed⟩
    exact ⟨call, ⟨_, _, passed, visits⟩, blamed⟩

end FactGraph.Precedence
