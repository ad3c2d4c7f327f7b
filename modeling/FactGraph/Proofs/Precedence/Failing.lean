import FactGraph.Proofs.Precedence.Running
import FactGraph.Proofs.Precedence.Stage

/-! Why a run fails. If the rules account for what they refuse with, the faults of whole runs are
accounted for: every other one is the reader's own, and names a token that it has at hand, or is
among the outcomes of reading the source. -/

namespace FactGraph

namespace Precedence

variable {σ ν α β : Type} {inv : σ → Prop} {good : ν → Prop} {fine : Token → Prop}
  {owns unread : Fault → Prop} {ends : α → Prop} {done : β → Prop}

namespace Action

/-- The action keeps what is to be kept, and the faults that it refuses with are owned. -/
inductive Accounts (inv : σ → Prop) (good : ν → Prop) (owns : Fault → Prop) (ends : α → Prop) :
    Action σ ν α → Prop
  | give {value : α} (holds : ends value) : Accounts inv good owns ends (give value)
  | refuse {fault : Fault} (owned : owns fault) : Accounts inv good owns ends (refuse fault)
  | operand {power : Nat} {next : Option ν → Action σ ν α}
      (rest : ∀ value, Each good value → Accounts inv good owns ends (next value)) :
      Accounts inv good owns ends (operand power next)
  | close {kind : Token.Kind} {next : Action σ ν α} (rest : Accounts inv good owns ends next) :
      Accounts inv good owns ends (close kind next)
  | atEnd {next : Bool → Action σ ν α}
      (rest : ∀ answer, Accounts inv good owns ends (next answer)) :
      Accounts inv good owns ends (atEnd next)
  | read {next : σ → Action σ ν α} (rest : ∀ state, inv state →
        Accounts inv good owns ends (next state)) :
      Accounts inv good owns ends (read next)
  | write {state : σ} {next : Action σ ν α} (kept : inv state)
      (rest : Accounts inv good owns ends next) :
      Accounts inv good owns ends (write state next)

namespace Accounts

theorem keeps {action : Action σ ν α} (accounts : action.Accounts inv good owns ends) :
    action.Keeps inv good ends := by
  induction accounts with
  | give holds => exact .give holds
  | refuse => exact .refuse
  | operand _ ih => exact .operand ih
  | close _ ih => exact .close ih
  | atEnd _ ih => exact .atEnd ih
  | read _ ih => exact .read ih
  | write kept _ ih => exact .write kept ih

theorem bind {action : Action σ ν α} {next : α → Action σ ν β}
    (first : action.Accounts inv good owns ends)
    (second : ∀ value, ends value → (next value).Accounts inv good owns done) :
    (action >>= next).Accounts inv good owns done := by
  rw [bind_eq]
  induction first with
  | give holds => exact second _ holds
  | refuse owned => exact .refuse owned
  | operand _ ih => exact .operand ih
  | close _ ih => exact .close ih
  | atEnd _ ih => exact .atEnd ih
  | read _ ih => exact .read ih
  | write kept _ ih => exact .write kept ih

theorem pure {value : α} (holds : ends value) :
    (Pure.pure value : Action σ ν α).Accounts inv good owns ends :=
  .give holds

theorem expression (power : Nat) :
    (Action.expression power : Action σ ν (Option ν)).Accounts inv good owns (Each good) :=
  .operand fun _ holds => .give holds

theorem pass (kind : Token.Kind) :
    (Action.pass kind : Action σ ν Unit).Accounts inv good owns fun _ => True :=
  .close (.give trivial)

theorem ended : (Action.ended : Action σ ν Bool).Accounts inv good owns fun _ => True :=
  .atEnd fun _ => .give trivial

theorem state : (Action.state : Action σ ν σ).Accounts inv good owns inv :=
  .read fun _ kept => .give kept

theorem perform {step : Attempt σ α} (keeps : Attempt.Keeps inv step ends)
    (owned : ∀ state fault, inv state → (step state).1 = .error fault → owns fault) :
    (Action.perform step : Action σ ν α).Accounts inv good owns ends := by
  apply read
  intro current kept
  have stepped := keeps current kept
  rcases run : step current with ⟨fault | value, after⟩
  · rw [run] at stepped
    exact .write stepped.1 (.refuse (owned current fault kept (congrArg Prod.fst run)))
  · rw [run] at stepped
    exact .write stepped.1 (.give (stepped.2 value rfl))

end Accounts

end Action

structure Symbols.Account (symbols : Symbols σ ν) (inv : σ → Prop) (good : ν → Prop)
    (fine : Token → Prop) (owns : Fault → Prop) : Prop where
  opening (token : Token) (rule : Opening σ ν) :
      fine token → symbols.opening? token.kind = some rule →
    (rule token).Accounts inv good owns (Each good)
  following (token : Token) (rule : Following σ ν) (left : Option ν) : fine token →
    symbols.following? token.kind = some rule → Each good left →
    (rule token left).Accounts inv good owns (Each good)

theorem Symbols.Account.keep {symbols : Symbols σ ν}
    (account : symbols.Account inv good fine owns) :
    symbols.Keep inv good fine where
  opening token rule here found := (account.opening token rule here found).keeps
  following token rule left here found holds :=
    (account.following token rule left here found holds).keeps

end Precedence

def Token.Finished (outcomes : List (Except Fault Token)) : Prop :=
  ∃ last ∈ outcomes.getLast?, ∀ token, last = .ok token → token.kind = .endOfInput

theorem Token.Finished.of_append {front outcomes : List (Except Fault Token)}
    (finished : Finished (front ++ outcomes)) (more : outcomes ≠ []) : Finished outcomes := by
  rcases finished with ⟨last, within, ends⟩
  rw [List.getLast?_append, Option.or_of_isSome (by simpa using more)] at within
  exact ⟨last, within, ends⟩

namespace Precedence

variable {σ ν : Type} {inv : σ → Prop} {good : ν → Prop} {fine : Token → Prop}
  {unread owns : Fault → Prop}

namespace Reader

/-- The faults of a run: of an outcome that is no token, of a token at hand, of the limit, and of
the rules. -/
inductive Raised (symbols : Symbols σ ν) (nesting : Nat) (fine : Token → Prop)
    (unread owns : Fault → Prop) :
    Fault → Prop
  | unread {fault : Fault} (pending : unread fault) : Raised symbols nesting fine unread owns fault
  | pastEnd {token : Token} (here : fine token) :
      Raised symbols nesting fine unread owns (.pastEnd token.span.position)
  | mismatch {token : Token} (kind : Token.Kind) (here : fine token) :
      Raised symbols nesting fine unread owns
        (.mismatch kind.name token.describe token.span.position)
  | unopened {token : Token} (here : fine token) : Raised symbols nesting fine unread owns
      (.unexpected "expression" symbols.openingNames token.describe token.span.position)
  | unfollowed {token : Token} (here : fine token) : Raised symbols nesting fine unread owns
      (.unexpected "operator" symbols.followingNames token.describe token.span.position)
  | limit : Raised symbols nesting fine unread owns (.limit (.nesting nesting))
  | refused {fault : Fault} (owned : owns fault) : Raised symbols nesting fine unread owns fault

structure Fed (inv : σ → Prop) (fine : Token → Prop) (unread : Fault → Prop) (reader : Reader σ) :
    Prop where
  sound : reader.Sound inv fine
  unread (fault : Fault) : .error fault ∈ reader.pending → unread fault
  finished : Token.Finished reader.remaining

theorem Fed.of_append {reader after : Reader σ} {front : List (Except Fault Token)}
    (fed : reader.Fed inv fine unread) (sound : after.Sound inv fine)
    (split : reader.remaining = front ++ after.remaining) (holds : after.current.isSome) :
    after.Fed inv fine unread := by
  have more : after.remaining ≠ [] := by
    rcases Option.isSome_iff_exists.mp holds with ⟨token, current⟩
    simp [remaining, current]
  have finished : Token.Finished (front ++ after.remaining) := split ▸ fed.finished
  refine ⟨sound, ?_, finished.of_append more⟩
  intro fault inside
  have within : .error fault ∈ reader.remaining := by
    rw [split]
    exact List.mem_append_right _ (List.mem_append_right _ inside)
  apply fed.unread
  simpa [remaining] using within

variable {symbols : Symbols σ ν} {nesting : Nat} {reader after : Reader σ}
  {expected : Option Token.Kind} {token : Token} {fault : Fault}

theorem advance_raised (complete : Complete symbols) (fed : reader.Fed inv fine unread)
    (failed : advance symbols expected reader = (.error fault, after)) :
    Raised symbols nesting fine unread owns fault := by
  unfold advance at failed
  split at failed
  · next stopped =>
    obtain rfl := Except.error.inj (congrArg Prod.fst failed)
    unfold obstacle? at stopped
    split at stopped
    · contradiction
    · next here =>
      have own := fed.sound.current _ here
      split at stopped
      · exact Option.some.inj stopped ▸ .pastEnd own
      · split at stopped
        · contradiction
        · next kind =>
          split at stopped
          · contradiction
          · exact Option.some.inj stopped ▸ .mismatch kind own
  · next free =>
    split at failed
    · next pending =>
      rcases fed.finished with ⟨last, within, ends⟩
      rw [remaining, pending, List.append_nil] at within
      rcases current : reader.current with _ | held
      · simp [current] at within
      -- The token at hand is the last one, and stands in the way.
      · have closes : held.kind = .endOfInput :=
          ends held (by simpa [current, eq_comm] using within)
        simp [obstacle?, current, closes] at free
    · next other rest pending =>
      obtain rfl := Except.error.inj (congrArg Prod.fst failed)
      exact .unread (fed.unread _ (pending ▸ List.mem_cons_self))
    · next pending =>
      rw [if_pos (complete _)] at failed
      simp at failed

theorem Fed.of_advance (fed : reader.Fed inv fine unread)
    (passed : advance symbols expected reader = (.ok token, after)) :
    after.Fed inv fine unread ∧ after.current.isSome := by
  have kept := (advance_keeps symbols expected).of_ok fed.sound passed
  rcases exists_of_advance passed with ⟨later, pending, rfl⟩
  have split : reader.remaining = reader.current.toList.map .ok ++ .ok token :: later := by
    rw [remaining, pending]
  exact ⟨fed.of_append kept.1 split rfl, rfl⟩

theorem Fed.of_take (fed : reader.Fed inv fine unread)
    (taken : take symbols reader = (.ok token, after)) :
    after.Fed inv fine unread ∧ fine token := by
  have kept := (take_keeps symbols).of_ok fed.sound taken
  rcases remaining_of_take taken with ⟨same, holds⟩
  have split : reader.remaining = [.ok token] ++ after.remaining := same
  exact ⟨fed.of_append kept.1 split holds, kept.2⟩

theorem take_raised (complete : Complete symbols) (fed : reader.Fed inv fine unread)
    (failed : take symbols reader = (.error fault, after)) :
    Raised symbols nesting fine unread owns fault := by
  rcases take_eq_error failed with stopped | ⟨held, middle, holding, stopped⟩
  · exact advance_raised complete fed (advance_of_hold_eq_error stopped)
  · have kept := (hold_keeps symbols).of_ok fed.sound holding
    rcases remaining_of_hold holding with ⟨same, current⟩
    have split : reader.remaining = [] ++ middle.remaining := same
    have fed_middle : middle.Fed inv fine unread := fed.of_append kept.1 split (current ▸ rfl)
    exact advance_raised complete fed_middle stopped

theorem takeOpening_raised (complete : Complete symbols) (fed : reader.Fed inv fine unread)
    (failed : takeOpening symbols reader = (.error fault, after)) :
    Raised symbols nesting fine unread owns fault := by
  rcases takeOpening_eq_error failed with stopped | ⟨token, middle, taken, rfl⟩
  · exact take_raised complete fed stopped
  · exact .unopened (fed.of_take taken).2

theorem takeFollowing_raised (complete : Complete symbols) (fed : reader.Fed inv fine unread)
    (failed : takeFollowing symbols reader = (.error fault, after)) :
    Raised symbols nesting fine unread owns fault := by
  rcases takeFollowing_eq_error failed with stopped | ⟨token, middle, taken, rfl⟩
  · exact take_raised complete fed stopped
  · exact .unfollowed (fed.of_take taken).2

end Reader

def Task.Ready (inv : σ → Prop) (good : ν → Prop) (owns : Fault → Prop) : Task σ ν → Prop
  | .expression _ _ => True
  | .action _ doing => doing.Accounts inv good owns (Each good)
  | .follow _ _ left => Each good left

variable {symbols : Symbols σ ν} {nesting : Nat} {task : Task σ ν} {reader reached : Reader σ}
  {calls : List Call} {fault : Fault} {value : Option ν}

theorem Task.Ready.keeps (account : symbols.Account inv good fine owns)
    (ready : task.Ready inv good owns) :
    Attempt.Keeps (Reader.Sound inv fine) (task.step symbols nesting) (Each good) := by
  apply task.keeps account.keep nesting
  · rintro room doing rfl
    exact Action.Accounts.keeps ready
  · rintro room power left rfl
    exact ready

theorem Course.fed (course : Course symbols nesting task reader calls (.ok value, reached))
    (account : symbols.Account inv good fine owns) (ready : task.Ready inv good owns)
    (fed : reader.Fed inv fine unread) (holds : reader.current.isSome) :
    reached.Fed inv fine unread ∧ reached.current.isSome ∧ Each good value := by
  have kept := (ready.keeps account).of_ok fed.sound course.step_eq
  have at_hand := course.held ⟨value, rfl⟩ holds
  exact ⟨fed.of_append kept.1 course.takes.split at_hand, at_hand, kept.2⟩

/-- By induction on the course: up to the step that fails, the reader is fed and the rules are given
what they may take for granted. -/
theorem Course.raised (complete : Reader.Complete symbols)
    (account : symbols.Account inv good fine owns) {ending : Except Fault (Option ν) × Reader σ}
    (course : Course symbols nesting task reader calls ending) (ready : task.Ready inv good owns)
    (fed : reader.Fed inv fine unread) (holds : reader.current.isSome)
    (failed : ending.1 = .error fault) : Reader.Raised symbols nesting fine unread owns fault := by
  induction course with
  | limit => exact Except.error.inj failed ▸ .limit
  | unopened refused =>
    exact Except.error.inj failed ▸ Reader.takeOpening_raised complete fed refused
  | unfollowed _ refused =>
    exact Except.error.inj failed ▸ Reader.takeFollowing_raised complete fed refused
  | unclosed refused => exact Except.error.inj failed ▸ Reader.advance_raised complete fed refused
  | refuse =>
    cases ready with
    | refuse owned => exact Except.error.inj failed ▸ .refused owned
  | loose | give => cases failed
  | openingFailed taken _ ih =>
    rcases Reader.takeOpening_eq_ok taken with ⟨took, found⟩
    rcases fed.of_take took with ⟨after, here⟩
    exact ih (account.opening _ _ here found) after (Reader.remaining_of_take took).2 failed
  | opened taken ran _ _ ih =>
    rcases Reader.takeOpening_eq_ok taken with ⟨took, found⟩
    rcases fed.of_take took with ⟨after, here⟩
    have ready := account.opening _ _ here found
    rcases ran.fed account ready after (Reader.remaining_of_take took).2 with ⟨reached, holds, left⟩
    exact ih left reached holds failed
  | followingFailed _ taken _ ih =>
    rcases Reader.takeFollowing_eq_ok taken with ⟨took, found⟩
    rcases fed.of_take took with ⟨after, here⟩
    exact ih (account.following _ _ _ here found ready) after
      (Reader.remaining_of_take took).2 failed
  | followed _ taken ran _ _ ih =>
    rcases Reader.takeFollowing_eq_ok taken with ⟨took, found⟩
    rcases fed.of_take took with ⟨after, here⟩
    have ready := account.following _ _ _ here found ready
    rcases ran.fed account ready after (Reader.remaining_of_take took).2 with ⟨reached, holds, left⟩
    exact ih left reached holds failed
  | operandFailed _ ih => exact ih trivial fed holds failed
  | operand read _ _ ih =>
    cases ready with
    | operand rest =>
      rcases read.fed account trivial fed holds with ⟨reached, holds, value⟩
      exact ih (rest _ value) reached holds failed
  | close _ passed _ ih =>
    cases ready with
    | close rest =>
      rcases fed.of_advance passed with ⟨after, holds⟩
      exact ih rest after holds failed
  | atEnd _ ih =>
    cases ready with
    | atEnd rest => exact ih (rest _) fed holds failed
  | read _ ih =>
    cases ready with
    | read rest => exact ih (rest _ fed.sound.state) fed holds failed
  | write _ ih =>
    cases ready with
    | write kept rest =>
      exact ih rest ⟨⟨kept, fed.sound.current, fed.sound.pending⟩, fed.unread,
        fed.finished⟩ holds failed

theorem Courses.raised (complete : Reader.Complete symbols)
    (account : symbols.Account inv good fine owns) {ending : Except Fault (List ν) × Reader σ}
    (courses : Courses symbols nesting reader calls ending) (fed : reader.Fed inv fine unread)
    (holds : reader.current.isSome) (failed : ending.1 = .error fault) :
    Reader.Raised symbols nesting fine unread owns fault := by
  induction courses with
  | finished | more => cases failed
  | failed _ stopped =>
    exact stopped.raised complete account trivial fed holds (congrArg _ (Except.error.inj failed))
  | laterFailed _ read _ ih =>
    rcases read.fed account trivial fed holds with ⟨reached, holds, _⟩
    exact ih reached holds failed

/-- A run that fails, fails for one of these reasons, if the rules of all kinds own the faults that
they refuse with. -/
theorem Reader.parse_raised (complete : Complete symbols)
    (account : symbols.Account inv good fine owns) (fed : reader.Fed inv fine unread)
    (failed : parse symbols nesting reader = (.error fault, reached)) :
    Raised symbols nesting fine unread owns fault := by
  rcases WholeCourse.exists_of_parse symbols nesting reader with ⟨calls, course⟩
  rw [failed] at course
  cases course with
  | unbegun refused => exact advance_raised complete fed refused
  | begun passed rest =>
    rcases fed.of_advance passed with ⟨after, holds⟩
    exact rest.raised complete account after holds rfl

end Precedence

end FactGraph
