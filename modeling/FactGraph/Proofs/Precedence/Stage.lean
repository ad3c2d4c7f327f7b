import FactGraph.Proofs.Precedence.Course
import FactGraph.Proofs.Precedence.Contract
import Mathlib.Logic.Relation

/-! The stages of a run: what there is to do at a point of it, and with which reader. A stage that
fails fails all that have led to it. -/

namespace FactGraph.Precedence

open Relation (ReflTransGen)
open Reader (takeOpening takeFollowing advance)

theorem Task.keeps {σ ν : Type} {symbols : Symbols σ ν} {inv : σ → Prop} {good : ν → Prop}
    {fine : Token → Prop} (keep : symbols.Keep inv good fine) (nesting : Nat) (task : Task σ ν)
    (action : ∀ {room doing}, task = .action room doing → doing.Keeps inv good (Each good))
    (follow : ∀ {room power left}, task = .follow room power left → Each good left) :
    Attempt.Keeps (Reader.Sound inv fine) (task.step symbols nesting) (Each good) := by
  have operands (room power : Nat) := Reader.expressionWithin_keeps keep nesting room power
  cases task with
  | expression room power => exact operands room power
  | action room doing => exact Reader.run_keeps symbols (operands room) (action rfl)
  | follow room power left =>
    intro other kept
    exact Reader.followWithin_keeps keep (operands room) power other.pending.length left
      (follow rfl) other kept

structure Stage (σ ν : Type) where
  task : Task σ ν
  start : Reader σ

namespace Stage

variable {σ ν : Type}

def ending (symbols : Symbols σ ν) (nesting : Nat) (stage : Stage σ ν) :
    Except Fault (Option ν) × Reader σ :=
  stage.task.step symbols nesting stage.start

/-- To come through the first stage, a run has to come through the second. -/
inductive Leads (symbols : Symbols σ ν) (nesting : Nat) : Stage σ ν → Stage σ ν → Prop
  | opening {reader after : Reader σ} {token : Token} {rule : Opening σ ν} {room power : Nat}
      (taken : takeOpening symbols reader = (.ok (token, rule), after)) :
      Leads symbols nesting ⟨.expression (room + 1) power, reader⟩
        ⟨.action room (rule token), after⟩
  | opened {reader after : Reader σ} {token : Token} {rule : Opening σ ν} {room : Nat}
      {reached : Reader σ} {left : Option ν} {power : Nat}
      (taken : takeOpening symbols reader = (.ok (token, rule), after))
      (ran : ending symbols nesting ⟨.action room (rule token), after⟩ = (.ok left, reached)) :
      Leads symbols nesting ⟨.expression (room + 1) power, reader⟩
        ⟨.follow room power left, reached⟩
  | following {power : Nat} {reader after : Reader σ} {token : Token} {rule : Following σ ν}
      {room : Nat} {left : Option ν} (tighter : power < reader.power symbols)
      (taken : takeFollowing symbols reader = (.ok (token, rule), after)) :
      Leads symbols nesting ⟨.follow room power left, reader⟩
        ⟨.action room (rule token left), after⟩
  | followed {power : Nat} {reader after : Reader σ} {token : Token} {rule : Following σ ν}
      {room : Nat} {left : Option ν} {reached : Reader σ} {value : Option ν}
      (tighter : power < reader.power symbols)
      (taken : takeFollowing symbols reader = (.ok (token, rule), after))
      (ran : ending symbols nesting ⟨.action room (rule token left), after⟩ =
        (.ok value, reached)) :
      Leads symbols nesting ⟨.follow room power left, reader⟩ ⟨.follow room power value, reached⟩
  | operand {room power : Nat} {next : Option ν → Action σ ν (Option ν)} {reader : Reader σ} :
      Leads symbols nesting ⟨.action room (.operand power next), reader⟩
        ⟨.expression room power, reader⟩
  | supplied {room power : Nat} {reader reached : Reader σ} {value : Option ν}
      {next : Option ν → Action σ ν (Option ν)}
      (read : ending symbols nesting ⟨.expression room power, reader⟩ = (.ok value, reached)) :
      Leads symbols nesting ⟨.action room (.operand power next), reader⟩
        ⟨.action room (next value), reached⟩
  | close {kind : Token.Kind} {reader after : Reader σ} {other : Token} {room : Nat}
      {next : Action σ ν (Option ν)}
      (passed : advance symbols (some kind) reader = (.ok other, after)) :
      Leads symbols nesting ⟨.action room (.close kind next), reader⟩ ⟨.action room next, after⟩
  | atEnd {room : Nat} {next : Bool → Action σ ν (Option ν)} {reader : Reader σ} :
      Leads symbols nesting ⟨.action room (.atEnd next), reader⟩
        ⟨.action room (next reader.atConstructEnd), reader⟩
  | read {room : Nat} {next : σ → Action σ ν (Option ν)} {reader : Reader σ} :
      Leads symbols nesting ⟨.action room (.read next), reader⟩
        ⟨.action room (next reader.state), reader⟩
  | write {room : Nat} {state : σ} {next : Action σ ν (Option ν)} {reader : Reader σ} :
      Leads symbols nesting ⟨.action room (.write state next), reader⟩
        ⟨.action room next, { reader with state }⟩

variable {symbols : Symbols σ ν} {nesting : Nat} {stage later : Stage σ ν}

/-- The later stage is all that is left to do, or else there is something to do with its answer. -/
theorem Leads.ending_eq (leads : Leads symbols nesting stage later) :
    stage.ending symbols nesting = later.ending symbols nesting ∨
      ∃ rest : Option ν → Task σ ν,
        stage.ending symbols nesting =
          (later.task.step symbols nesting >>= fun value =>
            (rest value).step symbols nesting) later.start ∧
        ∀ value reached, later.ending symbols nesting = (.ok value, reached) →
          Leads symbols nesting stage ⟨rest value, reached⟩ := by
  cases leads with
  | opening taken =>
    exact .inr ⟨_, Task.step_of_takeOpening taken, fun _ _ ran => .opened taken ran⟩
  | opened taken ran => exact .inl ((Task.step_of_takeOpening taken).trans (Attempt.bind_ok ran))
  | following tighter taken =>
    exact .inr ⟨_, Task.step_of_takeFollowing tighter taken,
      fun _ _ ran => .followed tighter taken ran⟩
  | followed tighter taken ran =>
    exact .inl ((Task.step_of_takeFollowing tighter taken).trans (Attempt.bind_ok ran))
  | @operand room power next =>
    exact .inr ⟨fun value => .action room (next value), rfl, fun _ _ read => .supplied read⟩
  | supplied read => exact .inl (Attempt.bind_ok read)
  | close passed => exact .inl (Attempt.bind_ok passed)
  | atEnd | read | write => exact .inl rfl

theorem ending_of_leads_error {fault : Fault} {reached : Reader σ}
    (leads : Leads symbols nesting stage later)
    (failed : later.ending symbols nesting = (.error fault, reached)) :
    stage.ending symbols nesting = (.error fault, reached) := by
  rcases leads.ending_eq with same | ⟨rest, whole, _⟩
  · rw [same, failed]
  · rw [whole, Attempt.bind_error failed]

theorem ending_of_reaches_error {fault : Fault} {reached : Reader σ}
    (reaches : ReflTransGen (Leads symbols nesting) stage later)
    (failed : later.ending symbols nesting = (.error fault, reached)) :
    stage.ending symbols nesting = (.error fault, reached) := by
  induction reaches using ReflTransGen.head_induction_on with
  | refl => exact failed
  | head leads _ ih => exact ending_of_leads_error leads ih

section Soundness

variable {inv : σ → Prop} {good : ν → Prop} {fine : Token → Prop}

structure Sound (inv : σ → Prop) (good : ν → Prop) (fine : Token → Prop) (stage : Stage σ ν) :
    Prop where
  reader : Reader.Sound inv fine stage.start
  action {room : Nat} {doing : Action σ ν (Option ν)} : stage.task = .action room doing →
    doing.Keeps inv good (Each good)
  follow {room power : Nat} {left : Option ν} :
      stage.task = .follow room power left → Each good left

namespace Sound

theorem expression {room power : Nat} {reader : Reader σ} (sound : reader.Sound inv fine) :
    Stage.Sound inv good fine ⟨.expression room power, reader⟩ :=
  ⟨sound, nofun, nofun⟩

theorem ofAction {room : Nat} {doing : Action σ ν (Option ν)} {reader : Reader σ}
    (sound : reader.Sound inv fine) (keeps : doing.Keeps inv good (Each good)) :
    Stage.Sound inv good fine ⟨.action room doing, reader⟩ where
  reader := sound
  action same := (Task.action.inj same).2 ▸ keeps
  follow := nofun

theorem ofFollow {room power : Nat} {left : Option ν} {reader : Reader σ}
    (sound : reader.Sound inv fine) (holds : Each good left) :
    Stage.Sound inv good fine ⟨.follow room power left, reader⟩ where
  reader := sound
  action := nofun
  follow same := (Task.follow.inj same).2.2 ▸ holds

variable (keep : symbols.Keep inv good fine)

include keep

theorem keeps (nesting : Nat) (sound : stage.Sound inv good fine) :
    (stage.ending symbols nesting).2.Sound inv fine ∧
      ∀ value, (stage.ending symbols nesting).1 = .ok value → Each good value :=
  stage.task.keeps keep nesting sound.action sound.follow stage.start sound.reader

theorem ends {value : Option ν} {reached : Reader σ} (sound : stage.Sound inv good fine)
    (ended : stage.ending symbols nesting = (.ok value, reached)) :
    reached.Sound inv fine ∧ Each good value := by
  exact Attempt.Keeps.of_ok (stage.task.keeps keep nesting sound.action sound.follow)
    sound.reader ended

theorem opening {room : Nat} {reader after : Reader σ} {token : Token} {rule : Opening σ ν}
    (sound : reader.Sound inv fine)
    (taken : takeOpening symbols reader = (.ok (token, rule), after)) :
    Stage.Sound inv good fine ⟨.action room (rule token), after⟩ := by
  rcases Reader.takeOpening_eq_ok taken with ⟨first, found⟩
  rcases (Reader.take_keeps symbols).of_ok sound first with ⟨reached, here⟩
  exact .ofAction reached (keep.opening token rule here found)

theorem following {room : Nat} {left : Option ν} {reader after : Reader σ} {token : Token}
    {rule : Following σ ν} (sound : reader.Sound inv fine) (holds : Each good left)
    (taken : takeFollowing symbols reader = (.ok (token, rule), after)) :
    Stage.Sound inv good fine ⟨.action room (rule token left), after⟩ := by
  rcases Reader.takeFollowing_eq_ok taken with ⟨first, found⟩
  rcases (Reader.take_keeps symbols).of_ok sound first with ⟨reached, here⟩
  exact .ofAction reached (keep.following token rule left here found holds)

theorem of_leads (sound : stage.Sound inv good fine) (leads : Leads symbols nesting stage later) :
    later.Sound inv good fine := by
  cases leads with
  | opening taken => exact opening keep sound.reader taken
  | opened taken ran =>
    rcases (opening keep sound.reader taken).ends keep ran with ⟨reached, holds⟩
    exact .ofFollow reached holds
  | following _ taken => exact following keep sound.reader (sound.follow rfl) taken
  | followed _ taken ran =>
    rcases (following keep sound.reader (sound.follow rfl) taken).ends keep ran
      with ⟨reached, holds⟩
    exact .ofFollow reached holds
  | operand => exact .expression sound.reader
  | supplied read =>
    rcases (Sound.expression sound.reader).ends keep read with ⟨reached, holds⟩
    cases sound.action rfl with
    | operand rest => exact .ofAction reached (rest _ holds)
  | close passed =>
    cases sound.action rfl with
    | close rest =>
      exact .ofAction ((Reader.advance_keeps symbols _).of_ok sound.reader passed).1 rest
  | atEnd =>
    cases sound.action rfl with
    | atEnd rest => exact .ofAction sound.reader (rest _)
  | read =>
    cases sound.action rfl with
    | read rest => exact .ofAction sound.reader (rest _ sound.reader.state)
  | write =>
    cases sound.action rfl with
    | write kept rest => exact .ofAction ⟨kept, sound.reader.current, sound.reader.pending⟩ rest

theorem of_reaches (sound : stage.Sound inv good fine)
    (reaches : ReflTransGen (Leads symbols nesting) stage later) :
    later.Sound inv good fine := by
  induction reaches with
  | refl => exact sound
  | tail _ leads ih => exact ih.of_leads keep leads

end Sound

end Soundness

end Stage

namespace Reader

/-- On its way through the expressions up to the end of the input, the reader comes to the stage. -/
inductive Visits (symbols : Symbols σ ν) (nesting : Nat) : Reader σ → Stage σ ν → Prop
  | now {reader : Reader σ} {stage : Stage σ ν} (goes_on : reader.atEndOfInput = false)
      (reaches : ReflTransGen (Stage.Leads symbols nesting) ⟨.expression nesting 0, reader⟩
        stage) :
      Visits symbols nesting reader stage
  | later {reader reached : Reader σ} {value : Option ν} {stage : Stage σ ν}
      (goes_on : reader.atEndOfInput = false)
      (read : (Task.expression nesting 0).step symbols nesting reader = (.ok value, reached))
      (rest : Visits symbols nesting reached stage) : Visits symbols nesting reader stage

def Meets (symbols : Symbols σ ν) (nesting : Nat) (reader : Reader σ) (stage : Stage σ ν) : Prop :=
  ∃ first after, advance symbols none reader = (.ok first, after) ∧
  Visits symbols nesting after stage

variable {symbols : Symbols σ ν} {nesting : Nat} {reader : Reader σ} {stage : Stage σ ν}

theorem Visits.leads {later : Stage σ ν} (visits : Visits symbols nesting reader stage)
    (leads : Stage.Leads symbols nesting stage later) : Visits symbols nesting reader later := by
  induction visits with
  | now goes_on reaches => exact .now goes_on (reaches.tail leads)
  | later goes_on read _ ih => exact .later goes_on read (ih leads)

theorem Meets.leads {later : Stage σ ν} (meets : reader.Meets symbols nesting stage)
    (leads : Stage.Leads symbols nesting stage later) : reader.Meets symbols nesting later := by
  obtain ⟨first, after, passed, visits⟩ := meets
  exact ⟨first, after, passed, visits.leads leads⟩

theorem Visits.sequence_eq_error {fault : Fault} {reached : Reader σ}
    (visits : Visits symbols nesting reader stage)
    (failed : stage.ending symbols nesting = (.error fault, reached)) :
    sequence symbols nesting reader = (.error fault, reached) := by
  induction visits with
  | now goes_on reaches =>
    rw [sequence_of_goes_on goes_on,
      Attempt.bind_error (Stage.ending_of_reaches_error reaches failed)]
  | later goes_on read _ ih =>
    rw [sequence_of_goes_on goes_on, Attempt.bind_ok read, Attempt.bind_error (ih failed)]

theorem Meets.parse_eq_error {fault : Fault} {reached : Reader σ}
    (meets : reader.Meets symbols nesting stage)
    (failed : stage.ending symbols nesting = (.error fault, reached)) :
    parse symbols nesting reader = (.error fault, reached) := by
  rcases meets with ⟨first, after, passed, visits⟩
  exact (Attempt.bind_ok passed).trans (visits.sequence_eq_error failed)

variable {inv : σ → Prop} {good : ν → Prop} {fine : Token → Prop}

theorem Visits.sound (keep : symbols.Keep inv good fine)
    (visits : Visits symbols nesting reader stage) (sound : reader.Sound inv fine) :
    stage.Sound inv good fine := by
  induction visits with
  | now _ reaches => exact (Stage.Sound.expression sound).of_reaches keep reaches
  | later _ read _ ih =>
    have first : Stage.Sound inv good fine ⟨.expression nesting 0, _⟩ := .expression sound
    exact ih (first.ends keep read).1

theorem Meets.sound (keep : symbols.Keep inv good fine) (meets : reader.Meets symbols nesting stage)
    (sound : reader.Sound inv fine) : stage.Sound inv good fine := by
  rcases meets with ⟨first, after, passed, visits⟩
  exact visits.sound keep ((advance_keeps symbols none).of_ok sound passed).1

end Reader

end FactGraph.Precedence
