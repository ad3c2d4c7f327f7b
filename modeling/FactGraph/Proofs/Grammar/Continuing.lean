import FactGraph.Proofs.Grammar.Growing
import FactGraph.Proofs.Grammar.Nesting
import FactGraph.Proofs.Grammar.Standing
import FactGraph.Proofs.Notation.Reading
import FactGraph.Proofs.Precedence.Stage

/-! Runs over a source and over one that goes on behind a semicolon. They go abreast of each other
up to there. Then the first comes to its end, and what rules are still open in it change the graph
only if one of them is that of a `=>`. -/

namespace FactGraph

open Precedence
open Token (Kind)

namespace Precedence

variable {σ ν : Type} {symbols : Symbols σ ν} {nesting room power : Nat}

namespace Action

theorem Does.of_course {doing : Action σ ν (Option ν)} {step : Attempt σ (Option ν)}
    (does : doing.Does step) {reader after : Reader σ} {calls : List Call} {value : Option ν}
    (course : Course symbols nesting (.action room doing) reader calls (.ok value, after)) :
    step reader.state = (.ok value, after.state) ∧
    after = { reader with state := after.state } ∧ calls = [] := by
  have ran := course.step_eq
  rw [Task.step, does] at ran
  rcases stepped : step reader.state with ⟨answer, state⟩
  rw [stepped] at ran
  obtain ⟨rfl, rfl⟩ := Prod.mk.inj ran
  have taken := course.takes.length
  simp only [Reader.remaining] at taken
  exact ⟨rfl, rfl, List.eq_nil_of_length_eq_zero (by omega)⟩

theorem Does.abreast {doing : Action σ ν (Option ν)} {step : Attempt σ (Option ν)}
    (does : doing.Does step) {reader after other : Reader σ} {calls : List Call} {value : Option ν}
    {beyond : List (Except Fault Token)}
    (course : Course symbols nesting (.action room doing) reader calls (.ok value, after))
    (abreast : reader.Abreast beyond other) :
    ∃ further, (Task.action room doing).step symbols nesting other = (.ok value, further) ∧
      after.Abreast beyond further := by
  rcases does.of_course course with ⟨stepped, same, _⟩
  refine ⟨{ other with state := after.state }, ?_, same ▸ abreast.with_state _⟩
  rw [Task.step, does, ← abreast.state_eq, stepped]

end Action

namespace Reader

theorem Ended.atConstructEnd {reader : Reader σ} (ended : reader.Ended) :
    reader.atConstructEnd = true := by
  rcases ended with ⟨last, held, ends⟩
  rw [Reader.atConstructEnd, Option.mem_def.1 held]
  simp [ends, Kind.endsConstruct]

theorem Ended.atEndOfInput {reader : Reader σ} (ended : reader.Ended) :
    reader.atEndOfInput = true := by
  rcases ended with ⟨last, held, ends⟩
  rw [Reader.atEndOfInput, Option.mem_def.1 held]
  simp [ends]

end Reader

end Precedence

namespace Grammar

open Reader (Abreast)
open Relation (ReflTransGen)

variable {citation nesting room power : Nat} {beyond : List (Except Fault Token)}

theorem power_ended {reader : Reader Builder} (ended : reader.Ended) :
    reader.power (symbols citation) = 0 := by
  rcases ended with ⟨last, held, ends⟩
  rw [Reader.power, Option.mem_def.1 held]
  simp only [ends]
  rfl

theorem power_terminator {pending : List (Except Fault Token)} {token : Token} {state : Builder}
    (joins : token.kind = .terminator) :
    Reader.power (symbols citation) ⟨pending, some token, state⟩ = Power.terminator :=
  congrArg (symbols citation).power joins

theorem follow_ended {reader after : Reader Builder} {left value : Option Meaning}
    {calls : List Call} (ended : reader.Ended)
    (course : Course (symbols citation) nesting (.follow room power left) reader calls
      (.ok value, after)) :
    value = left ∧ after = reader ∧ calls = [] := by
  cases course with
  | loose => exact ⟨rfl, rfl, rfl⟩
  | followed tighter =>
    rw [power_ended ended] at tighter
    contradiction

/-- Among the stages that a run comes to is a `=>` with entities on its left whose right side it
reads up to the end of the input. -/
def DescribesLast (citation nesting : Nat) (comes : Stage Builder Meaning → Prop) : Prop :=
  ∃ room doing reader, Describes citation doing ∧ comes ⟨.action room doing, reader⟩ ∧
    (Stage.ending (symbols citation) nesting ⟨.action room doing, reader⟩).2.Ended

theorem DescribesLast.imp {comes also : Stage Builder Meaning → Prop}
    (implies : ∀ stage, comes stage → also stage) :
    DescribesLast citation nesting comes → DescribesLast citation nesting also := by
  rintro ⟨room, doing, reader, describes, reaches, ended⟩
  exact ⟨room, doing, reader, describes, implies _ reaches, ended⟩

abbrev Describing (citation nesting : Nat) (stage : Stage Builder Meaning) : Prop :=
  DescribesLast citation nesting (ReflTransGen (Stage.Leads (symbols citation) nesting) stage)

theorem Describing.of_leads {stage later : Stage Builder Meaning}
    (leads : stage.Leads (symbols citation) nesting later) :
    Describing citation nesting later → Describing citation nesting stage :=
  DescribesLast.imp fun _ => .head leads

/-- How the run that goes on has fared where the first has come to an answer: it is still abreast of
it, or the first is at its end. Then a right side that is open goes on, and all that has been stated
is in the graph of the other run, unless there is such a right side and entities are described by
one. -/
inductive Outcome (fresh tight describing : Prop) (watch reached : Watch) (value : Option Meaning)
    (after : Reader Builder) : Except Fault (Option Meaning) × Reader Builder → Prop
  | abreast {beyond : List (Except Fault Token)} {other : Reader Builder}
      (keeps : watch.Keeps fresh tight reached) (readers : after.Abreast beyond other) :
      Outcome fresh tight describing watch reached value after (.ok value, other)
  | parted {ending : Except Fault (Option Meaning) × Reader Builder} (ended : after.Ended)
      (waits : watch.depth = 0 → fresh → watch.Waits tight → reached.standing = .extended)
      (stays : watch.depth = 0 →
        after.state.graph.Extends ending.2.state.graph ∨
        describing ∧ reached.standing = .extended) :
      Outcome fresh tight describing watch reached value after ending

theorem Outcome.imp {fresh tight describing also : Prop} {watch reached : Watch}
    {value : Option Meaning} {after : Reader Builder}
    {ending : Except Fault (Option Meaning) × Reader Builder}
    (outcome : Outcome fresh tight describing watch reached value after ending)
    (implies : describing → also) :
    Outcome fresh tight also watch reached value after ending := by
  cases outcome with
  | abreast keeps readers => exact .abreast keeps readers
  | parted ended waits stays =>
    exact .parted ended waits fun outside => (stays outside).imp_right (.imp_left implies)

abbrev Proper (stage : Stage Builder Meaning) : Prop :=
  stage.Sound Builder.Sound Meaning.Named Token.Valued

theorem keep (citation : Nat) : (symbols citation).Keep Builder.Sound Meaning.Named Token.Valued :=
  (closed_named citation).symbols_keep

theorem extends_of_proper {task : Task Builder Meaning} {reader : Reader Builder}
    (proper : Proper ⟨task, reader⟩) (begins : ∀ room doing, task ≠ .action room doing) :
    reader.state.Extends (task.step (symbols citation) nesting reader).2.state := by
  have keep := (symbols_grow citation).keep reader.state
  have keeps := task.keeps keep nesting (fun same => absurd same (begins _ _)) proper.follow
  exact (Reader.grows_of_keeps (.refl _) keeps proper.reader).1

def Accompanied (citation nesting : Nat) (task : Task Builder Meaning) (fresh : Watch → Prop)
    (tight : Prop) : Prop :=
  ∀ reader calls value after other watch ⦃beyond⦄,
    Course (symbols citation) nesting task reader calls (.ok value, after) →
    reader.Abreast beyond other →
    Proper ⟨task, other⟩ →
    Outcome (fresh watch) tight (Describing citation nesting ⟨task, reader⟩) watch
      (watch.along (Call.kinds calls)) value after
      (task.step (symbols citation) nesting other)

theorem Watch.Reads.keeps_trans {fresh tight : Prop} {calm : Bool} {watch middle after : Watch}
    (reads : watch.Reads fresh tight power calm middle)
    (keeps : middle.Keeps (middle.operand = false) (Power.terminator ≤ power) after) :
    watch.Keeps fresh tight after where
  depth := keeps.depth.trans reads.keeps.depth
  inside deeper := (keeps.inside (reads.keeps.depth ▸ deeper)).trans (reads.keeps.inside deeper)
  extended clear standing := keeps.extended reads.operand (reads.keeps.extended clear standing)
  open_ clear bound standing := by
    by_cases outside : watch.depth = 0
    · have waits := keeps.waits reads.operand (reads.waits outside clear (.inr ⟨bound, standing⟩))
      rcases waits with extended | ⟨_, other⟩
      · exact extended ▸ nofun
      · exact other
    · have same := (keeps.inside (reads.keeps.depth ▸ outside)).trans (reads.keeps.inside outside)
      exact same ▸ standing

theorem Watch.Keeps.of_same {fresh tight : Prop} {watch after : Watch}
    (depth : after.depth = watch.depth) (standing : after.standing = watch.standing) :
    watch.Keeps fresh tight after :=
  ⟨depth, fun _ => standing, fun _ before => standing.trans before,
    fun _ _ before => standing ▸ before⟩

theorem Watch.keeps_group {fresh tight clear bound : Prop} {watch inner : Watch}
    (keeps : Watch.Keeps clear bound
      { watch with depth := watch.depth + 1, operand := false } inner) :
    watch.Keeps fresh tight (inner.past .rightParen) := by
  have depth : inner.depth = watch.depth + 1 := keeps.depth
  apply Watch.Keeps.of_same
  · simp [past, depth]
  · rw [standing_past, depth, if_neg (Nat.succ_ne_zero _)]
    exact keeps.inside (Nat.succ_ne_zero _)

section Rules

variable {room : Nat} {form : Form} {fresh tight describing : Prop} {watch middle : Watch}
  {reader after other : Reader Builder}
  {calls : List Call} {value : Option Meaning} {doing : Step (Option Meaning)}

theorem Watch.Enters.keeps (enters : watch.Enters fresh tight middle form) (open_ : form ≠ .group) :
    watch.Keeps fresh tight middle := by
  cases form with
  | leaf => exact enters
  | group => contradiction
  | operand => exact Watch.Reads.keeps enters

theorem outcome_of_settles (settles : Settles false doing) (keeps : watch.Keeps fresh tight middle)
    (course : Course (symbols citation) nesting (.action room doing) reader calls
      (.ok value, after))
    (abreast : reader.Abreast beyond other) :
    Outcome fresh tight describing watch (middle.along (Call.kinds calls)) value after
      ((Task.action room doing).step (symbols citation) nesting other) := by
  rcases settles with ⟨step, does, _⟩
  rcases does.of_course course with ⟨_, _, rfl⟩
  rcases does.abreast course abreast with ⟨further, also, readers⟩
  rw [also]
  exact .abreast keeps readers

theorem graph_of_operand {next : Option Meaning → Step (Option Meaning)}
    (rest : ∀ value, Settles true (next value)) (reader : Reader Builder) :
    ((Task.action room (.operand power next)).step (symbols citation) nesting
      reader).2.state.graph =
      ((Task.expression room power).step (symbols citation) nesting reader).2.state.graph := by
  rcases run : (Task.expression room power).step (symbols citation) nesting reader
    with ⟨fault | value, further⟩
  · have whole : (Task.action room (.operand power next)).step (symbols citation) nesting reader =
        (.error fault, further) := Attempt.bind_error run
    rw [whole]
  · have whole : (Task.action room (.operand power next)).step (symbols citation) nesting reader =
        (Task.action room (next value)).step (symbols citation) nesting further :=
      Attempt.bind_ok run
    rcases rest value with ⟨step, does, still⟩
    rw [whole, Task.step, does]
    exact still rfl further.state

variable
  (operands : ∀ power, Accompanied citation nesting (.expression room power)
    (fun watch => watch.operand = false) (Power.terminator ≤ power))

include operands

theorem outcome_of_group
    (course : Course (symbols citation) nesting
      (.action room (.operand power fun value => .close .rightParen (.give value))) reader calls
      (.ok value, after))
    (abreast : reader.Abreast beyond other)
    (proper : Proper ⟨.action room (.operand power fun value => .close .rightParen (.give value)),
      other⟩) :
    let inner := { watch with depth := watch.depth + 1, operand := false }
    Outcome fresh tight describing watch (inner.along (Call.kinds calls)) value after
      ((Task.action room (.operand power fun value => .close .rightParen (.give value))).step
        (symbols citation) nesting other) := by
  intro inner
  cases course with
  | operand read rest =>
    have inside := operands power _ _ _ _ _ inner read abreast (.expression proper.reader)
    cases rest with
    | close held passed rest =>
      cases rest
      have closes := Reader.kind_of_advance held passed
      rcases run : (Task.expression room power).step (symbols citation) nesting other
        with ⟨answer, further⟩
      rw [run] at inside
      cases inside with
      | abreast keeps readers =>
        rcases readers.close_eq (Notation.complete citation) passed
          with ⟨next, reached, also, abreast⟩
        have whole :
            (Task.action room (.operand power fun value => .close .rightParen (.give value))).step
            (symbols citation) nesting other = (.ok value, reached) :=
          (Attempt.bind_ok run).trans (Attempt.bind_ok also)
        rw [whole, Call.kinds_append, Watch.along_append]
        refine .abreast ?_ abreast
        rw [Call.kinds_cons, Call.token, closes]
        exact Watch.keeps_group keeps
      | parted ended => exact absurd passed ended.not_advance

/-- What comes of a rule that reads an operand. If the runs part within the operand, the rule
changes the graph only if it is that of a `=>`, and then the right side of this one is open. -/
theorem outcome_of_operand {calm : Bool} {next : Option Meaning → Step (Option Meaning)}
    (rest : ∀ value, Settles calm (next value))
    (describes : calm = false → Describes citation (.operand power next))
    (enters : watch.Reads fresh tight power calm middle)
    (course : Course (symbols citation) nesting (.action room (.operand power next)) reader calls
      (.ok value, after))
    (abreast : reader.Abreast beyond other)
    (proper : Proper ⟨.action room (.operand power next), other⟩) :
    Outcome fresh tight (Describing citation nesting ⟨.action room (.operand power next), reader⟩)
      watch (middle.along (Call.kinds calls)) value after
      ((Task.action room (.operand power next)).step (symbols citation) nesting other) := by
  have own : Stage.ending (symbols citation) nesting ⟨.action room (.operand power next), reader⟩ =
      (.ok value, after) :=
    course.step_eq
  cases course with
  | @operand _ _ _ calls found between _ later _ read behind =>
    have inside := operands power _ _ _ _ _ middle read abreast (.expression proper.reader)
    rcases rest found with ⟨step, does, still⟩
    rcases does.of_course behind with ⟨stepped, same, rfl⟩
    rw [List.append_nil]
    rcases run : (Task.expression room power).step (symbols citation) nesting other
      with ⟨answer, further⟩
    rw [run] at inside
    cases inside with
    | abreast keeps readers =>
      rcases does.abreast behind readers with ⟨reached, also, readers⟩
      have whole : (Task.action room (.operand power next)).step (symbols citation) nesting other =
          (.ok value, reached) := (Attempt.bind_ok run).trans also
      rw [whole]
      exact .abreast (enters.keeps_trans keeps) readers
    | parted ended waits stays =>
      have outer (outside : watch.depth = 0) : middle.depth = 0 := enters.keeps.depth.trans outside
      have done : after.Ended := by
        rw [same]
        exact ended
      refine .parted done ?_ ?_
      · intro outside clear open_
        exact waits (outer outside) enters.operand (enters.waits outside clear open_)
      · intro outside
        cases calm with
        | false =>
          have standing := waits (outer outside) enters.operand (enters.describes outside rfl)
          exact .inr ⟨⟨room, _, reader, describes rfl, .refl, own ▸ done⟩, standing⟩
        | true =>
          have before : after.state.graph = between.state.graph := by
            have quiet := still rfl between.state
            rwa [stepped] at quiet
          rw [before, graph_of_operand rest, run]
          exact (stays (outer outside)).imp_right (.imp_left (.of_leads .operand))

theorem outcome_of_fits (fits : Fits citation form doing)
    (enters : watch.Enters fresh tight middle form)
    (course : Course (symbols citation) nesting (.action room doing) reader calls
      (.ok value, after))
    (abreast : reader.Abreast beyond other) (proper : Proper ⟨.action room doing, other⟩)
    (more : form.Asks → 1 < reader.remaining.length) :
    Outcome fresh tight (Describing citation nesting ⟨.action room doing, reader⟩) watch
      (middle.along (Call.kinds calls)) value after
      ((Task.action room doing).step (symbols citation) nesting other) := by
  induction fits generalizing calls with
  | alone open_ settles => exact outcome_of_settles settles (enters.keeps open_) course abreast
  | group =>
    obtain rfl : middle = _ := enters
    exact outcome_of_group operands course abreast proper
  | @read _ _ _ next rest ih =>
    cases course with
    | read behind =>
      rw [abreast.state_eq] at behind
      have leads : Stage.Leads (symbols citation) nesting ⟨.action room (.read next), other⟩
          ⟨.action room (next other.state), other⟩ := .read
      have own : Stage.Leads (symbols citation) nesting ⟨.action room (.read next), reader⟩
          ⟨.action room (next other.state), reader⟩ := abreast.state_eq ▸ .read
      exact (ih other.state enters behind (proper.of_leads (keep citation) leads) more).imp
        (.of_leads own)
  | @asks _ _ next given_value given rest ih =>
    cases course with
    | atEnd behind =>
      have leads : Stage.Leads (symbols citation) nesting ⟨.action room (.atEnd next), other⟩
          ⟨.action room (next other.atConstructEnd), other⟩ := .atEnd
      have later := proper.of_leads (keep citation) leads
      have whole : (Task.action room (.atEnd next)).step (symbols citation) nesting other =
          (Task.action room (next other.atConstructEnd)).step (symbols citation) nesting other :=
        rfl
      have own : Stage.Leads (symbols citation) nesting ⟨.action room (.atEnd next), reader⟩
          ⟨.action room (next other.atConstructEnd), reader⟩ :=
        abreast.atConstructEnd_eq (more rfl) ▸ .atEnd
      rw [abreast.atConstructEnd_eq (more rfl)] at behind
      rw [whole]
      cases ends : other.atConstructEnd with
      | false =>
        rw [ends] at behind later own
        exact (ih enters behind later nofun).imp (.of_leads own)
      | true =>
        rw [ends, given] at behind
        rw [given]
        exact outcome_of_settles (.pure given_value) (Watch.Reads.keeps enters) behind abreast
  | operand rest describes =>
    exact outcome_of_operand operands rest describes enters course abreast proper

end Rules

theorem Outcome.then_follow {room : Nat} {fresh describing : Prop} {watch middle : Watch}
    {task : Task Builder Meaning} {reached after other : Reader Builder} {later : List Call}
    {left value : Option Meaning}
    (first : Outcome fresh (Power.terminator ≤ power) describing watch middle left reached
      (task.step (symbols citation) nesting other))
    (course : Course (symbols citation) nesting (.follow room power left) reached later
      (.ok value, after))
    (proper : ∀ value further, task.step (symbols citation) nesting other = (.ok value, further) →
      Proper ⟨.follow room power value, further⟩)
    (second : ∀ further ⦃beyond⦄, reached.Abreast beyond further →
      Proper ⟨.follow room power left, further⟩ →
      Outcome True (Power.terminator ≤ power) describing middle
        (middle.along (Call.kinds later)) value after
        ((Task.follow room power left).step (symbols citation) nesting further)) :
    Outcome fresh (Power.terminator ≤ power) describing watch
      (middle.along (Call.kinds later)) value after
      ((task.step (symbols citation) nesting >>= fun value =>
        (Task.follow room power value).step (symbols citation) nesting) other) := by
  rcases run : task.step (symbols citation) nesting other with ⟨answer, further⟩
  rw [run] at first
  cases first with
  | abreast keeps readers =>
    rw [Attempt.bind_ok run]
    rcases done : (Task.follow room power left).step (symbols citation) nesting further
      with ⟨answer, last⟩
    have outcome := second further readers (proper left further run)
    rw [done] at outcome
    cases outcome with
    | abreast others readers => exact .abreast (keeps.trans others) readers
    | parted ended waits stays =>
      refine .parted ended ?_ ?_
      · intro outside clear open_
        exact waits (keeps.depth.trans outside) trivial (keeps.waits clear open_)
      · intro outside
        exact stays (keeps.depth.trans outside)
  | parted ended waits stays =>
    rcases follow_ended ended course with ⟨rfl, rfl, rfl⟩
    refine .parted ended waits ?_
    intro outside
    refine (stays outside).imp_left ?_
    intro extended
    rcases answer with fault | found
    · rw [Attempt.bind_error run]
      exact extended
    · rw [Attempt.bind_ok run]
      exact extended.trans (extends_of_proper (proper found further run) nofun).graph

theorem asked_ended {room : Nat} {next : Bool → Step (Option Meaning)}
    {reader after : Reader Builder} {calls : List Call} {found value : Option Meaning}
    (given : next true = pure found) (ended : reader.Ended)
    (course : Course (symbols citation) nesting (.action room (Action.ended >>= next)) reader calls
      (.ok value, after)) : value = found ∧ after = reader ∧ calls = [] := by
  have asking : Course (symbols citation) nesting (.action room (.atEnd next)) reader calls
      (.ok value, after) :=
    course
  cases asking with
  | atEnd behind =>
    rw [ended.atConstructEnd, given] at behind
    cases behind
    exact ⟨rfl, rfl, rfl⟩

/-- Where no operator follows in the first run, a terminator may follow in the other. -/
theorem outcome_of_loose {room : Nat} {describing : Prop} {left : Option Meaning}
    {reader other : Reader Builder} {watch : Watch}
    (looser : reader.power (symbols citation) ≤ power) (abreast : reader.Abreast beyond other)
    (proper : Proper ⟨.follow room power left, other⟩) :
    Outcome True (Power.terminator ≤ power) describing watch watch left reader
      ((Task.follow room power left).step (symbols citation) nesting other) := by
  have both (also : other.power (symbols citation) ≤ power) :
      Outcome True (Power.terminator ≤ power) describing watch watch left reader
        ((Task.follow room power left).step (symbols citation) nesting other) := by
    rw [Task.step, Reader.follow_of_looser also]
    exact .abreast (.refl watch) abreast
  have readers := abreast
  cases abreast with
  | holding tokens =>
    cases tokens with
    | pause ends stops =>
      by_cases tight : Power.terminator ≤ power
      · exact both (power_terminator stops ▸ tight)
      · have here : watch.Waits (Power.terminator ≤ power) → watch.standing = .extended := by
          rintro (standing | ⟨bound, _⟩)
          · exact standing
          · exact absurd bound tight
        have extended : Builder.Extends
            _ ((Task.follow room power left).step (symbols citation) nesting _).2.state :=
          extends_of_proper proper (by simp)
        exact .parted ⟨_, rfl, ends⟩ (fun _ _ => here) fun _ => .inl extended.graph
    | merged begins ends stops =>
      rw [power_terminator begins] at looser
      exact both (power_terminator stops ▸ looser)
    | next => exact both looser

/-- Where the first run takes the terminator at its end, the rule of it reads nothing, and no
operator follows. -/
theorem outcome_of_merged {room : Nat} {fresh tight describing : Prop} {watch middle : Watch}
    {task : Task Builder Meaning} {behind reached after other : Reader Builder}
    {calls later : List Call} {left found value : Option Meaning}
    {next : Bool → Step (Option Meaning)} (proper : Proper ⟨task, other⟩)
    (begins : ∀ room doing, task ≠ .action room doing) (ended : behind.Ended)
    (state : behind.state = other.state) (given : next true = pure left)
    (ran : Course (symbols citation) nesting (.action room (Action.ended >>= next)) behind calls
      (.ok found, reached))
    (follows : Course (symbols citation) nesting (.follow room power found) reached later
      (.ok value, after))
    (waits : watch.depth = 0 → fresh → watch.Waits tight → middle.standing = .extended) :
    Outcome fresh tight describing watch
      ((middle.along (Call.kinds calls)).along (Call.kinds later)) value after
      (task.step (symbols citation) nesting other) := by
  rcases asked_ended given ended ran with ⟨rfl, rfl, rfl⟩
  rcases follow_ended ended follows with ⟨rfl, rfl, rfl⟩
  refine .parted ended waits fun _ => .inl ?_
  rw [state]
  exact (extends_of_proper proper begins).graph

theorem asks_opening {kind : Kind} (asks : (openingForm kind).Asks) : kind = .terminator := by
  cases kind <;> first | rfl | contradiction

theorem asks_following {calm : Bool} {kind : Kind} (asks : (followingForm calm kind).Asks) :
    kind = .terminator := by
  cases kind <;> first | rfl | contradiction

/-- The operators behind an expression. A terminator that the first run does not have ends the
expression, or else the runs part with it. -/
theorem follow_accompanied {room : Nat}
    (operands : ∀ power, Accompanied citation nesting (.expression room power)
      (fun watch => watch.operand = false) (Power.terminator ≤ power)) (power : Nat)
      (left : Option Meaning) :
    Accompanied citation nesting (.follow room power left) (fun _ => True)
      (Power.terminator ≤ power) := by
  intro reader calls value after other watch beyond course abreast proper
  induction course using Course.follow_induction_on generalizing other watch beyond with
  | loose looser => exact outcome_of_loose looser abreast proper
  | @followed left reader behind token rule calls found reached later above taken ran follows ih =>
    rcases Reader.takeFollowing_eq_ok taken with ⟨first, known⟩
    have tighter_kind : power < (symbols citation).power token.kind :=
      Reader.power_of_take abreast.holds.1 first ▸ above
    rw [Call.kinds_cons, Call.kinds_append, Watch.along_cons, Watch.along_append, Call.token]
    rcases fits_following known with ⟨calm, fits⟩
    have enters := Watch.enters_following known tighter_kind watch calm
    rcases abreast.take_cases (Notation.complete citation) first with
      ⟨middle, also, beside, more⟩ | ⟨joins, ended, pause, _, rfl⟩
    · have tighter_other : power < other.power (symbols citation) :=
        Reader.power_of_take abreast.holds.2 also ▸ tighter_kind
      have taken_other := Reader.takeFollowing_of_take also known
      have leads : Stage.Leads (symbols citation) nesting ⟨.follow room power left, other⟩
          ⟨.action room (rule token left), middle⟩ := .following tighter_other taken_other
      have proper_rule := proper.of_leads (keep citation) leads
      rw [Task.step_of_takeFollowing tighter_other taken_other]
      have own : Stage.Leads (symbols citation) nesting ⟨.follow room power left, reader⟩
          ⟨.action room (rule token left), behind⟩ := .following above taken
      have first :=
        outcome_of_fits operands fits enters ran beside proper_rule fun asks =>
        more (asks_following asks)
      refine (first.imp (.of_leads own)).then_follow follows ?_ ?_
      · intro value further run
        have leads : Stage.Leads (symbols citation) nesting ⟨.follow room power left, other⟩
            ⟨.follow room power value, further⟩ := .followed tighter_other taken_other run
        exact proper.of_leads (keep citation) leads
      · intro further _ readers proper
        have own : Stage.Leads (symbols citation) nesting ⟨.follow room power left, reader⟩
            ⟨.follow room power found, reached⟩ := .followed above taken ran.step_eq
        exact (ih further _ readers proper).imp (.of_leads own)
    · rw [joins] at known tighter_kind enters ⊢
      obtain rfl := Option.some.inj known
      refine outcome_of_merged proper (by simp) ended rfl rfl ran follows ?_
      rintro _ clear (standing | ⟨tight, _⟩)
      · exact (Watch.Reads.keeps enters).extended clear standing
      · exact absurd tight (Nat.not_le.mpr tighter_kind)

theorem expression_accompanied (room power : Nat) :
    Accompanied citation nesting (.expression room power) (fun watch => watch.operand = false)
      (Power.terminator ≤ power) := by
  induction room generalizing power with
  | zero =>
    intro reader calls value after other watch beyond course
    cases course
  | succ room ih =>
    intro reader calls value after other watch beyond course abreast proper
    cases course with
    | @opened _ behind token rule _ calls left reached _ later _ taken ran follows =>
      rcases Reader.takeOpening_eq_ok taken with ⟨first, known⟩
      rw [Call.kinds_cons, Call.kinds_append, Watch.along_cons, Watch.along_append, Call.token]
      have enters := Watch.enters_opening known watch (Power.terminator ≤ power)
      rcases abreast.take_cases (Notation.complete citation) first with
        ⟨middle, also, beside, more⟩ | ⟨joins, ended, pause, _, rfl⟩
      · have taken_other := Reader.takeOpening_of_take also known
        have leads : Stage.Leads (symbols citation) nesting ⟨.expression (room + 1) power, other⟩
            ⟨.action room (rule token), middle⟩ := .opening taken_other
        have proper_rule := proper.of_leads (keep citation) leads
        rw [Task.step_of_takeOpening taken_other]
        have own : Stage.Leads (symbols citation) nesting ⟨.expression (room + 1) power, reader⟩
            ⟨.action room (rule token), behind⟩ := .opening taken
        have first :=
          outcome_of_fits ih (fits_opening known) enters ran beside proper_rule fun asks =>
          more (asks_opening asks)
        refine (first.imp (.of_leads own)).then_follow follows ?_ ?_
        · intro value further run
          have leads : Stage.Leads (symbols citation) nesting ⟨.expression (room + 1) power, other⟩
              ⟨.follow room power value, further⟩ := .opened taken_other run
          exact proper.of_leads (keep citation) leads
        · intro further _ readers proper
          have own : Stage.Leads (symbols citation) nesting ⟨.expression (room + 1) power, reader⟩
              ⟨.follow room power left, reached⟩ := .opened taken ran.step_eq
          exact (follow_accompanied ih power left _ _ _ _ _ _ follows readers proper).imp
            (.of_leads own)
      · -- The first run has a terminator here, and nothing behind it to read.
        rw [joins] at known enters ⊢
        obtain rfl := Option.some.inj known
        refine outcome_of_merged proper (by simp) ended rfl rfl ran follows ?_
        intro outside clear open_
        rcases Watch.Reads.waits enters outside clear open_ with standing | ⟨impossible, _⟩
        · exact standing
        · contradiction

end Grammar

end FactGraph
