import FactGraph.Proofs.Grammar.Continuing
import FactGraph.Proofs.Grammar.Resuming
import FactGraph.Proofs.Grammar.Trail

/-! Where runs over a source and over one that goes on behind a semicolon part. The first has come
to its end; the other resumes there with what the first has read, unless an operand that a
terminator has begun is still being read. -/

namespace FactGraph.Grammar

open Precedence
open Token (Kind)

inductive Fares (citation nesting : Nat) (next : Token) (rest : List (Except Fault Token))
    (fresh due : Prop) (loose : Nat → Nat → Prop) (trail reached : Trail) (value : Option Meaning)
    (after : Reader Builder) :
    Except Fault (Option Meaning) × Reader Builder → Prop
  /-- It is still abreast of the first. -/
  | abreast {other : Reader Builder} (keeps : trail.Keeps fresh reached)
      (readers : after.Abreast (.ok next :: rest) other) :
      Fares citation nesting next rest fresh due loose trail reached value after (.ok value, other)
  /-- It reads on within an operand that the first has come to the end of. -/
  | held {ending : Except Fault (Option Meaning) × Reader Builder} (ended : after.Ended)
      (held : trail.depth = 0 → due → reached.held = true) :
      Fares citation nesting next rest fresh due loose trail reached value after ending
  /-- It goes on with what the first has read. -/
  | resumed {pause : Token} {room upper : Nat} (ended : after.Ended) (open_ : loose room upper)
      (keeps : trail.Keeps fresh reached) :
      Fares citation nesting next rest fresh due loose trail reached value after
        (resume (symbols citation) nesting room upper pause value ⟨rest, some next, after.state⟩)

def Faring (citation nesting : Nat) (next : Token) (rest : List (Except Fault Token))
    (task : Task Builder Meaning) (fresh due : Trail → Prop) (loose : Trail → Nat → Nat → Prop) :
    Prop :=
  ∀ reader calls value after other trail, Course (symbols citation) nesting task reader calls
    (.ok value, after) →
    reader.Abreast (.ok next :: rest) other →
    Fares citation nesting next rest (fresh trail) (due trail) (loose trail) trail
      (trail.along (Call.kinds calls)) value after (task.step (symbols citation) nesting other)

/-- The room that is left where an expression is resumed, and where its operators are. A terminator
at its beginning takes some. -/
structure Near (trail : Trail) (whole room upper : Nat) : Prop where
  room_lt : room < whole
  upper_lt : upper < whole
  le_room : whole ≤ room + 2
  le_upper : whole ≤ upper + 2
  due : trail.due = true → whole = room + 1 ∧ whole = upper + 1

/-- An expression that nothing but a terminator ends is resumed, and no other. -/
abbrev ExpressionFares (citation nesting : Nat) (next : Token) (rest : List (Except Fault Token))
    (room power : Nat) : Prop :=
  Faring citation nesting next rest (.expression room power) (fun trail => trail.operand = false)
    (fun trail => 0 < power → trail.due = true)
    fun trail other upper => power = 0 ∧ Near trail room other upper

variable {citation nesting room power : Nat} {next : Token} {rest : List (Except Fault Token)}
  {fresh due : Prop} {loose : Nat → Nat → Prop} {trail middle : Trail} {form : Form}
  {reader after other : Reader Builder} {calls : List Call} {value : Option Meaning}
  {doing : Step (Option Meaning)}

theorem Trail.Enters.keeps (enters : trail.Enters fresh middle form) (open_ : form ≠ .group) :
    trail.Keeps fresh middle := by
  cases form with
  | leaf => exact enters
  | group => contradiction
  | operand => exact enters.1

theorem fares_of_settles (settles : Settles false doing) (keeps : trail.Keeps fresh middle)
    (course : Course (symbols citation) nesting (.action room doing) reader calls
      (.ok value, after))
    (abreast : reader.Abreast (.ok next :: rest) other) :
    Fares citation nesting next rest fresh due loose trail
      (middle.along (Call.kinds calls)) value after
      ((Task.action room doing).step (symbols citation) nesting other) := by
  rcases settles with ⟨step, does, _⟩
  rcases does.of_course course with ⟨_, _, rfl⟩
  rcases does.abreast course abreast with ⟨further, also, readers⟩
  rw [also]
  exact .abreast keeps readers

section Rules

variable (operands : ∀ power, ExpressionFares citation nesting next rest room power)

include operands

theorem fares_of_group
    (course : Course (symbols citation) nesting
      (.action room (.operand power fun value => .close .rightParen (.give value))) reader calls
      (.ok value, after))
    (abreast : reader.Abreast (.ok next :: rest) other) :
    Fares citation nesting next rest fresh due loose trail
      ((trail.past .leftParen).along (Call.kinds calls)) value after
      ((Task.action room (.operand power fun value => .close .rightParen (.give value))).step
        (symbols citation) nesting other) := by
  cases course with
  | operand read closing =>
    have inside := operands power _ _ _ _ _ (trail.past .leftParen) read abreast
    cases closing with
    | close held passed given =>
      cases given
      have closes := Reader.kind_of_advance held passed
      generalize ran : (Task.expression room power).step (symbols citation) nesting other =
        ending at inside
      cases inside with
      | abreast keeps readers =>
        rcases readers.close_eq (Notation.complete citation) passed with ⟨_, reached, also, abreast⟩
        have whole :
            (Task.action room (.operand power fun value => .close .rightParen (.give value))).step
            (symbols citation) nesting other = (.ok value, reached) :=
          (Attempt.bind_ok ran).trans (Attempt.bind_ok also)
        rw [whole, Call.kinds_append, Trail.along_append, Call.kinds_cons, Call.token, closes]
        exact .abreast (Trail.keeps_group keeps) abreast
      | held ended => exact absurd passed ended.not_advance
      | resumed ended => exact absurd passed ended.not_advance

theorem fares_of_operand {calm : Bool} {then_ : Option Meaning → Step (Option Meaning)}
    (settles : ∀ value, Settles calm (then_ value)) (enters : trail.Keeps fresh middle)
    (binds : 0 < power) (asks : middle.due = true) (starts : middle.operand = false)
    (course : Course (symbols citation) nesting (.action room (.operand power then_)) reader calls
      (.ok value, after))
    (abreast : reader.Abreast (.ok next :: rest) other) :
    Fares citation nesting next rest fresh due loose trail
      (middle.along (Call.kinds calls)) value after
      ((Task.action room (.operand power then_)).step (symbols citation) nesting other) := by
  cases course with
  | @operand _ _ _ calls found between _ later _ read behind =>
    have inside := operands power _ _ _ _ _ middle read abreast
    rcases settles found with ⟨step, does, _⟩
    rcases does.of_course behind with ⟨_, same, rfl⟩
    rw [List.append_nil]
    generalize ran : (Task.expression room power).step (symbols citation) nesting other =
      ending at inside
    cases inside with
    | @abreast further keeps readers =>
      rcases does.abreast behind readers with ⟨reached, also, readers⟩
      have whole : (Task.action room (.operand power then_)).step (symbols citation) nesting other =
          (.ok value, reached) := (Attempt.bind_ok ran).trans also
      rw [whole]
      exact .abreast (enters.trans (keeps.imp fun _ => starts)) readers
    | held ended held =>
      have done : after.Ended := by
        rw [same]
        exact ended
      exact .held done fun outside _ => held (enters.depth.trans outside) fun _ => asks
    | resumed _ open_ => exact absurd open_.1 (Nat.ne_of_gt binds)

theorem fares_of_fits (fits : Fits citation form doing) (enters : trail.Enters fresh middle form)
    (course : Course (symbols citation) nesting (.action room doing) reader calls
      (.ok value, after))
    (abreast : reader.Abreast (.ok next :: rest) other)
    (more : form.Asks → 1 < reader.remaining.length) :
    Fares citation nesting next rest fresh due loose trail
      (middle.along (Call.kinds calls)) value after
      ((Task.action room doing).step (symbols citation) nesting other) := by
  induction fits generalizing calls with
  | alone open_ settles => exact fares_of_settles settles (enters.keeps open_) course abreast
  | group =>
    obtain rfl : middle = _ := enters
    exact fares_of_group operands course abreast
  | read _ ih =>
    cases course with
    | read behind =>
      rw [abreast.state_eq] at behind
      exact ih other.state enters behind more
  | @asks _ _ then_ found given _ ih =>
    cases course with
    | atEnd behind =>
      rw [abreast.atConstructEnd_eq (more rfl)] at behind
      have whole : (Task.action room (.atEnd then_)).step (symbols citation) nesting other =
          (Task.action room (then_ other.atConstructEnd)).step (symbols citation) nesting other :=
        rfl
      rw [whole]
      cases ends : other.atConstructEnd with
      | false =>
        rw [ends] at behind
        exact ih enters behind nofun
      | true =>
        rw [ends, given] at behind
        rw [given]
        exact fares_of_settles (.pure found) enters.1 behind abreast
  | operand settles =>
    rcases enters with ⟨keeps, binds, asks, starts⟩
    exact fares_of_operand operands settles keeps binds asks starts course abreast

end Rules

section Pause

variable {pause : Token} {state : Builder}

theorem take_pause (stops : pause.kind = .terminator) :
    Reader.take (symbols citation) ⟨.ok next :: rest, some pause, state⟩ =
      (.ok pause, ⟨rest, some next, state⟩) := by
  have passed : Reader.advance (symbols citation) none ⟨.ok next :: rest, some pause, state⟩ =
      (.ok next, ⟨rest, some next, state⟩) := by
    simp [Reader.advance, Reader.obstacle?, stops, Notation.complete citation next.kind]
  exact (Attempt.bind_ok rfl).trans (Attempt.bind_ok passed)

theorem follow_pause (stops : pause.kind = .terminator) (left : Option Meaning) :
    (Task.follow room 0 left).step (symbols citation) nesting
        ⟨.ok next :: rest, some pause, state⟩ =
      resume (symbols citation) nesting room room pause left ⟨rest, some next, state⟩ := by
  have binds : 0 < Reader.power (symbols citation) ⟨.ok next :: rest, some pause, state⟩ := by
    rw [power_terminator stops]
    decide
  have known : (symbols citation).following? pause.kind = some terminator := stops ▸ rfl
  exact Task.step_of_takeFollowing binds (Reader.takeFollowing_of_take (take_pause stops) known)

theorem expression_pause (stops : pause.kind = .terminator) :
    (Task.expression (room + 1) 0).step (symbols citation) nesting
        ⟨.ok next :: rest, some pause, state⟩ =
      resume (symbols citation) nesting room (room - 1) pause none ⟨rest, some next, state⟩ := by
  have known : (symbols citation).opening? pause.kind = some (Form.skip 0) := stops ▸ rfl
  exact (Task.step_of_takeOpening (Reader.takeOpening_of_take (take_pause stops) known)).trans
    (separates citation).skip_eq_resume

end Pause

/-- Where no operator follows in the first run, the other is abreast of it, or resumes. -/
theorem fares_of_loose {left : Option Meaning} (looser : reader.power (symbols citation) ≤ power)
    (abreast : reader.Abreast (.ok next :: rest) other) :
    Fares citation nesting next rest True True
      (fun other upper => power = 0 ∧ other = room ∧ upper = room) trail trail left reader
      ((Task.follow room power left).step (symbols citation) nesting other) := by
  have both (also : other.power (symbols citation) ≤ power) :
      Fares citation nesting next rest True True
        (fun other upper => power = 0 ∧ other = room ∧ upper = room) trail trail left reader
        ((Task.follow room power left).step (symbols citation) nesting other) := by
    rw [Task.follow_of_looser also]
    exact .abreast (.refl trail) abreast
  have readers := abreast
  cases readers with
  | holding tokens =>
    cases tokens with
    | pause ends stops =>
      cases power with
      | zero =>
        rw [follow_pause stops]
        exact .resumed ⟨_, rfl, ends⟩ ⟨rfl, rfl, rfl⟩ (.refl trail)
      | succ power =>
        exact both (Nat.le_trans (Nat.le_of_eq (power_terminator stops)) (Nat.succ_pos power))
    | merged begins _ stops =>
      rw [power_terminator begins] at looser
      exact both (Nat.le_trans (Nat.le_of_eq (power_terminator stops)) looser)
    | next => exact both looser

theorem Fares.then_follow {task : Task Builder Meaning} {reached : Reader Builder}
    {later : List Call} {left : Option Meaning}
    (first : Fares citation nesting next rest fresh True (fun _ _ => False) trail
      middle left reached
      (task.step (symbols citation) nesting other))
    (course : Course (symbols citation) nesting (.follow room power left) reached later
      (.ok value, after))
    (second : ∀ further, reached.Abreast (.ok next :: rest) further →
      Fares citation nesting next rest True True
        (fun other upper => power = 0 ∧ other = room ∧ upper = room) middle
        (middle.along (Call.kinds later)) value after
        ((Task.follow room power left).step (symbols citation) nesting further)) :
    Fares citation nesting next rest fresh True
      (fun other upper => power = 0 ∧ other = room ∧ upper = room) trail
      (middle.along (Call.kinds later)) value after
      ((task.step (symbols citation) nesting >>= fun value =>
        (Task.follow room power value).step (symbols citation) nesting) other) := by
  generalize run : task.step (symbols citation) nesting other = ending at first
  cases first with
  | @abreast further keeps readers =>
    rw [Attempt.bind_ok run]
    have outcome := second further readers
    generalize (Task.follow room power left).step (symbols citation) nesting further =
      ending at outcome ⊢
    cases outcome with
    | abreast others readers => exact .abreast (keeps.trans others) readers
    | held ended held => exact .held ended fun outside _ => held (keeps.depth.trans outside) trivial
    | resumed ended open_ others => exact .resumed ended open_ (keeps.trans others)
  | held ended held =>
    rcases follow_ended ended course with ⟨rfl, rfl, rfl⟩
    exact .held ended held
  | resumed _ impossible => exact impossible.elim

theorem follow_fares (operands : ∀ power, ExpressionFares citation nesting next rest room power)
    (power : Nat) (left : Option Meaning) :
    Faring citation nesting next rest (.follow room power left) (fun _ => True) (fun _ => True)
      fun _ other upper => power = 0 ∧ other = room ∧ upper = room := by
  intro reader calls value after other trail course abreast
  induction course using Course.follow_induction_on generalizing other trail with
  | loose looser => exact fares_of_loose looser abreast
  | @followed left reader behind token rule calls found reached later above taken ran follows ih =>
    rcases Reader.takeFollowing_eq_ok taken with ⟨first, known⟩
    have binds : power < (symbols citation).power token.kind :=
      Reader.power_of_take abreast.holds.1 first ▸ above
    rw [Call.kinds_cons, Call.kinds_append, Trail.along_cons, Trail.along_append, Call.token]
    rcases fits_following known with ⟨calm, fits⟩
    have enters := Trail.enters_following known trail calm
    rcases abreast.take_cases (Notation.complete citation) first with
      ⟨middle, also, beside, more⟩ | ⟨joins, ended, pause, stops, rfl⟩
    · have tighter_other : power < other.power (symbols citation) :=
        Reader.power_of_take abreast.holds.2 also ▸ binds
      rw [Task.step_of_takeFollowing tighter_other (Reader.takeFollowing_of_take also known)]
      refine Fares.then_follow (fares_of_fits operands fits enters ran beside ?_) follows ?_
      · exact fun asks => more (asks_following asks)
      · exact fun further readers => ih further _ readers
    · rw [joins] at known binds enters ⊢
      obtain rfl := Option.some.inj known
      obtain rfl : power = 0 := Nat.lt_one_iff.1 binds
      rcases asked_ended rfl ended ran with ⟨rfl, rfl, rfl⟩
      rcases follow_ended ended follows with ⟨rfl, rfl, rfl⟩
      rw [follow_pause stops]
      exact .resumed ended ⟨rfl, rfl, rfl⟩ enters.1

theorem Fares.of_follow {reached : Trail} {ending : Except Fault (Option Meaning) × Reader Builder}
    (fares : Fares citation nesting next rest fresh True
      (fun other upper => power = 0 ∧ other = room ∧ upper = room)
      trail reached value after ending) :
    Fares citation nesting next rest fresh due
      (fun other upper => power = 0 ∧ Near trail (room + 1) other upper)
      trail reached value after ending := by
  cases fares with
  | abreast keeps readers => exact .abreast keeps readers
  | held ended held => exact .held ended fun outside _ => held outside trivial
  | resumed ended open_ keeps =>
    obtain ⟨rfl, rfl, rfl⟩ := open_
    exact .resumed ended ⟨rfl, by omega, by omega, by omega, by omega, fun _ => ⟨rfl, rfl⟩⟩ keeps

/-- An expression that a terminator begins is resumed, if nothing else has asked for it. -/
theorem fares_of_resumed {pause : Token} {other upper : Nat} {reached : Trail} (ended : after.Ended)
    (keeps : (trail.past .terminator).Keeps ((trail.past .terminator).operand = false) reached)
    (other_lt : other < room) (upper_lt : upper < room) (le_other : room ≤ other + 2)
    (le_upper : room ≤ upper + 2) :
    Fares citation nesting next rest (trail.operand = false) (0 < power → trail.due = true)
      (fun other upper => power = 0 ∧ Near trail room other upper) trail reached value after
      (resume (symbols citation) nesting other upper pause value
        ⟨rest, some next, after.state⟩) := by
  by_cases due : trail.due = true
  · exact .held ended fun outside _ => keeps.held rfl (Trail.held_past_terminator outside due)
  · cases power with
    | zero =>
      have whole : trail.Keeps (trail.operand = false) reached :=
        (Trail.keeps_past (by decide) (by decide) nofun).trans (keeps.imp fun _ => rfl)
      exact .resumed ended ⟨rfl, other_lt, upper_lt, le_other, le_upper,
        fun asked => absurd asked due⟩ whole
    | succ power => exact .held ended fun _ asked => absurd (asked (Nat.succ_pos power)) due

theorem fares_of_skip {token : Token} {behind reached middle : Reader Builder} {later : List Call}
    {left : Option Meaning}
    (operands : ∀ power, ExpressionFares citation nesting next rest room power)
    (ran : Course (symbols citation) nesting (.action room (Form.skip 0 token)) behind calls
      (.ok left, reached))
    (follows : Course (symbols citation) nesting (.follow room power left) reached later
      (.ok value, after))
    (beside : behind.Abreast (.ok next :: rest) middle) (more : 1 < behind.remaining.length) :
    Fares citation nesting next rest (trail.operand = false) (0 < power → trail.due = true)
      (fun other upper => power = 0 ∧ Near trail (room + 1) other upper) trail
      (((trail.past .terminator).along (Call.kinds calls)).along (Call.kinds later)) value after
      (((Task.action room (Form.skip 0 token)).step (symbols citation) nesting >>= fun value =>
        (Task.follow room power value).step (symbols citation) nesting) middle) := by
  have enters : trail.Keeps (trail.operand = false) (trail.past .terminator) :=
    Trail.keeps_past (by decide) (by decide) nofun
  have second (middle : Trail) (further : Reader Builder)
      (readers : reached.Abreast (.ok next :: rest) further) :=
    follow_fares operands power left _ _ _ _ _ middle follows readers
  have same : behind.atConstructEnd = middle.atConstructEnd := beside.atConstructEnd_eq more
  have skipped : (Task.action room (Form.skip 0 token)).step (symbols citation) nesting
      middle = _ := asked
  cases ran with
  | atEnd ran =>
    rw [same] at ran
    cases ended : middle.atConstructEnd with
    | true =>
      rw [ended] at ran skipped
      cases ran
      refine (Fares.then_follow ?_ follows (second _)).of_follow
      rw [skipped]
      exact .abreast enters beside
    | false =>
      rw [ended] at ran skipped
      have read : (Task.action room (Form.skip 0 token)).step (symbols citation) nesting middle =
          (Task.expression room 0).step (symbols citation) nesting middle :=
        skipped.trans (congrFun (Reader.run_expression _ _ 0) middle)
      cases ran with
      | operand reads given =>
        cases given
        have inside := operands 0 _ _ _ _ _ (trail.past .terminator) reads beside
        rw [List.append_nil]
        rw [← read] at inside
        generalize run : (Task.action room (Form.skip 0 token)).step (symbols citation) nesting
          middle = ending at inside
        cases inside with
        | abreast keeps readers =>
          refine (Fares.then_follow ?_ follows (second _)).of_follow
          rw [run]
          exact .abreast (enters.trans (keeps.imp fun _ => rfl)) readers
        | held ended held =>
          rcases follow_ended ended follows with ⟨rfl, rfl, rfl⟩
          exact .held ended fun outside _ => held (enters.depth.trans outside) nofun
        | resumed ended open_ keeps =>
          rcases follow_ended ended follows with ⟨rfl, rfl, rfl⟩
          have near := open_.2.due rfl
          rw [Attempt.bind_apply, run, ← Attempt.bind_apply, resume_bind_follow]
          exact fares_of_resumed ended keeps (by omega) (by omega) (by omega) (by omega)

/-- Expressions, by induction on the room for those within them. -/
theorem expression_fares (room power : Nat) :
    ExpressionFares citation nesting next rest room power := by
  induction room generalizing power with
  | zero =>
    intro reader calls value after other trail course
    cases course
  | succ room ih =>
    intro reader calls value after other trail course abreast
    cases course with
    | @opened _ behind token rule _ calls left reached _ later _ taken ran follows =>
      rcases Reader.takeOpening_eq_ok taken with ⟨first, known⟩
      rw [Call.kinds_cons, Call.kinds_append, Trail.along_cons, Trail.along_append, Call.token]
      rcases abreast.take_cases (Notation.complete citation) first with
        ⟨middle, also, beside, more⟩ | ⟨joins, ended, pause, stops, rfl⟩
      · rw [Task.step_of_takeOpening (Reader.takeOpening_of_take also known)]
        by_cases joins : token.kind = .terminator
        · have more := more joins
          rw [joins] at known ⊢
          obtain rfl := Option.some.inj known
          exact fares_of_skip ih ran follows beside more
        · refine (Fares.then_follow ?_ follows ?_).of_follow
          · exact fares_of_fits ih (fits_opening known) (Trail.enters_opening known joins trail) ran
              beside fun asks =>
              absurd (asks_opening asks) joins
          · exact fun further readers => follow_fares ih power left _ _ _ _ _ _ follows readers
      · rw [joins] at known ⊢
        obtain rfl := Option.some.inj known
        rcases asked_ended rfl ended ran with ⟨rfl, rfl, rfl⟩
        rcases follow_ended ended follows with ⟨rfl, rfl, rfl⟩
        cases power with
        | zero =>
          rw [expression_pause stops]
          exact fares_of_resumed ended (.refl _) (by omega) (by omega) (by omega) (by omega)
        | succ power =>
          exact .held ended fun outside due =>
            Trail.held_past_terminator outside (due (Nat.succ_pos power))

/-- A run goes on behind the values of another one: the last of them is resumed, or nothing is. -/
def Resumes (citation nesting : Nat) (next : Token) (rest : List (Except Fault Token))
    (values : List Meaning) (state : Builder)
    (ending : Except Fault (List Meaning) × Reader Builder) : Prop :=
  ∃ (early : List Meaning) (value : Option Meaning) (pause : Token) (room upper : Nat),
    values = early ++ value.toList ∧ room < nesting ∧ upper < nesting ∧ nesting ≤ room + 2 ∧
      nesting ≤ upper + 2 ∧
      ending = (resume (symbols citation) nesting room upper pause value >>= fun found =>
        Reader.sequence (symbols citation) nesting >>= fun more =>
            pure (early ++ (found.toList ++ more)))
        ⟨rest, some next, state⟩

theorem resumes_of_courses {values : List Meaning}
    (courses : Courses (symbols citation) nesting reader calls (.ok values, after))
    (room : 0 < nesting) (abreast : reader.Abreast (.ok next :: rest) other)
    (outside : trail.depth = 0) (free : (trail.along (Call.kinds calls)).held = false) :
    Resumes citation nesting next rest values after.state
      (Reader.sequence (symbols citation) nesting other) := by
  generalize ending : (Except.ok values, after) = result at courses
  induction courses generalizing values other trail with
  | failed | laterFailed => cases ending
  | finished at_end =>
    cases ending
    cases abreast with
    | @holding _ pause _ _ _ tokens =>
      cases tokens with
      | pause _ stops =>
        -- Nothing is resumed: the other run begins a new expression with the terminator.
        obtain ⟨nesting, rfl⟩ := Nat.exists_eq_succ_of_ne_zero (Nat.ne_of_gt room)
        refine ⟨[], none, pause, nesting, nesting - 1,
          rfl, by omega, by omega, by omega, by omega, ?_⟩
        exact (separates citation).sequence_of_pause (take_pause stops) stops
          (by simp [Reader.atEndOfInput, stops])
      | merged begins => simp [Reader.atEndOfInput, begins] at at_end
      | next inside => simp [Reader.atEndOfInput, inside] at at_end
  | @more reader calls value middle later others last goes_on read rest_ ih =>
    cases ending
    have fares := expression_fares nesting 0 _ _ _ _ _ trail read abreast
    rw [Reader.sequence_of_goes_on abreast.goes_on]
    rw [Call.kinds_append, Trail.along_append] at free
    have done (ended : middle.Ended) : after = middle ∧ later = [] ∧ others = [] := by
      cases rest_ with
      | finished => exact ⟨rfl, rfl, rfl⟩
      | more goes_on => cases goes_on.symm.trans ended.atEndOfInput
    generalize run : (Task.expression nesting 0).step (symbols citation) nesting other =
      ending at fares
    cases fares with
    | abreast keeps readers =>
      rcases ih readers (keeps.depth.trans outside) free rfl with
        ⟨early, found, pause, inner, upper, rfl, room_lt, upper_lt, le_room, le_upper, same⟩
      refine ⟨value.toList ++ early, found, pause, inner, upper, (List.append_assoc _ _ _).symm,
        room_lt, upper_lt, le_room, le_upper, ?_⟩
      rw [Attempt.bind_ok run, Attempt.bind_apply, same, ← Attempt.bind_apply]
      simp only [bind_assoc, pure_bind, List.append_assoc]
    | held ended held =>
      obtain ⟨rfl, rfl, rfl⟩ := done ended
      rw [show ((trail.along (Call.kinds calls)).along (Call.kinds [])).held =
        true from held outside (absurd · (Nat.lt_irrefl 0))] at free
      contradiction
    | @resumed pause inner upper ended open_ =>
      obtain ⟨rfl, rfl, rfl⟩ := done ended
      have near := open_.2
      refine ⟨[], value, pause, inner, upper, List.append_nil _, near.room_lt,
        near.upper_lt, near.le_room, near.le_upper, ?_⟩
      rw [Attempt.bind_apply, run, ← Attempt.bind_apply]
      rfl

end FactGraph.Grammar
