import FactGraph.Proofs.Grammar.Corresponding
import FactGraph.Proofs.Grammar.Resuming

namespace FactGraph.Grammar

open Precedence

/-- How what stands before a terminator goes together in two runs, as long as the first comes to
something that is `allowed`: what is joined to it goes together in the same way. -/
structure Joins (like : Likeness Builder Meaning) (allowed : Option Meaning → Prop)
    (lefts : Option Meaning → Option Meaning → Prop) : Prop where
  known {left left' : Option Meaning} : lefts left left' → allowed left →
    (∀ name place, left ≠ some (.target name place)) →
    ∀ name place, left' ≠ some (.target name place)
  back {left right value : Option Meaning} {span : Span} :
      (∀ name place, left ≠ some (.target name place)) →
    join span left right = pure value → allowed value → allowed left
  step {left left' right right' value : Option Meaning} {span : Span} (span' : Span) :
      lefts left left' →
    like.operand right right' → join span left right = pure value → allowed value →
    ∃ value', join span' left' right' = pure value' ∧ lefts value value'

section Following

variable {table : Symbols Builder Meaning} {nesting room upper : Nat} {pause : Token}
  {left value : Option Meaning} {reader after : Reader Builder} {calls : List Call}
  {allowed : Option Meaning → Prop} {like : Likeness Builder Meaning}
  {lefts : Option Meaning → Option Meaning → Prop}

theorem Separates.power_le_of_terminator (separates : Separates table)
    (ran : (Task.action room (terminator pause left)).step table nesting reader =
      (.ok value, after)) :
    after.power table ≤ Power.terminator := by
  rcases terminator_cases ran with ⟨ended, _, rfl⟩ | ⟨_, _, right, read, _⟩
  · exact (separates.power_of_ended ended).le.trans (Nat.zero_le _)
  · exact Task.power_le_of_expression read

theorem Joins.allowed_of_terminator (joins : Joins like allowed lefts)
    (ran : (Task.action room (terminator pause left)).step table nesting reader =
      (.ok value, after))
    (inside : allowed value) : allowed left := by
  rcases terminator_cases ran with ⟨_, rfl, _⟩ | ⟨_, known, right, _, joined⟩
  · exact inside
  · exact joins.back known joined inside

theorem Separates.kind_of_take (separates : Separates table) {token : Token}
    (binds : 0 < reader.power table) (loose : reader.power table ≤ Power.terminator)
    (taken : Reader.take table reader = (.ok token, after)) :
    token.kind = .terminator := by
  have power := Reader.power_of_take (Task.isSome_of_tighter binds) taken
  rw [power] at binds loose
  exact separates.only token.kind binds loose

theorem Separates.rule_of_take (separates : Separates table) {token : Token}
    {rule : Following Builder Meaning} (binds : 0 < reader.power table)
    (loose : reader.power table ≤ Power.terminator)
    (taken : Reader.takeFollowing table reader = (.ok (token, rule), after)) :
    rule = terminator := by
  rcases Reader.takeFollowing_eq_ok taken with ⟨first, found⟩
  rw [separates.kind_of_take binds loose first, separates.following] at found
  exact (Option.some.inj found).symm

theorem Joins.allowed_of_follow (joins : Joins like allowed lefts) (separates : Separates table)
    (course : Course table nesting (.follow room 0 left) reader calls (.ok value, after))
    (loose : reader.power table ≤ Power.terminator) (inside : allowed value) : allowed left := by
  induction course using Course.follow_induction_on with
  | loose => exact inside
  | followed binds taken ran _ ih =>
    obtain rfl := separates.rule_of_take binds loose taken
    exact joins.allowed_of_terminator ran.step_eq
      (ih (separates.power_le_of_terminator ran.step_eq))

end Following

section Joined

variable {first second : Symbols Builder Meaning} {nesting nesting' room room' upper upper' : Nat}
  {pause : Token} {left left' value : Option Meaning} {reader reader' after : Reader Builder}
  {calls : List Call} {allowed : Option Meaning → Prop} {like : Likeness Builder Meaning}
  {lefts : Option Meaning → Option Meaning → Prop} (joins : Joins like allowed lefts)
  (fair : like.Fair) (tables : first.Parallel like second)

include joins fair tables

theorem Joins.terminator_joined (rooms : Reader.Roomy like nesting nesting' room room')
    (together : lefts left left') (readers : reader.Alike like reader')
    (ran : (Task.action room (terminator pause left)).step first nesting reader =
      (.ok value, after))
    (inside : allowed value) (pause' : Token) :
    ∃ value' after', (Task.action room' (terminator pause' left')).step second nesting' reader' =
      (.ok value', after') ∧
      lefts value value' ∧ after.Alike like after' := by
  rcases terminator_cases ran with ⟨ended, rfl, rfl⟩ | ⟨goes_on, known, right, read, joined⟩
  · rw [readers.atConstructEnd_eq fair] at ended
    refine ⟨left', reader', ?_, together, readers⟩
    refine asked.trans ?_
    rw [ended]
    rfl
  · have known' := joins.known together (joins.back known joined inside) known
    obtain ⟨right', after', also, rights, reached⟩ :
        ∃ right' after', (Task.expression room' Power.terminator).step second nesting' reader' =
          (.ok right', after') ∧
          like.operand right right' ∧ after.Alike like after' :=
      (Reader.expressionWithin_parallel fair tables rooms Power.terminator).of_ok readers read
    rcases joins.step pause'.span together rights joined inside with ⟨value', joined', values⟩
    rw [readers.atConstructEnd_eq fair] at goes_on
    refine ⟨value', after', ?_, values, reached⟩
    rw [action_of_goes_on goes_on known', Attempt.bind_ok also, joined']
    rfl

theorem Joins.follow_joined (separates : Separates first) (separates' : Separates second)
    (rooms : Reader.Roomy like nesting nesting' room room')
    (course : Course first nesting (.follow room 0 left) reader calls (.ok value, after))
    (loose : reader.power first ≤ Power.terminator) (together : lefts left left')
    (readers : reader.Alike like reader') (inside : allowed value) :
    ∃ value' after', (Task.follow room' 0 left').step second nesting' reader' =
      (.ok value', after') ∧
      lefts value value' ∧ after.Alike like after' := by
  induction course using Course.follow_induction_on generalizing left' reader' with
  | loose looser =>
    rw [readers.power_eq fair tables] at looser
    exact ⟨left', reader', Task.follow_of_looser looser, together, readers⟩
  | followed binds taken ran rest ih =>
    obtain rfl := separates.rule_of_take binds loose taken
    have behind_loose := separates.power_le_of_terminator ran.step_eq
    have found_allowed := joins.allowed_of_follow separates rest behind_loose inside
    rcases Reader.takeFollowing_eq_ok taken with ⟨took, _⟩
    rcases (Reader.take_parallel fair tables).of_ok readers took
      with ⟨token', behind', also, tokens, behinds⟩
    rcases joins.terminator_joined fair tables rooms together behinds ran.step_eq
      found_allowed token' with
      ⟨found', reached', ran', founds, reaches⟩
    have kind : token'.kind = .terminator :=
      (fair.kind tokens).symm.trans (separates.kind_of_take binds loose took)
    have known : second.following? token'.kind = some terminator := kind ▸ separates'.following
    rw [readers.power_eq fair tables] at binds
    rw [Task.step_of_takeFollowing binds (Reader.takeFollowing_of_take also known),
      Attempt.bind_ok ran']
    exact ih behind_loose founds reaches

/-- What comes of a terminator goes together, if what stands before it does. -/
theorem Joins.resume_joined (separates : Separates first) (separates' : Separates second)
    (rooms : Reader.Roomy like nesting nesting' room room')
    (uppers : Reader.Roomy like nesting nesting' upper upper') (together : lefts left left')
    (readers : reader.Alike like reader')
    (ran : resume first nesting room upper pause left reader = (.ok value, after))
    (inside : allowed value) (pause' : Token) :
    ∃ value' after', resume second nesting' room' upper' pause' left' reader' =
      (.ok value', after') ∧
      lefts value value' ∧ after.Alike like after' := by
  rcases Attempt.exists_of_bind_ok ran with ⟨found, reached, joined, followed⟩
  rcases Task.exists_course_of_follow first nesting upper 0 found reached with ⟨calls, course⟩
  rw [followed] at course
  have loose := separates.power_le_of_terminator joined
  have found_allowed := joins.allowed_of_follow separates course loose inside
  rcases joins.terminator_joined fair tables rooms together readers joined found_allowed pause' with
    ⟨found', reached', joined', founds, reaches⟩
  rw [resume, Attempt.bind_ok joined']
  exact joins.follow_joined fair tables separates separates' uppers course loose founds
    reaches inside

theorem Joins.sequel_joined {early values : List Meaning} (separates : Separates first)
    (separates' : Separates second) (whole : Reader.Roomy like nesting nesting' nesting nesting')
    (rooms : Reader.Roomy like nesting nesting' room room')
    (uppers : Reader.Roomy like nesting nesting' upper upper') (together : lefts left left')
    (readers : reader.Alike like reader')
    (ran : (resume first nesting room upper pause left >>= fun value =>
      Reader.sequence first nesting >>= fun more =>
      pure (early ++ (value.toList ++ more))) reader = (.ok values, after))
    (inside : ∀ value : Option Meaning, value.toList ⊆ values → allowed value)
    (early' : List Meaning) (pause' : Token) :
    ∃ value value' more more' after', values = early ++ (value.toList ++ more) ∧
      (resume second nesting' room' upper' pause' left' >>= fun value =>
        Reader.sequence second nesting' >>= fun more =>
        pure (early' ++ (value.toList ++ more))) reader' =
            (.ok (early' ++ (value'.toList ++ more')), after') ∧
      lefts value value' ∧ List.Forall₂ like.meaning more more' ∧ after.Alike like after' := by
  rcases Attempt.exists_of_bind_ok ran with ⟨value, reached, resumed, behind⟩
  rcases Attempt.exists_of_bind_ok behind with ⟨more, last, sequel, given⟩
  cases given
  have value_allowed := inside value fun meaning inside => by simp [inside]
  rcases joins.resume_joined fair tables separates separates' rooms uppers together readers resumed
    value_allowed pause' with ⟨value', reached', resumed', values', reaches⟩
  rcases (Reader.sequence_parallel fair tables whole).of_ok reaches sequel
    with ⟨more', last', sequel', mores, lasts⟩
  refine ⟨value, value', more, more', last', rfl, ?_, values', mores, lasts⟩
  rw [Attempt.bind_ok resumed', Attempt.bind_ok sequel']
  rfl

end Joined

end FactGraph.Grammar
