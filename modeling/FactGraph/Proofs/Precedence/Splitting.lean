import FactGraph.Proofs.Precedence.Course

namespace FactGraph.Precedence

variable {σ ν : Type} {symbols : Symbols σ ν} {nesting room power upper : Nat}
  {reader after : Reader σ} {left : Option ν}

namespace Task

theorem follow_of_looser (looser : reader.power symbols ≤ power) :
    (Task.follow room power left).step symbols nesting reader = (.ok left, reader) :=
  Reader.follow_of_looser looser

theorem isSome_of_tighter (tighter : power < reader.power symbols) : reader.current.isSome := by
  cases held : reader.current with
  | none => simp [Reader.power, held] at tighter
  | some token => rfl

end Task

namespace Course

variable {calls : List Call} {ending : Except Fault (Option ν) × Reader σ} {value : Option ν}

theorem power_le_of_follow
    (course : Course symbols nesting (.follow room power left) reader calls (.ok value, after)) :
    after.power symbols ≤ power := by
  induction course using follow_induction_on with
  | loose looser => exact looser
  | followed _ _ _ _ ih => exact ih

theorem power_le_of_expression
    (course : Course symbols nesting (.expression room power) reader calls (.ok value, after)) :
    after.power symbols ≤ power := by
  cases course with
  | opened _ _ follows => exact follows.power_le_of_follow

/-- The tighter operators come first, whether the looser ones are applied by the same loop or by a
later one. -/
theorem follow_step_eq (tighter : power ≤ upper)
    (course : Course symbols nesting (.follow room upper left) reader calls ending) :
    (Task.follow room power left).step symbols nesting reader =
      ((fun _ => ending : Attempt (Reader σ) (Option ν)) >>= fun value =>
        (Task.follow room power value).step symbols nesting) reader := by
  generalize task : Task.follow room upper left = doing at course
  induction course generalizing left with
  | limit | unopened | openingFailed | opened | give | refuse | operandFailed | operand | unclosed
  | close | atEnd | read | write => cases task
  | loose =>
    cases task
    rfl
  | unfollowed binds refused =>
    obtain ⟨rfl, rfl, rfl⟩ := Task.follow.inj task
    rw [Task.step, Reader.follow_of_tighter (Nat.lt_of_le_of_lt tighter binds),
      Attempt.bind_error refused]
    rfl
  | followingFailed binds taken failed =>
    obtain ⟨rfl, rfl, rfl⟩ := Task.follow.inj task
    rw [Task.step_of_takeFollowing (Nat.lt_of_le_of_lt tighter binds) taken,
      Attempt.bind_error failed.step_eq]
    rfl
  | followed binds taken ran _ _ ih =>
    obtain ⟨rfl, rfl, rfl⟩ := Task.follow.inj task
    rw [Task.step_of_takeFollowing (Nat.lt_of_le_of_lt tighter binds) taken,
      Attempt.bind_ok ran.step_eq, ih rfl]
    rfl

end Course

namespace Task

theorem exists_course_of_follow (symbols : Symbols σ ν) (nesting room power : Nat) (left : Option ν)
    (reader : Reader σ) :
    ∃ calls, Course symbols nesting (.follow room power left) reader calls
      ((Task.follow room power left).step symbols nesting reader) := by
  by_cases looser : reader.power symbols ≤ power
  · rw [follow_of_looser looser]
    exact ⟨[], .loose looser⟩
  · have holds := isSome_of_tighter (Nat.lt_of_not_le looser)
    exact follow_ends (fun power reader _ => expression_ends room power reader) power
      left reader holds

theorem power_le_of_follow {value : Option ν}
    (ran : (Task.follow room power left).step symbols nesting reader = (.ok value, after)) :
    after.power symbols ≤ power := by
  rcases exists_course_of_follow symbols nesting room power left reader with ⟨calls, course⟩
  exact (ran ▸ course).power_le_of_follow

theorem follow_bind_follow (tighter : power ≤ upper) :
    ((Task.follow room upper left).step symbols nesting >>= fun value =>
      (Task.follow room power value).step symbols nesting) =
          (Task.follow room power left).step symbols nesting := by
  funext reader
  rcases exists_course_of_follow symbols nesting room upper left reader with ⟨calls, course⟩
  exact (course.follow_step_eq tighter).symm

theorem follow_bind_looser {other : Nat} (looser : power ≤ upper) :
    ((Task.follow room power left).step symbols nesting >>= fun value =>
      (Task.follow other upper value).step symbols nesting) =
          (Task.follow room power left).step symbols nesting := by
  funext reader
  rcases ran : (Task.follow room power left).step symbols nesting reader
    with ⟨fault | value, reached⟩
  · exact Attempt.bind_error ran
  · exact (Attempt.bind_ok ran).trans
      (follow_of_looser (Nat.le_trans (power_le_of_follow ran) looser))

theorem expression_bind_follow (tighter : power ≤ upper) :
    ((Task.expression (room + 1) upper).step symbols nesting >>= fun value =>
      (Task.follow room power value).step symbols nesting) =
          (Task.expression (room + 1) power).step symbols nesting := by
  have split (upper : Nat) : (Task.expression (room + 1) upper).step symbols nesting =
      Reader.takeOpening symbols >>= fun found =>
      (Task.action room (found.2 found.1)).step symbols nesting >>=
        fun left => (Task.follow room upper left).step symbols nesting :=
        Reader.expressionWithin_succ
  rw [split, split]
  simp only [bind_assoc, follow_bind_follow tighter]

theorem power_le_of_expression {value : Option ν}
    (ran : (Task.expression room power).step symbols nesting reader = (.ok value, after)) :
    after.power symbols ≤ power := by
  rcases expression_ends room power reader with ⟨calls, course⟩
  exact (ran ▸ course).power_le_of_expression

theorem expression_bind_looser {other : Nat} (looser : power ≤ upper) :
    ((Task.expression room power).step symbols nesting >>= fun value =>
      (Task.follow other upper value).step symbols nesting) =
          (Task.expression room power).step symbols nesting := by
  funext reader
  rcases ran : (Task.expression room power).step symbols nesting reader
    with ⟨fault | value, reached⟩
  · exact Attempt.bind_error ran
  · exact (Attempt.bind_ok ran).trans
      (follow_of_looser (Nat.le_trans (power_le_of_expression ran) looser))

end Task

end FactGraph.Precedence
