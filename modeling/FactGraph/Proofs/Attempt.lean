import FactGraph.Attempt

namespace FactGraph.Attempt

variable {σ α β : Type} {inv : σ → Prop} {good : α → Prop} {fine : β → Prop}

theorem snd_bind_pure (step : Attempt σ α) (answer : α → β) (state : σ) :
    ((step >>= fun value => Pure.pure (answer value)) state).2 = (step state).2 := by
  rw [bind_apply]
  split
  · next run => rw [pure_apply, run]
  · next run => rw [run]

/-- What comes after steps that have ended in the same way does not see which it was. -/
theorem bind_of_eq {step other : Attempt σ α} {next : α → Attempt σ β} {state state' : σ}
    (same : step state = other state') : (step >>= next) state = (other >>= next) state' := by
  rw [bind_apply, bind_apply, same]

theorem exists_of_bind_ok {step : Attempt σ α} {next : α → Attempt σ β}
    {state reached : σ} {value : β} (ran : (step >>= next) state = (.ok value, reached)) :
    ∃ found middle, step state = (.ok found, middle) ∧
    next found middle = (.ok value, reached) := by
  rcases run : step state with ⟨_ | found, middle⟩
  · rw [bind_error run] at ran
    cases ran
  · rw [bind_ok run] at ran
    exact ⟨found, middle, rfl, ran⟩

/-- Steps fail where the first of them does, or where it has come to an answer and the next one
fails. -/
theorem bind_eq_error_iff {step : Attempt σ α} {next : α → Attempt σ β} {state reached : σ}
    {fault : Fault} :
    (step >>= next) state = (.error fault, reached) ↔
      step state = (.error fault, reached) ∨
        ∃ found middle, step state = (.ok found, middle) ∧
        next found middle = (.error fault, reached) := by
  rcases run : step state with ⟨_ | value, after⟩
  · rw [bind_error run]
    simp
  · rw [bind_ok run]
    simp [and_assoc]

theorem bind_pure_eq_error_iff {step : Attempt σ α} {answer : α → β} {state reached : σ}
    {fault : Fault} :
    (step >>= fun value => Pure.pure (answer value)) state = (.error fault, reached) ↔
      step state = (.error fault, reached) := by
  rw [bind_eq_error_iff]
  simp

theorem exists_bind_pure_eq_ok_iff {step : Attempt σ α} {answer : α → β} {state : σ} :
    (∃ value reached, (step >>= fun value => Pure.pure (answer value)) state =
      (.ok value, reached)) ↔
      ∃ value reached, step state = (.ok value, reached) := by
  rcases run : step state with ⟨_ | value, after⟩
  · rw [bind_error run]
    simp
  · rw [bind_ok run]
    simp

theorem fst_bind_of_error {step : Attempt σ α} {next : α → Attempt σ β} {state : σ} {fault : Fault}
    (stopped : (step state).1 = .error fault) : ((step >>= next) state).1 = .error fault := by
  rcases run : step state with ⟨_ | value, after⟩
  · rw [bind_error run]
    rw [run] at stopped
    exact congrArg _ (Except.error.inj stopped)
  · rw [run] at stopped
    contradiction

/-- From a state with the invariant, the step leaves one with it, and its answer is good if it has
one. -/
def Keeps (inv : σ → Prop) (step : Attempt σ α) (good : α → Prop) : Prop :=
  ∀ state, inv state → inv (step state).2 ∧ ∀ value, (step state).1 = .ok value → good value

namespace Keeps

theorem of_ok {step : Attempt σ α} {before after : σ} {value : α} (keeps : Keeps inv step good)
    (kept : inv before) (ran : step before = (.ok value, after)) : inv after ∧ good value := by
  have stepped := keeps before kept
  rw [ran] at stepped
  exact ⟨stepped.1, stepped.2 value rfl⟩

theorem pure {value : α} (holds : good value) : Keeps inv (Pure.pure value) good := by
  intro state kept
  constructor
  · exact kept
  · intro other same
    have found : value = other := Except.ok.inj same
    exact found ▸ holds

theorem refuse {fault : Fault} : Keeps inv (Attempt.refuse fault) good := by
  intro state kept
  constructor
  · exact kept
  · intro value impossible
    contradiction

theorem bind {step : Attempt σ α} {next : α → Attempt σ β} (first : Keeps inv step good)
    (second : ∀ value, good value → Keeps inv (next value) fine) :
    Keeps inv (step >>= next) fine := by
  intro state kept
  rcases run : step state with ⟨_ | value, after⟩
  · have before := first state kept
    rw [run] at before
    rw [bind_error run]
    constructor
    · exact before.1
    · intro value impossible
      contradiction
  · rw [bind_ok run]
    rcases first.of_ok kept run with ⟨reached, holds⟩
    exact second value holds after reached

/-- A step that only moves the state along a preorder leaves it ahead of wherever it was before. -/
theorem along {rel : σ → σ → Prop} {step : Attempt σ α} (keeps : Keeps inv step good)
    (trans : ∀ first second third, rel first second → rel second third → rel first third)
    (moves : ∀ state, inv state → rel state (step state).2) (start : σ) :
    Keeps (fun state => inv state ∧ rel start state) step good := by
  rintro state ⟨kept, ahead⟩
  have stepped := keeps state kept
  exact ⟨⟨stepped.1, trans _ _ _ ahead (moves state kept)⟩, stepped.2⟩

theorem state : Keeps inv Attempt.state inv := by
  intro current kept
  constructor
  · exact kept
  · intro other same
    have found : current = other := Except.ok.inj same
    exact found ▸ kept

end Keeps

end FactGraph.Attempt
