import FactGraph.Fault

/-! Steps that may fail. The state a step has reached is kept when it fails. -/

namespace FactGraph

def Attempt (σ : Type) (α : Type) : Type := σ → Except Fault α × σ

namespace Attempt

instance {σ : Type} : Monad (Attempt σ) where
  pure value := fun state => (.ok value, state)
  bind step next := fun state =>
    match step state with
    | (.ok value, reached) => next value reached
    | (.error fault, reached) => (.error fault, reached)

variable {σ α β : Type}

def refuse (fault : Fault) : Attempt σ α := fun state => (.error fault, state)

def state : Attempt σ σ := fun state => (.ok state, state)

def change (step : σ → α × σ) : Attempt σ α := fun state =>
  let (value, reached) := step state
  (.ok value, reached)

@[simp] theorem pure_apply (value : α) (state : σ) :
    (pure value : Attempt σ α) state = (.ok value, state) := rfl

@[simp] theorem refuse_apply (fault : Fault) (state : σ) :
    (refuse fault : Attempt σ α) state = (.error fault, state) := rfl

@[simp] theorem state_apply (current : σ) :
    (state : Attempt σ σ) current = (.ok current, current) :=
  rfl

theorem bind_apply (step : Attempt σ α) (next : α → Attempt σ β) (state : σ) :
    (step >>= next) state =
      match step state with
      | (.ok value, reached) => next value reached
      | (.error fault, reached) => (.error fault, reached) := rfl

theorem bind_ok {step : Attempt σ α} {next : α → Attempt σ β} {state reached : σ} {value : α}
    (run : step state = (.ok value, reached)) : (step >>= next) state = next value reached := by
  simp [bind_apply, run]

theorem bind_error {step : Attempt σ α} {next : α → Attempt σ β} {state reached : σ}
    {fault : Fault} (run : step state = (.error fault, reached)) :
    (step >>= next) state = (.error fault, reached) := by
  simp [bind_apply, run]

theorem bind_congr {step : Attempt σ α} {next other : α → Attempt σ β} {state : σ}
    (same : ∀ value reached, step state = (.ok value, reached) →
      next value reached = other value reached) :
    (step >>= next) state = (step >>= other) state := by
  rcases run : step state with ⟨fault | value, reached⟩
  · rw [bind_error run, bind_error run]
  · rw [bind_ok run, bind_ok run, same value reached run]

instance : LawfulMonad (Attempt σ) := LawfulMonad.mk' (Attempt σ)
  (fun step => by
    funext state
    simp only [Functor.map]
    rcases step state with ⟨_ | _, _⟩ <;> rfl)
  (fun _ _ => rfl)
  (fun step _ _ => by
    funext state
    simp only [bind_apply]
    rcases step state with ⟨_ | _, _⟩ <;> rfl)

end Attempt

end FactGraph
