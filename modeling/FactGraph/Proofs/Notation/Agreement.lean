import FactGraph.Builder
import FactGraph.Precedence.Reader

namespace FactGraph.Notation

open Attempt Precedence

variable {α β γ δ : Type}

/-- What has been read and what has been evaluated agree. Both go on with the same meaning and the
same builder, or both have failed with the same fault and builder, or the reading has met its limit,
for which the tree has to be deep. -/
def Agrees (limit : Fault) (deep : Prop) (outcome : Except Fault β × Reader Builder)
    (answer : Except Fault α × Builder) (next : α → Builder → Except Fault β × Reader Builder) :
    Prop :=
  (deep ∧ outcome.1 = .error limit) ∨
    match answer with
    | (.ok value, builder) => outcome = next value builder
    | (.error fault, builder) => outcome.1 = .error fault ∧ outcome.2.state = builder

namespace Agrees

variable {limit : Fault} {deep : Prop} {outcome : Except Fault β × Reader Builder}
  {answer : Except Fault α × Builder} {next : α → Builder → Except Fault β × Reader Builder}

theorem mono {deeper : Prop} (agrees : Agrees limit deep outcome answer next)
    (weaker : deep → deeper) : Agrees limit deeper outcome answer next :=
  agrees.imp_left (And.imp_left weaker)

theorem refuse {fault : Fault} {reader : Reader Builder} {builder : Builder}
    (same : reader.state = builder) :
    Agrees limit deep ((.error fault, reader) : Except Fault β × Reader Builder)
      (Attempt.refuse fault builder : Except Fault α × Builder) next :=
  .inr ⟨rfl, same⟩

theorem congr {other : α → Builder → Except Fault β × Reader Builder}
    (agrees : Agrees limit deep outcome answer next)
    (same : ∀ value builder, next value builder = other value builder) :
    Agrees limit deep outcome answer other := by
  have equal : next = other := funext fun value => funext (same value)
  exact equal ▸ agrees

theorem chain {step : Attempt Builder γ} {rest : γ → Attempt Builder α} {builder : Builder}
    {middle : γ → Builder → Except Fault β × Reader Builder}
    (first : Agrees limit deep outcome (step builder) middle)
    (second : ∀ value reached, step builder = (.ok value, reached) →
      Agrees limit deep (middle value reached) (rest value reached) next) :
    Agrees limit deep outcome ((step >>= rest) builder) next := by
  rcases first with stopped | same
  · exact .inl stopped
  · rcases run : step builder with ⟨fault | value, reached⟩
    · rw [run] at same
      rw [bind_error run]
      exact .inr same
    · rw [run] at same
      rw [bind_ok run]
      exact same ▸ second value reached run

theorem andThen {read : Attempt (Reader Builder) δ} {more : δ → Attempt (Reader Builder) β}
    {reader : Reader Builder} {result : α → δ} {after : Builder → Reader Builder}
    (first : Agrees limit deep (read reader) answer fun value reached =>
      (.ok (result value), after reached)) :
    Agrees limit deep ((read >>= more) reader) answer fun value reached =>
      more (result value) (after reached) := by
  rcases outcome : read reader with ⟨stop | value, ready⟩
  · rw [bind_error outcome]
    rw [outcome] at first
    rcases first with ⟨holds, stopped⟩ | same
    · exact .inl ⟨holds, by simpa using stopped⟩
    · right
      rcases answer with ⟨_ | _, _⟩
      · simpa using same
      · simp at same
  · rw [bind_ok outcome]
    rw [outcome] at first
    rcases first with ⟨-, stopped⟩ | same
    · simp at stopped
    · right
      rcases answer with ⟨_ | _, _⟩
      · simp at same
      · simp only [Prod.mk.injEq, Except.ok.injEq] at same
        rw [same.1, same.2]

end Agrees

end FactGraph.Notation
