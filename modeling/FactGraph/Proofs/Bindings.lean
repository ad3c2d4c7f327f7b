import FactGraph.Builder
import FactGraph.Proofs.Attempt

namespace FactGraph

open Attempt

variable {good : Meaning → Prop}

def Builder.Bound (good : Meaning → Prop) (builder : Builder) : Prop :=
  ∀ entry ∈ builder.bindings, good entry.2

theorem Builder.bound_empty : Builder.empty.Bound good :=
  List.forall_mem_nil _

namespace Bindings

theorem mem_of_resolve {bindings : Bindings} {name : String} {span : Span} {meaning : Meaning}
    (found : bindings.resolve name span = .ok meaning) : (name, meaning) ∈ bindings := by
  unfold resolve at found
  split at found
  · next value known =>
    simp only [Except.ok.injEq] at found
    subst found
    rcases List.lookup_eq_some_iff.1 known with ⟨before, after, rfl, -⟩
    simp
  · contradiction

theorem eq_undefined_of_resolve {bindings : Bindings} {name : String} {span : Span} {fault : Fault}
    (missing : bindings.resolve name span = .error fault) :
    fault = .undefined name span.position := by
  unfold resolve at missing
  split at missing
  · contradiction
  · exact (Except.error.inj missing).symm

theorem eq_redefined_of_define {builder : Builder} {name : String} {meaning : Meaning} {span : Span}
    {fault : Fault} (failed : (Builder.onBindings (define name meaning span) builder).1 =
      .error fault) :
    fault = .redefined name span.position := by
  simp only [Builder.onBindings, define] at failed
  split at failed
  · exact (Except.error.inj failed).symm
  · contradiction

theorem define_keeps {name : String} {meaning : Meaning} {span : Span} (holds : good meaning) :
    Keeps (Builder.Bound good) (Builder.onBindings (define name meaning span)) fun _ => True := by
  intro builder bound
  refine ⟨?_, fun _ _ => trivial⟩
  simp only [Builder.onBindings, define]
  split
  · exact bound
  · intro entry inside
    rcases List.mem_cons.1 inside with rfl | inside
    · exact holds
    · exact bound entry inside

end Bindings

theorem Builder.onGraph_keeps_bound {α : Type} (step : Attempt Graph α) :
    Keeps (Builder.Bound good) (Builder.onGraph step) fun _ => True :=
  fun _ bound => ⟨bound, fun _ _ => trivial⟩

end FactGraph
