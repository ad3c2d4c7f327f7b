import FactGraph.Graph

namespace FactGraph

theorem Ident.compareKeys_eq_eq {first second : Nat × String × Nat × Nat} :
    Ident.compareKeys first second = .eq ↔ first = second := by
  rcases first with ⟨kind, text, number, rank⟩
  rcases second with ⟨kind', text', number', rank'⟩
  simp only [Ident.compareKeys, Ordering.then_eq_eq, Std.LawfulEqCmp.compare_eq_iff_eq,
    Prod.mk.injEq]

theorem Ident.compare_eq_eq {first second : Ident} : compare first second = .eq ↔ first = second :=
  Ident.compareKeys_eq_eq.trans ⟨Ident.key_injective first second, congrArg Ident.key⟩

namespace Provenance

theorem find?_cons (places : Provenance) (ident other : Ident) (span : Span) :
    find? ((ident, span) :: places) other = if other = ident then some span
    else places.find? other := by
  unfold find?
  rw [List.lookup_cons]
  by_cases same : other = ident
  · simp [same]
  · simp [same, beq_eq_false_iff_ne.2 same]

theorem find?_record (places : Provenance) (ident other : Ident) (span : Span) :
    (places.record ident span).find? other = if other = ident then some span
    else places.find? other := by
  unfold record
  induction places with
  | nil => exact find?_cons [] ident other span
  | cons entry places ih =>
    rcases entry with ⟨known, place⟩
    simp only [insertOrdered]
    split
    · exact find?_cons _ ident other span
    · next equal =>
      obtain rfl := Ident.compare_eq_eq.1 equal
      simp only [find?_cons]
      split <;> rfl
    · next greater =>
      have apart : ident ≠ known := by
        intro same
        rw [Ident.compare_eq_eq.2 same] at greater
        contradiction
      simp only [find?_cons, ih]
      by_cases here : other = known
      · have elsewhere : other ≠ ident := here ▸ apart.symm
        simp only [if_pos here, if_neg elsewhere]
      · simp only [if_neg here]

end Provenance

namespace Graph

variable {graph : Graph} {ident : Ident}

theorem place?_push (triple : Triple) (span : Span) :
    (graph.push triple span).place? ident =
      if ident = triple.ident then some span else graph.place? ident :=
  Provenance.find?_record graph.places triple.ident ident span

theorem hasStatement_iff_mem :
    graph.hasStatement ident = true ↔ ident ∈ graph.places.map Prod.fst := by
  unfold hasStatement Provenance.find?
  rw [List.lookup_isSome_iff]
  simp

end Graph

end FactGraph
