import FactGraph.Proofs.Graph.Intact
import FactGraph.Proofs.Graph.Spelled

namespace FactGraph.Graph

def Counted (graph : Graph) : Ident → Prop
  | .auto _ => False
  | .statement number => number < graph.nextStatement
  | .part group _ => group < graph.nextGroup
  | _ => True

variable {graph : Graph} {ident : Ident}

theorem counted_of_isNamed (named : ident.IsNamed) : graph.Counted ident := by
  cases named <;> trivial

theorem Distinct.counted (distinct : graph.Distinct) (known : graph.hasStatement ident = true)
    (drawn : ident.IsMain ∨ ∃ group role, ident = .part group role) : graph.Counted ident := by
  rcases drawn with (named | number) | ⟨group, role, rfl⟩
  · exact counted_of_isNamed named
  · exact distinct.statements number known
  · exact distinct.groups group role known

theorem bounded_of_counted (counted : graph.Counted ident)
    (statements : graph.nextStatement ≤ Text.counterBound)
    (groups : graph.nextGroup ≤ Text.counterBound) : ident.Bounded := by
  cases ident with
  | auto number => exact counted.elim
  | statement number => exact Nat.lt_of_lt_of_le counted statements
  | part group role => exact Nat.lt_of_lt_of_le counted groups
  | _ => trivial

namespace Built

variable {blocks : List Block}

theorem counted_main (built : Built blocks graph) {triple : Triple}
    (inside : triple ∈ graph.triples) (main : triple.ident.IsMain) :
    ∀ ident ∈ triple.idents, graph.Counted ident := by
  have known : ∀ triple ∈ graph.triples, triple.ident.IsMain → graph.Counted triple.ident :=
    fun triple inside main =>
    built.distinct.counted ((built.distinct.placed _).2 (List.mem_map_of_mem inside)) (.inl main)
  rcases built.intact.components triple inside main with ⟨about, predicate, object⟩
  have subject : graph.Counted triple.subject := by
    cases same : triple.subject with
    | statement number =>
      rcases List.append_of_mem inside with ⟨before, after, split⟩
      rcases built.intact.cited before after triple number split main same
        with ⟨cited, group, numbered, owns⟩
      have there : cited ∈ graph.triples :=
        split ▸ List.mem_append_left _ (owns.subset List.mem_cons_self)
      exact numbered ▸ known cited there (numbered ▸ .statement number)
    | _ => rcases same ▸ about with named | _; exact counted_of_isNamed named
  simp only [Triple.idents, List.forall_mem_cons]
  exact ⟨known triple inside main, subject, counted_of_isNamed predicate, counted_of_isNamed object,
    List.forall_mem_nil _⟩

theorem counted (built : Built blocks graph) : graph.Spelled graph.Counted := by
  intro triple inside
  rcases built.intact.kinds triple inside with main | ⟨group, role, part⟩
  · exact built.counted_main inside main
  · have own : graph.Counted triple.ident :=
      built.distinct.counted ((built.distinct.placed _).2 (List.mem_map_of_mem inside))
        (.inr ⟨group, role, part⟩)
    rcases built.exists_part inside part with ⟨block, made, _, rfl⟩
    have there : block.main ∈ graph.triples :=
      built.triples ▸ List.mem_flatMap_of_mem made block.main_mem
    have whole := built.counted_main there (built.sound block made).ident
    have component : block.main.component role ∈ block.main.idents := by
      cases role <;> simp [Triple.component, Triple.idents]
    simp only [Triple.idents, List.forall_mem_cons]
    exact ⟨own, whole _ List.mem_cons_self, trivial, whole _ component, List.forall_mem_nil _⟩

theorem nextStatement_le (built : Built blocks graph) : graph.nextStatement ≤ graph.size := by
  have few :=
    List.length_filterMap_le (fun triple : Triple => triple.ident.statementNumber?) graph.triples
  rwa [built.statements, List.length_range] at few

theorem nextGroup_le (built : Built blocks graph) : graph.nextGroup ≤ graph.size := by
  have few := List.length_filterMap_le (fun triple : Triple => triple.ident.part?) graph.triples
  rw [built.parts] at few
  simp [Role.partsOf, Role.all] at few
  exact Nat.le_trans (by omega) few

theorem bounded (built : Built blocks graph) (few : graph.size ≤ Text.counterBound) :
    graph.Spelled Ident.Bounded :=
  fun triple inside ident written => bounded_of_counted (built.counted triple inside ident written)
    (Nat.le_trans built.nextStatement_le few) (Nat.le_trans built.nextGroup_le few)

end Built

end FactGraph.Graph
