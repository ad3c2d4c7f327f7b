import FactGraph.Proofs.Attempt
import FactGraph.Proofs.Graph.Walk

namespace FactGraph

def Property.States (property : Property) (subject : Ident) (triple : Triple) : Prop :=
  triple.subject = subject ∧ triple.predicate = property.predicate ∧ triple.object = property.object

theorem Graph.exists_stated_emitAll (graph : Graph) (route : List Site) :
    ∃ stated, (graph.emitAll route).triples = graph.triples ++ stated ∧
      ∀ site ∈ route, ∃ triple ∈ stated, site.property.States site.subject triple := by
  induction route generalizing graph with
  | nil => exact ⟨[], (List.append_nil _).symm, nofun⟩
  | cons site route ih =>
    let made := site.property.block graph.nextStatement graph.nextGroup site.subject
    obtain ⟨later, rest, each⟩ := ih (graph.emit site.span site.subject site.property)
    have own : site.property.States site.subject made.main := ⟨rfl, rfl, rfl⟩
    refine ⟨made.triples ++ later, ?_, ?_⟩
    · rw [emitAll_cons, rest, triples_emit, List.append_assoc]
    · intro other inside
      rcases List.mem_cons.1 inside with rfl | inside
      · exact ⟨made.main, List.mem_append_left _ made.main_mem, own⟩
      · obtain ⟨triple, there, states⟩ := each other inside
        exact ⟨triple, List.mem_append_right _ there, states⟩

namespace Property

variable {most : Nat} {span : Span} {graph after : Graph}

theorem self_mem_sites (statement depth : Nat) (subject : Ident) (property : Property) :
    ⟨depth, span, subject, property⟩ ∈ sites statement depth span subject property := by
  cases property
  rw [sites]
  exact List.mem_cons_self

theorem exists_stated_of_attach {subject ident : Ident} {property : Property}
    (attached : attach most span subject property graph = (.ok ident, after)) :
    ∃ stated, after.triples = graph.triples ++ stated ∧
    ∃ triple ∈ stated, property.States subject triple := by
  rw [attach, attachAt_eq_walk] at attached
  obtain ⟨_, reached, walked, ended⟩ := Attempt.exists_of_bind_ok attached
  obtain rfl : reached = after := (Prod.mk.inj ended).2
  have made := eq_emitAll_of_walk walked
  obtain ⟨stated, behind, each⟩ :=
    graph.exists_stated_emitAll (sites graph.nextStatement 0 span subject property)
  exact ⟨stated, made ▸ behind, each _ (self_mem_sites _ _ _ _)⟩

theorem exists_stated_of_attachPairs {pairs : List (Ident × Property)}
    (attached : attachPairs most span pairs graph = (.ok (), after)) :
    ∃ stated, after.triples = graph.triples ++ stated ∧
      ∀ pair ∈ pairs, ∃ triple ∈ stated, pair.2.States pair.1 triple := by
  induction pairs generalizing graph with
  | nil =>
    obtain rfl : graph = after := (Prod.mk.inj attached).2
    exact ⟨[], (List.append_nil _).symm, nofun⟩
  | cons pair pairs ih =>
    obtain ⟨ident, middle, first, rest⟩ := Attempt.exists_of_bind_ok attached
    obtain ⟨own, made, triple, inside, states⟩ := exists_stated_of_attach first
    obtain ⟨later, behind, each⟩ := ih rest
    refine ⟨own ++ later, ?_, ?_⟩
    · rw [behind, made, List.append_assoc]
    · intro other among
      rcases List.mem_cons.1 among with rfl | among
      · exact ⟨triple, List.mem_append_left _ inside, states⟩
      · obtain ⟨triple, there, states⟩ := each other among
        exact ⟨triple, List.mem_append_right _ there, states⟩

theorem exists_stated_of_attachEach {subjects : List Ident} {properties : List Property}
    (attached : attachEach most span subjects properties graph = (.ok (), after)) :
    ∃ stated, after.triples = graph.triples ++ stated ∧
      ∀ subject ∈ subjects, ∀ property ∈ properties, ∃ triple ∈ stated,
        property.States subject triple := by
  obtain ⟨stated, behind, each⟩ := exists_stated_of_attachPairs attached
  refine ⟨stated, behind, ?_⟩
  intro subject about property given
  exact each (subject, property) (List.mem_flatMap_of_mem about (List.mem_map_of_mem given))

end Property

end FactGraph
