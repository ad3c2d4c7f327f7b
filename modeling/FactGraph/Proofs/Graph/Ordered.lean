import FactGraph.Proofs.Graph.Construction

namespace FactGraph

section

variable {α : Type} {order : α → α → Ordering} {item other : α} {items : List α}

theorem mem_of_mem_insertOrdered (inside : other ∈ insertOrdered order item items) :
    other = item ∨ other ∈ items := by
  induction items with
  | nil => exact .inl (List.mem_singleton.1 inside)
  | cons first rest ih =>
    rw [insertOrdered] at inside
    split at inside
    · exact List.mem_cons.1 inside
    · exact (List.mem_cons.1 inside).imp_right (List.mem_cons_of_mem first)
    · rcases List.mem_cons.1 inside with rfl | later
      · exact .inr List.mem_cons_self
      · exact (ih later).imp_right (List.mem_cons_of_mem first)

theorem pairwise_insertOrdered [Std.TransCmp order]
    (ascending : items.Pairwise fun first second => order first second = .lt) :
    (insertOrdered order item items).Pairwise fun first second => order first second = .lt := by
  induction items with
  | nil => exact List.pairwise_singleton _ _
  | cons first rest ih =>
    rcases List.pairwise_cons.1 ascending with ⟨least, later⟩
    rw [insertOrdered]
    split
    · next below =>
      refine List.pairwise_cons.2 ⟨?_, ascending⟩
      intro other inside
      rcases List.mem_cons.1 inside with rfl | behind
      · exact below
      · exact Std.TransCmp.lt_trans below (least other behind)
    · next same =>
      exact List.pairwise_cons.2 ⟨fun other behind =>
        Std.TransCmp.lt_of_eq_of_lt same (least other behind), later⟩
    · next above =>
      refine List.pairwise_cons.2 ⟨?_, ih later⟩
      intro other inside
      rcases mem_of_mem_insertOrdered inside with rfl | behind
      · exact Std.OrientedCmp.lt_of_gt above
      · exact least other behind

end

theorem transCmp_by {α β : Type} (order : β → β → Ordering) [Std.TransCmp order] (f : α → β) :
    Std.TransCmp fun first second => order (f first) (f second) where
  eq_swap := Std.OrientedCmp.eq_swap
  isLE_trans := Std.TransCmp.isLE_trans

theorem Ident.transCmp_compareKeys : Std.TransCmp compareKeys :=
  inferInstanceAs (Std.TransCmp (compareLex (compareOn fun key => key.1)
    (compareLex (compareOn fun key : Nat × String × Nat × Nat => key.2.1)
      (compareLex (compareOn fun key => key.2.2.1) (compareOn fun key => key.2.2.2)))))

theorem Ident.transCmp_compare : Std.TransCmp (compare : Ident → Ident → Ordering) :=
  haveI := transCmp_compareKeys
  transCmp_by compareKeys key

def Provenance.Ascending (places : Provenance) : Prop :=
  places.Pairwise fun first second => compare first.1 second.1 = .lt

theorem Provenance.Ascending.record {places : Provenance} (ascending : places.Ascending)
    (ident : Ident) (span : Span) :
    (places.record ident span).Ascending :=
  haveI := Ident.transCmp_compare
  haveI := transCmp_by (compare : Ident → Ident → Ordering) (Prod.fst : Ident × Span → Ident)
  pairwise_insertOrdered ascending

namespace Graph

theorem ascending_pushAll {graph : Graph} {triples : List Triple} {span : Span}
    (ascending : graph.places.Ascending) :
    (graph.pushAll triples span).places.Ascending := by
  induction triples generalizing graph with
  | nil => exact ascending
  | cons triple triples ih =>
    have pushed : (graph.push triple span).places.Ascending := ascending.record triple.ident span
    exact ih pushed

theorem Built.ascending {blocks : List Block} {graph : Graph} (built : Built blocks graph) :
    graph.places.Ascending := by
  induction built with
  | empty => exact .nil
  | allocate name _ ih => rwa [places_allocate]
  | emit span _ _ _ _ ih => exact ascending_pushAll ih

end Graph

end FactGraph
