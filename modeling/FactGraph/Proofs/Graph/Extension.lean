import FactGraph.Proofs.Graph.Construction
import FactGraph.Proofs.Graph.Operation

namespace FactGraph

namespace Graph

/-- The statements of the graph come first in the other, each with the place it has, and what has
been drawn stays drawn. -/
structure Extends (graph after : Graph) : Prop extends graph.Draws after where
  triples : graph.triples <+: after.triples
  placed (ident : Ident) : graph.hasStatement ident = true → after.place? ident = graph.place? ident
  statements : graph.nextStatement ≤ after.nextStatement
  groups : graph.nextGroup ≤ after.nextGroup

variable {graph middle after : Graph}

namespace Extends

theorem refl (graph : Graph) : graph.Extends graph where
  toDraws := .refl graph
  triples := List.prefix_refl _
  placed _ _ := rfl
  statements := Nat.le_refl _
  groups := Nat.le_refl _

theorem trans (first : graph.Extends middle) (second : middle.Extends after) :
    graph.Extends after where
  toDraws := first.toDraws.trans second.toDraws
  triples := first.triples.trans second.triples
  placed ident known := by
    have place := first.placed ident known
    have still : middle.hasStatement ident = true := by
      rw [hasStatement_eq_isSome_place?, place]
      exact known
    exact (second.placed ident still).trans place
  statements := Nat.le_trans first.statements second.statements
  groups := Nat.le_trans first.groups second.groups

end Extends

theorem Appended.extends {nodes : List Property} {blocks : List (Block × Span)}
    (appended : graph.Appended nodes blocks after) : graph.Extends after where
  toDraws := .of_eq appended.entities appended.minted
  triples := ⟨_, appended.triples.symm⟩
  placed := appended.kept
  statements := appended.statements ▸ Nat.le_add_right _ _
  groups := appended.groups ▸ Nat.le_add_right _ _

theorem allocate_extends (graph : Graph) (name : Option String) :
    graph.Extends (graph.allocate name).2 where
  toDraws := graph.allocate_draws name
  triples := triples_allocate graph name ▸ List.prefix_refl _
  placed ident _ := by rw [place?, place?, places_allocate]
  statements := Nat.le_of_eq (nextStatement_allocate graph name).symm
  groups := Nat.le_of_eq (nextGroup_allocate graph name).symm

end Graph

namespace Property

open FactGraph.Graph

variable {most : Nat} {graph : Graph}

theorem walk_extends {route : List Site} (distinct : graph.Distinct)
    (labels : LabelsNamed (route.map (·.property))) : graph.Extends (walk most route graph).2 := by
  induction route generalizing graph with
  | nil => exact .refl graph
  | cons site route ih =>
    rcases List.forall_mem_cons.1 labels with ⟨own, others⟩
    cases met : site.property.obstacle? most site.depth site.span graph with
    | some fault =>
      rw [walk_of_obstacle met]
      exact .refl graph
    | none =>
      have free := free_of_obstacle?_eq_none own met
      have made := (appended_emit site.span site.subject distinct free).extends
      rw [walk_of_clear met]
      exact made.trans (ih (distinct.emit site.span site.subject free) others)

theorem attach_extends {span : Span} {subject : Ident} {property : Property}
    (distinct : graph.Distinct) (labels : LabelsNamed (nodes property)) :
    graph.Extends (attach most span subject property graph).2 := by
  rw [attach, attachAt_eq_walk, Attempt.snd_bind_pure]
  apply walk_extends distinct
  rwa [map_property_sites]

theorem labelsNamed_of_named {nodes : List Property} (named : ∀ node ∈ nodes, node.Named) :
    LabelsNamed nodes := by
  intro node inside
  exact (named node inside).label

theorem attachPairs_extends {span : Span} {pairs : List (Ident × Property)} {blocks : List Block}
    (built : Built blocks graph)
    (named : ∀ pair ∈ pairs, pair.1.IsNamed ∧ ∀ node ∈ nodes pair.2, node.Named) :
    graph.Extends (attachPairs most span pairs graph).2 := by
  induction pairs generalizing graph blocks with
  | nil => exact .refl graph
  | cons pair pairs ih =>
    rcases List.forall_mem_cons.1 named with ⟨first, others⟩
    have extended : graph.Extends (attach most span pair.1 pair.2 graph).2 :=
      attach_extends built.distinct (labelsNamed_of_named first.2)
    have added : ∃ more, Built (blocks ++ more) (attach most span pair.1 pair.2 graph).2 :=
      attachAt_built built (.inl first.1) first.2
    rcases added with ⟨more, made⟩
    rw [attachPairs, Attempt.bind_apply]
    split
    · next ident middle run =>
      rw [run] at extended
      rw [run] at made
      exact extended.trans (ih made others)
    · next fault middle run =>
      rwa [run] at extended

end Property

end FactGraph
