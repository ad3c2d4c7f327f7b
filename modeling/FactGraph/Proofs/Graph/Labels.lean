import FactGraph.Proofs.Graph.Numbered
import FactGraph.Proofs.Graph.Operation

/-! Labels from outside. Whoever changes a graph directly may label a statement with any identifier
that is not there yet, also with one that a counter has still to give out. Statements have different
identifiers, and keep their places, just as long as this does not happen. -/

namespace FactGraph

namespace Graph

open scoped List

def draw (statement statements group groups : Nat) : List Ident :=
  (List.range' statement statements).map .statement ++
    (Role.partsOf (List.range' group groups)).map fun part => .part part.1 part.2

def drawn (graph : Graph) : List Ident := draw 0 graph.nextStatement 0 graph.nextGroup

theorem not_mem_drawn_iff {graph : Graph} {ident : Ident} : ident ∉ graph.drawn ↔
    (∀ number < graph.nextStatement, ident ≠ .statement number) ∧
      ∀ group < graph.nextGroup, ∀ role, ident ≠ .part group role := by
  rw [drawn, draw, List.mem_append, not_or]
  apply and_congr
  · simp [eq_comm]
  · simp [Role.partsOf, Role.mem_all, eq_comm]

theorem nodup_draw (statement statements group groups : Nat) :
    (draw statement statements group groups).Nodup := by
  have numbers : (List.range' statement statements).Nodup := List.nodup_range'
  have groupsApart : (List.range' group groups).Nodup := List.nodup_range'
  have parts : (Role.partsOf (List.range' group groups)).Nodup := by
    refine List.nodup_flatMap.2 ⟨?_, groupsApart.imp ?_⟩
    · intro other _
      exact List.Nodup.map (fun _ _ same => (Prod.mk.inj same).2) (by decide)
    · intro first second apart part inside inside'
      rcases List.mem_map.1 inside with ⟨_, _, rfl⟩
      rcases List.mem_map.1 inside' with ⟨_, _, same⟩
      exact apart (Prod.mk.inj same).1.symm
  refine List.nodup_append.2 ⟨?_, ?_, ?_⟩
  · exact numbers.map fun _ _ same => Ident.statement.inj same
  · exact parts.map fun _ _ same => Prod.ext (Ident.part.inj same).1 (Ident.part.inj same).2
  · intro ident numbered other part same
    rcases List.mem_map.1 numbered with ⟨_, _, rfl⟩
    rcases List.mem_map.1 part with ⟨_, _, rfl⟩
    contradiction

theorem draw_add (statement statements more group groups others : Nat) :
    (draw statement (statements + more) group (groups + others)).Perm
      (draw statement statements group groups ++
        draw (statement + statements) more (group + groups) others) := by
  simp only [draw, Role.partsOf, ← List.range'_append_1, List.flatMap_append, List.map_append,
    List.append_assoc]
  exact List.Perm.append_left _ (List.perm_append_comm_assoc _ _ _)

/-- Every identifier is one of the labels, or has been given out by a counter. No two labels are the
same. -/
structure Labelled (labels : List Ident) (graph : Graph) : Prop where
  idents : (graph.triples.map (·.ident)).Perm (labels ++ graph.drawn)
  labels : labels.Nodup
  placed (ident : Ident) : graph.hasStatement ident = true ↔ ident ∈ graph.triples.map (·.ident)

theorem labelled_empty : empty.Labelled [] where
  idents := .nil
  labels := .nil
  placed := distinct_empty.placed

theorem Labelled.nodup_iff {labels : List Ident} {graph : Graph}
    (labelled : graph.Labelled labels) :
    (graph.triples.map (·.ident)).Nodup ↔ ∀ label ∈ labels, label ∉ graph.drawn := by
  rw [labelled.idents.nodup_iff, List.nodup_append]
  constructor
  · intro apart label inside drawn
    exact apart.2.2 label inside label drawn rfl
  · intro apart
    refine ⟨labelled.labels, nodup_draw _ _ _ _, ?_⟩
    rintro label inside _ drawn rfl
    exact apart label inside drawn

/-- From the first graph to the other, statements are added, under these labels and under what the
counters give out. Only statements with such an identifier change their place. -/
structure Grows (labels : List Ident) (graph after : Graph) : Prop where
  added : ∃ more, after.triples = graph.triples ++ more ∧
    ∀ ident ∉ more.map (·.ident), after.place? ident = graph.place? ident
  labelled (known : List Ident) : graph.Labelled known → after.Labelled (known ++ labels)

namespace Grows

variable {labels others : List Ident} {graph middle after : Graph}

theorem refl (graph : Graph) : graph.Grows [] graph where
  added := ⟨[], (List.append_nil _).symm, fun _ _ => rfl⟩
  labelled known := by
    rw [List.append_nil]
    exact id

theorem trans (first : graph.Grows labels middle) (second : middle.Grows others after) :
    graph.Grows (labels ++ others) after where
  added := by
    rcases first.added with ⟨more, added, kept⟩
    rcases second.added with ⟨most, added', kept'⟩
    refine ⟨more ++ most, by rw [added', added, List.append_assoc], ?_⟩
    intro ident outside
    rw [List.map_append, List.mem_append, not_or] at outside
    rw [kept' ident outside.2, kept ident outside.1]
  labelled known labelled := by
    rw [← List.append_assoc]
    exact second.labelled _ (first.labelled known labelled)

theorem allocate (graph : Graph) (name : Option String) :
    graph.Grows [] (graph.allocate name).2 where
  added := ⟨[], by simp, fun _ _ => by rw [place?, place?, places_allocate]⟩
  labelled known labelled := by
    constructor
    · simpa [drawn] using labelled.idents
    · simpa using labelled.labels
    · simpa using labelled.placed

theorem pushAll {triples : List Triple} {label : Option Ident}
    {statements groups : Nat} (span : Span)
    (made : triples.map (·.ident) =
      label.toList ++ draw graph.nextStatement statements graph.nextGroup groups)
    (new : ∀ ident ∈ label, graph.hasStatement ident = false) :
    graph.Grows label.toList (Graph.pushAll triples span
      { graph with
        nextStatement := graph.nextStatement + statements
        nextGroup := graph.nextGroup + groups }) where
  added := by
    refine ⟨triples, by rw [pushAll_eq], ?_⟩
    intro ident outside
    rw [place?_pushAll, if_neg outside]
    rfl
  labelled known labelled := by
    constructor
    · have drawn := draw_add 0 graph.nextStatement statements 0 graph.nextGroup groups
      rw [Nat.zero_add, Nat.zero_add] at drawn
      rw [pushAll_eq, List.map_append, made]
      calc graph.triples.map (·.ident) ++
            (label.toList ++ draw graph.nextStatement statements graph.nextGroup groups)
          ~ known ++ graph.drawn ++
            (label.toList ++ draw graph.nextStatement statements graph.nextGroup groups) :=
            labelled.idents.append_right _
        _ ~ known ++ label.toList ++
              (graph.drawn ++ draw graph.nextStatement statements graph.nextGroup groups) := by
            simp only [List.append_assoc]
            exact (List.perm_append_comm_assoc _ _ _).append_left _
        _ ~ known ++ label.toList ++ draw 0 (graph.nextStatement + statements) 0
          (graph.nextGroup + groups) :=
            drawn.symm.append_left _
    · refine List.nodup_append.2 ⟨labelled.labels, by cases label <;> simp, ?_⟩
      rintro ident before _ inside rfl
      have unknown := new ident (Option.mem_toList.1 inside)
      have known : graph.hasStatement ident = true :=
        (labelled.placed ident).2 (labelled.idents.mem_iff.2 (List.mem_append_left _ before))
      rw [known] at unknown
      contradiction
    · intro ident
      have earlier := labelled.placed ident
      rw [hasStatement_pushAll, pushAll_eq, List.map_append, List.mem_append, or_comm, ← earlier]
      rfl

end Grows

theorem grows_emit {graph : Graph} {property : Property} (span : Span) (subject : Ident)
    (new : ∀ label ∈ property.label, graph.hasStatement label = false) :
    graph.Grows property.label.toList (graph.emit span subject property) := by
  refine .pushAll span ?_ new
  rcases property with ⟨predicate, object, citations, _ | label, place⟩ <;>
    by_cases cited : citations = [] <;>
      simp [Property.block, Block.triples, Property.needsReification, Property.statementsDrawn,
        Property.groupsDrawn, draw, Role.partsOf, Role.all, partOf, cited]

theorem grows_addReified {graph : Graph} {label : Option Ident}
    (subject predicate object : Ident) (span : Span)
    (new : ∀ ident ∈ label, graph.hasStatement ident = false) :
    graph.Grows label.toList (addReified label subject predicate object span graph).2 := by
  let block : Block :=
    ⟨⟨label.getD (.statement graph.nextStatement), subject, predicate, object⟩,
      some graph.nextGroup⟩
  have made : block.triples.map (·.ident) =
      label.toList ++ draw graph.nextStatement (if label.isNone then 1 else 0)
        graph.nextGroup 1 := by
    cases label <;> simp [block, Block.triples, draw, Role.partsOf, Role.all, partOf]
  have grown := Grows.pushAll span made new
  cases label with
  | none =>
    simpa [addReified, addStatement, addParts, block, Block.triples, Graph.pushAll, push,
      List.foldl_map] using grown
  | some ident =>
    simpa [addReified, addParts, block, Block.triples, Graph.pushAll, push, List.foldl_map,
      new ident rfl] using grown

end Graph

namespace Property

def walkedLabels (most : Nat) : List Site → Graph → List Ident
  | [], _ => []
  | site :: rest, graph =>
      match site.property.obstacle? most site.depth site.span graph with
      | some _ => []
      | none =>
        site.property.label.toList ++
            walkedLabels most rest (graph.emit site.span site.subject site.property)

theorem new_of_obstacle?_eq_none {most depth : Nat} {span : Span} {property : Property}
    {graph : Graph} (clear : property.obstacle? most depth span graph = none) :
    ∀ label ∈ property.label, graph.hasStatement label = false := by
  intro label labelled
  simp only [obstacle?, Option.mem_def.1 labelled] at clear
  split at clear
  · contradiction
  · simpa using clear

theorem walk_grows (most : Nat) (route : List Site) (graph : Graph) :
    graph.Grows (walkedLabels most route graph) (walk most route graph).2 := by
  induction route generalizing graph with
  | nil => exact .refl graph
  | cons site route ih =>
    cases met : site.property.obstacle? most site.depth site.span graph with
    | some fault =>
      rw [walk_of_obstacle met, walkedLabels, met]
      exact .refl graph
    | none =>
      rw [walk_of_clear met, walkedLabels, met]
      exact (Graph.grows_emit site.span site.subject (new_of_obstacle?_eq_none met)).trans (ih _)

end Property

namespace Operation

def labels (graph : Graph) : Operation → List Ident
  | allocate _ => []
  | state _ _ _ _ => []
  | reify label _ _ _ _ => if label.any graph.hasStatement then [] else label.toList
  | attach most span subject property =>
      Property.walkedLabels most (property.sites graph.nextStatement 0 span subject) graph

/-- The graph after the operations. One that fails leaves what it has made by then. -/
def after : List Operation → Graph → Graph
  | [], graph => graph
  | operation :: rest, graph => after rest (operation.perform graph).2

def labelsAll : List Operation → Graph → List Ident
  | [], _ => []
  | operation :: rest, graph => operation.labels graph ++ labelsAll rest (operation.perform graph).2

theorem after_append (first second : List Operation) (graph : Graph) :
    after (first ++ second) graph = after second (after first graph) := by
  induction first generalizing graph with
  | nil => rfl
  | cons operation first ih => exact ih _

theorem perform_grows (operation : Operation) (graph : Graph) :
    graph.Grows (operation.labels graph) (operation.perform graph).2 := by
  cases operation with
  | allocate name => exact .allocate graph name
  | state subject predicate object span =>
    have made : graph.Grows _ (graph.emit span subject (.plain predicate object span)) :=
      Graph.grows_emit span subject nofun
    simpa [labels, perform, Attempt.change, Graph.emit, Graph.addStatement, Property.plain,
      Property.block, Block.triples, Property.needsReification, Property.statementsDrawn,
        Property.groupsDrawn,
      Graph.pushAll] using made
  | reify label subject predicate object span =>
    by_cases taken : label.any graph.hasStatement = true
    · cases label with
      | none => contradiction
      | some ident =>
        have refused : graph.hasStatement ident = true := by simpa using taken
        simp only [labels, taken, perform, Graph.addReified, refused, if_true]
        exact .refl graph
    · simp only [labels, taken]
      apply Graph.grows_addReified
      intro ident same
      subst same
      simpa using taken
  | attach most span subject property =>
    rw [perform, Property.attach, Property.attachAt_eq_walk, Attempt.snd_bind_pure]
    exact Property.walk_grows most _ graph

theorem after_grows (operations : List Operation) (graph : Graph) :
    graph.Grows (labelsAll operations graph) (after operations graph) := by
  induction operations generalizing graph with
  | nil => exact .refl graph
  | cons operation rest ih => exact (perform_grows operation graph).trans (ih _)

theorem labelled_after (operations : List Operation) :
    (after operations Graph.empty).Labelled (labelsAll operations Graph.empty) :=
  (after_grows operations Graph.empty).labelled [] Graph.labelled_empty

/-- Whatever is asked of a graph that was empty at first, its statements have different identifiers
just if no label is what a counter has given out by the end, be it before or after the label.
Statements are only added, and if their identifiers are different, no operation has changed the
place of a statement that was there. -/
theorem idents_nodup_iff_labels_undrawn (operations : List Operation) :
    let graph := after operations Graph.empty
    ((graph.triples.map (·.ident)).Nodup ↔
      ∀ label ∈ labelsAll operations Graph.empty,
        (∀ number < graph.nextStatement, label ≠ .statement number) ∧
        ∀ group < graph.nextGroup, ∀ role, label ≠ .part group role) ∧
    ∀ first later, operations = first ++ later →
      (after first Graph.empty).triples <+: graph.triples ∧
      ((graph.triples.map (·.ident)).Nodup →
        ∀ ident, (after first Graph.empty).hasStatement ident = true →
        graph.place? ident = (after first Graph.empty).place? ident) := by
  dsimp only
  constructor
  · simp only [(labelled_after operations).nodup_iff, Graph.not_mem_drawn_iff]
  · rintro first later rfl
    rcases (after_grows later (after first Graph.empty)).added with ⟨more, added, kept⟩
    rw [← after_append] at added kept
    refine ⟨⟨more, added.symm⟩, ?_⟩
    intro distinct ident known
    apply kept
    intro again
    have before := ((labelled_after first).placed ident).1 known
    rw [added, List.map_append, List.nodup_append] at distinct
    exact distinct.2.2 ident before ident again rfl

/-- A label that the counter of statements gives out later. The place of the labelled statement is
lost. -/
theorem label_given_out_later :
    let labelling : Operation :=
      .reify (some (.statement 0)) (.user "a") (.user "b") (.user "c") ⟨0, 1, 1, 1⟩
    let stating : Operation := .state (.user "d") (.user "e") (.user "f") ⟨2, 3, 1, 3⟩
    let graph := after [labelling, stating] Graph.empty
    ¬ (graph.triples.map (·.ident)).Nodup ∧
      (after [labelling] Graph.empty).place? (.statement 0) ≠ graph.place? (.statement 0) := by
  decide

end Operation

end FactGraph
