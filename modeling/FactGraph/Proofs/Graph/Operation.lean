import FactGraph.Proofs.Attempt
import FactGraph.Proofs.Graph.Minting
import FactGraph.Proofs.Graph.Walk

namespace FactGraph

inductive Operation where
  | allocate (name : Option String)
  | state (subject predicate object : Ident) (span : Span)
  | reify (label : Option Ident) (subject predicate object : Ident) (span : Span)
  | attach (most : Nat) (span : Span) (subject : Ident) (property : Property)

namespace Operation

def perform : Operation → Attempt Graph Ident
  | allocate name => Attempt.change (Graph.allocate name)
  | state subject predicate object span =>
    Attempt.change (Graph.addStatement subject predicate object span)
  | reify label subject predicate object span =>
    Graph.addReified label subject predicate object span
  | attach most span subject property => Property.attach most span subject property

/-- The operations with their answers. One that fails leaves what it has made by then, and the next
goes on from there. -/
def transcript : List Operation → Graph → List (Operation × Except Fault Ident)
  | [], _ => []
  | operation :: rest, graph =>
      (operation, (operation.perform graph).1) :: transcript rest (operation.perform graph).2

theorem map_fst_transcript (operations : List Operation) (graph : Graph) :
    (transcript operations graph).map Prod.fst = operations := by
  induction operations generalizing graph with
  | nil => rfl
  | cons operation rest ih => rw [transcript, List.map_cons, ih]

def IsMarked (operation : Operation) : Prop :=
  ∃ text, operation = allocate (some text) ∧ hasMarker text.toList = true

def IsNameless (operation : Operation) : Prop := operation = allocate none

end Operation

namespace Graph

structure Draws (graph after : Graph) : Prop where
  entities : graph.nextEntity ≤ after.nextEntity
  minted : graph.minted ⊆ after.minted

namespace Draws

variable {graph middle after : Graph}

theorem refl (graph : Graph) : graph.Draws graph := ⟨Nat.le.refl, List.Subset.refl _⟩

theorem of_eq (entities : after.nextEntity = graph.nextEntity)
    (minted : after.minted = graph.minted) :
    graph.Draws after :=
  ⟨Nat.le_of_eq entities.symm, minted ▸ List.Subset.refl _⟩

theorem trans (first : graph.Draws middle) (second : middle.Draws after) : graph.Draws after :=
  ⟨Nat.le_trans first.entities second.entities, List.Subset.trans first.minted second.minted⟩

end Draws

theorem allocate_plain (graph : Graph) {text : String} (plain : hasMarker text.toList = false) :
    graph.allocate (some text) = (.user text, graph) := by
  simp [allocate, plain]

theorem allocate_of_marked (graph : Graph) {text : String} (marked : hasMarker text.toList = true) :
    graph.allocate (some text) =
      let minted := mint graph.minted text.toList graph.minted.length graph.nextEntity
      (.unique minted.1,
        { graph with
          nextEntity := minted.2
          minted := insertOrdered compare minted.1 graph.minted }) := by
  simp [allocate, marked]

theorem allocate_marked (graph : Graph) {text : String} (marked : hasMarker text.toList = true) :
    ∃ minted after, graph.allocate (some text) = (.unique minted, after) ∧ minted ∉ graph.minted ∧
      minted ∈ after.minted ∧ graph.Draws after := by
  have enough : graph.minted.length ≤ graph.minted.length := Nat.le.refl
  have new := mint_not_mem marked enough graph.nextEntity
  refine ⟨_, _, allocate_of_marked graph marked, new, ?_, ?_, ?_⟩
  · exact (mem_insertOrdered _ _ _).2 (.inl rfl)
  · rcases mint_spec graph.minted text.toList graph.minted.length graph.nextEntity
      with ⟨turn, _, made, _, _⟩
    simp only [made]
    exact Nat.le_add_right _ _
  · intro text given
    exact (mem_insertOrdered _ _ _).2 (.inr given)

theorem allocate_draws (graph : Graph) (name : Option String) :
    graph.Draws (graph.allocate name).2 := by
  cases name with
  | none => exact ⟨Nat.le_succ _, List.Subset.refl _⟩
  | some text =>
    cases marked : hasMarker text.toList with
    | false =>
      rw [allocate_plain graph marked]
      exact .refl graph
    | true =>
      rcases allocate_marked graph marked with ⟨minted, after, made, _, _, draws⟩
      rw [made]
      exact draws

theorem addReified_draws (label : Option Ident) (subject predicate object : Ident) (span : Span)
    (graph : Graph) : graph.Draws (addReified label subject predicate object span graph).2 := by
  unfold addReified
  split
  · split <;> exact .of_eq rfl rfl
  · exact .of_eq rfl rfl

end Graph

namespace Property

theorem walk_draws (most : Nat) (route : List Site) (graph : Graph) :
    graph.Draws (walk most route graph).2 := by
  induction route generalizing graph with
  | nil => exact .refl graph
  | cons site route ih =>
    cases met : site.property.obstacle? most site.depth site.span graph with
    | some fault =>
      rw [walk_of_obstacle met]
      exact .refl graph
    | none =>
      have made : graph.Draws (graph.emit site.span site.subject site.property) := by
        rw [Graph.emit, Graph.pushAll_eq]
        exact .of_eq rfl rfl
      rw [walk_of_clear met]
      exact made.trans (ih _)

theorem attach_draws (most : Nat) (span : Span) (subject : Ident) (property : Property)
    (graph : Graph) :
    graph.Draws (attach most span subject property graph).2 := by
  rw [attach, attachAt_eq_walk, Attempt.snd_bind_pure]
  exact walk_draws most _ graph

end Property

namespace Operation

theorem perform_draws (operation : Operation) (graph : Graph) :
    graph.Draws (operation.perform graph).2 := by
  cases operation with
  | allocate name => exact Graph.allocate_draws graph name
  | state subject predicate object span => exact .of_eq rfl rfl
  | reify label subject predicate object span =>
    exact Graph.addReified_draws label subject predicate object span graph
  | attach most span subject property =>
    exact Property.attach_draws most span subject property graph

/-- What is answered, where the operation is performed on one graph and leaves another. -/
structure Named (graph after : Graph) (operation : Operation) (answer : Except Fault Ident) :
    Prop where
  marked : operation.IsMarked →
    ∃ text, answer = .ok (.unique text) ∧ text ∉ graph.minted ∧ text ∈ after.minted
  nameless : operation.IsNameless →
    ∃ number, answer = .ok (.auto number) ∧ graph.nextEntity ≤ number ∧ number < after.nextEntity
  plain (text : String) : operation = allocate (some text) → hasMarker text.toList = false →
    answer = .ok (.user text)

theorem perform_allocate (name : Option String) (graph : Graph) :
    (allocate name).perform graph = (.ok (graph.allocate name).1, (graph.allocate name).2) := rfl

theorem perform_named (operation : Operation) (graph : Graph) :
    Named graph (operation.perform graph).2 operation (operation.perform graph).1 where
  marked asked := by
    rcases asked with ⟨text, rfl, marked⟩
    rcases Graph.allocate_marked graph marked with ⟨minted, after, made, new, kept, _⟩
    rw [perform_allocate, made]
    exact ⟨minted, rfl, new, kept⟩
  nameless asked := by
    obtain rfl : operation = allocate none := asked
    exact ⟨graph.nextEntity, rfl, Nat.le.refl, Nat.lt_succ_self _⟩
  plain text asked plain := by
    rw [asked, perform_allocate, Graph.allocate_plain graph plain]

theorem named_of_mem_transcript {operations : List Operation} {graph : Graph}
    {entry : Operation × Except Fault Ident} (inside : entry ∈ transcript operations graph) :
    ∃ before after, graph.Draws before ∧ Named before after entry.1 entry.2 := by
  induction operations generalizing graph with
  | nil => simp [transcript] at inside
  | cons operation rest ih =>
    rw [transcript, List.mem_cons] at inside
    rcases inside with rfl | later
    · exact ⟨graph, _, .refl graph, perform_named operation graph⟩
    · rcases ih later with ⟨before, after, draws, named⟩
      exact ⟨before, after, (perform_draws operation graph).trans draws, named⟩

def AskAlike (first second : Operation) : Prop :=
  first.IsMarked ∧ second.IsMarked ∨ first.IsNameless ∧ second.IsNameless

theorem pairwise_transcript (operations : List Operation) (graph : Graph) :
    (transcript operations graph).Pairwise fun first second =>
      first.1.AskAlike second.1 → first.2 ≠ second.2 := by
  induction operations generalizing graph with
  | nil => exact .nil
  | cons operation rest ih =>
    rw [transcript, List.pairwise_cons]
    constructor
    · intro entry later alike same
      have first := perform_named operation graph
      rcases named_of_mem_transcript later with ⟨before, after, draws, second⟩
      simp only at same
      rcases alike with ⟨marked, marked'⟩ | ⟨nameless, nameless'⟩
      · rcases first.marked marked with ⟨text, answered, _, known⟩
        rcases second.marked marked' with ⟨other, answered', new, _⟩
        rw [answered, answered', Except.ok.injEq, Ident.unique.injEq] at same
        exact new (same ▸ draws.minted known)
      · rcases first.nameless nameless with ⟨number, answered, _, below⟩
        rcases second.nameless nameless' with ⟨other, answered', above, _⟩
        rw [answered, answered', Except.ok.injEq, Ident.auto.injEq] at same
        have drawn := draws.entities
        omega
    · exact ih _

/-- In every history of a graph that was empty at first, names with markers are given unique
identifiers, entities without a name are given numbers, and no two are given the same one; and a
name without a marker stands for itself. -/
theorem names_drawn_once (operations : List Operation) :
    (transcript operations Graph.empty).map Prod.fst = operations ∧
    ((transcript operations Graph.empty).Pairwise fun first second =>
      first.1.AskAlike second.1 → first.2 ≠ second.2) ∧
    ∀ entry ∈ transcript operations Graph.empty,
      (entry.1.IsMarked → ∃ text, entry.2 = .ok (.unique text)) ∧
      (entry.1.IsNameless → ∃ number, entry.2 = .ok (.auto number)) ∧
      ∀ text, entry.1 = allocate (some text) → hasMarker text.toList = false →
      entry.2 = .ok (.user text) := by
  refine ⟨map_fst_transcript operations _, pairwise_transcript operations _, ?_⟩
  intro entry inside
  rcases named_of_mem_transcript inside with ⟨before, after, _, named⟩
  refine ⟨?_, ?_, named.plain⟩
  · intro marked
    rcases named.marked marked with ⟨text, answered, _⟩
    exact ⟨text, answered⟩
  · intro nameless
    rcases named.nameless nameless with ⟨number, answered, _⟩
    exact ⟨number, answered⟩

end Operation

end FactGraph
