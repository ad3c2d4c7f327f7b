import FactGraph.Graph.Naming
import FactGraph.Proofs.Graph.Walk

namespace FactGraph

def Fault.unplaced : Fault → Fault
  | unreadable _ _ excerpt => unreadable 0 .first excerpt
  | unexpected context expected found _ => unexpected context expected found .first
  | pastEnd _ => pastEnd .first
  | mismatch expected found _ => mismatch expected found .first
  | redefined name _ => redefined name .first
  | undefined name _ => undefined name .first
  | labelTarget count _ => labelTarget count .first
  | labelSource count _ => labelSource count .first
  | statementTaken ident _ => statementTaken ident .first
  | fault => fault

namespace Property

mutual

def unplaced : Property → Property
  | ⟨predicate, object, citations, label, _⟩ =>
    ⟨predicate, object, unplacedAll citations, label, .atStart⟩

def unplacedAll : List Property → List Property
  | [] => []
  | property :: rest => unplaced property :: unplacedAll rest

end

theorem unplacedAll_eq_map (properties : List Property) :
    unplacedAll properties = properties.map unplaced := by
  induction properties with
  | nil => rfl
  | cons property rest ih => rw [unplacedAll, ih, List.map_cons]

theorem unplaced_eq (property : Property) : property.unplaced =
    { property with citations := property.citations.map unplaced, span := .atStart } := by
  rcases property with ⟨predicate, object, citations, label, place⟩
  rw [unplaced, unplacedAll_eq_map]

@[simp] theorem label_unplaced (property : Property) :
    property.unplaced.label = property.label := by
  rw [unplaced_eq]

@[simp] theorem span_unplaced (property : Property) : property.unplaced.span = .atStart := by
  rw [unplaced_eq]

@[simp] theorem needsReification_unplaced (property : Property) :
    property.unplaced.needsReification = property.needsReification := by
  simp [unplaced_eq, needsReification]

@[simp] theorem statementsDrawn_unplaced (property : Property) :
    property.unplaced.statementsDrawn = property.statementsDrawn := by
  simp [statementsDrawn]

@[simp] theorem groupsDrawn_unplaced (property : Property) :
    property.unplaced.groupsDrawn = property.groupsDrawn := by
  simp [groupsDrawn]

@[simp] theorem block_unplaced (statement group : Nat) (subject : Ident) (property : Property) :
    property.unplaced.block statement group subject = property.block statement group subject := by
  simp [block, unplaced_eq, needsReification]

mutual

theorem nodes_unplaced :
    ∀ property : Property, nodes property.unplaced = (nodes property).map unplaced
  | ⟨predicate, object, citations, label, place⟩ => by
    rw [unplaced, nodes, nodes, nodesAll_unplaced, List.map_cons, unplaced]

theorem nodesAll_unplaced : ∀ properties : List Property,
    nodesAll (unplacedAll properties) = (nodesAll properties).map unplaced
  | [] => rfl
  | property :: rest => by
    rw [unplacedAll, nodesAll, nodesAll, nodes_unplaced, nodesAll_unplaced, List.map_append]

end

theorem statementCount_unplaced (properties : List Property) :
    statementCount (properties.map unplaced) = statementCount properties := by
  simp [statementCount, List.countP_map, Function.comp_def]

end Property

def Site.unplaced (site : Site) : Site :=
  ⟨site.depth, .atStart, site.subject, site.property.unplaced⟩

namespace Property

mutual

theorem sites_unplaced :
    ∀ (property : Property) (statement depth : Nat) (span : Span) (subject : Ident),
    sites statement depth .atStart subject property.unplaced =
      (sites statement depth span subject property).map Site.unplaced
  | ⟨predicate, object, citations, label, place⟩, statement, depth, span, subject => by
    rw [unplaced, sites, sites, List.map_cons, ← sitesAll_unplaced citations,
      Site.unplaced, unplaced]
    rfl

theorem sitesAll_unplaced :
    ∀ (properties : List Property) (statement depth : Nat) (subject : Ident),
    sitesAll statement depth subject (unplacedAll properties) =
      (sitesAll statement depth subject properties).map Site.unplaced
  | [], _, _, _ => rfl
  | property :: rest, statement, depth, subject => by
    rw [unplacedAll, sitesAll, sitesAll, span_unplaced,
      sites_unplaced property statement depth property.span,
      nodes_unplaced, statementCount_unplaced, sitesAll_unplaced, List.map_append]

end

end Property

namespace Graph

def unplaced (graph : Graph) : Graph :=
  { graph with places := graph.places.map fun entry => (entry.1, .atStart) }

theorem record_unplaced (places : Provenance) (ident : Ident) (span : Span) :
    (places.record ident span).map (fun entry => (entry.1, Span.atStart)) =
      Provenance.record (places.map fun entry => (entry.1, Span.atStart)) ident .atStart := by
  unfold Provenance.record
  induction places with
  | nil => rfl
  | cons entry places ih =>
    simp only [insertOrdered, List.map_cons]
    split
    · rfl
    · rfl
    · rw [List.map_cons, ih]

@[simp] theorem hasStatement_unplaced (graph : Graph) (ident : Ident) :
    graph.unplaced.hasStatement ident = graph.hasStatement ident := by
  rw [Bool.eq_iff_iff, hasStatement_iff_mem, hasStatement_iff_mem]
  simp [unplaced, Function.comp_def]

theorem push_unplaced (graph : Graph) (triple : Triple) (span : Span) :
    (graph.push triple span).unplaced = graph.unplaced.push triple .atStart := by
  simp [unplaced, push, record_unplaced]

theorem pushAll_unplaced (graph : Graph) (triples : List Triple) (span : Span) :
    (graph.pushAll triples span).unplaced = graph.unplaced.pushAll triples .atStart := by
  induction triples generalizing graph with
  | nil => rfl
  | cons triple triples ih =>
    have pushed (graph : Graph) (span : Span) :
        graph.pushAll (triple :: triples) span = (graph.push triple span).pushAll triples span :=
      rfl
    rw [pushed, pushed, ih, push_unplaced]

theorem emit_unplaced (graph : Graph) (span : Span) (subject : Ident) (property : Property) :
    (graph.emit span subject property).unplaced =
      graph.unplaced.emit .atStart subject property.unplaced := by
  rw [emit, emit, pushAll_unplaced, Property.block_unplaced, Property.statementsDrawn_unplaced,
    Property.groupsDrawn_unplaced]
  rfl

end Graph

/-- Whatever the places are, the second step does to what has none as the first does to the rest. -/
def Attempt.Unplaces {α : Type} (step other : Attempt Graph α) : Prop :=
  ∀ graph : Graph, other graph.unplaced =
    ((step graph).1.mapError Fault.unplaced, (step graph).2.unplaced)

namespace Attempt.Unplaces

variable {α β : Type}

theorem pure (value : α) : Unplaces (Pure.pure value) (Pure.pure value) := fun _ => rfl

theorem bind {step other : Attempt Graph α} {next next' : α → Attempt Graph β}
    (first : Unplaces step other) (second : ∀ value, Unplaces (next value) (next' value)) :
    Unplaces (step >>= next) (other >>= next') := by
  intro graph
  have before := first graph
  rcases run : step graph with ⟨fault | value, reached⟩
  · rw [run] at before
    rw [Attempt.bind_error run, Attempt.bind_error before]
    rfl
  · rw [run] at before
    rw [Attempt.bind_ok run, Attempt.bind_ok before]
    exact second value reached

end Attempt.Unplaces

namespace Property

open Attempt (Unplaces)

variable (most : Nat)

theorem obstacle?_unplaced (depth : Nat) (span : Span) (property : Property) (graph : Graph) :
    property.unplaced.obstacle? most depth .atStart graph.unplaced =
      (property.obstacle? most depth span graph).map Fault.unplaced := by
  simp only [obstacle?, label_unplaced, Graph.hasStatement_unplaced]
  split
  · rfl
  · split
    · rfl
    · split <;> rfl

theorem walk_unplaces (sites : List Site) :
    Unplaces (walk most sites) (walk most (sites.map Site.unplaced)) := by
  induction sites with
  | nil => exact .pure ()
  | cons site rest ih =>
    intro graph
    have same := obstacle?_unplaced most site.depth site.span site.property graph
    rw [List.map_cons]
    cases met : site.property.obstacle? most site.depth site.span graph with
    | some fault =>
      rw [met] at same
      rw [walk_of_obstacle met]
      exact walk_of_obstacle same
    | none =>
      rw [met] at same
      have clear : site.unplaced.property.obstacle? most site.unplaced.depth site.unplaced.span
          graph.unplaced = none := same
      have emitted : (graph.emit site.span site.subject site.property).unplaced =
          graph.unplaced.emit site.unplaced.span site.unplaced.subject site.unplaced.property :=
        graph.emit_unplaced _ _ _
      rw [walk_of_clear met, walk_of_clear clear, ← emitted]
      exact ih _

theorem attach_unplaces (span : Span) (subject : Ident) (property : Property) :
    Unplaces (attach most span subject property)
      (attach most .atStart subject property.unplaced) := by
  intro graph
  rw [attach, attach, attachAt_eq_walk, attachAt_eq_walk, sites_unplaced property _ _ span,
    label_unplaced]
  exact (walk_unplaces most _).bind (fun _ => .pure _) graph

theorem attachPairs_unplaces (span : Span) (pairs : List (Ident × Property)) :
    Unplaces (attachPairs most span pairs)
      (attachPairs most .atStart (pairs.map fun pair => (pair.1, pair.2.unplaced))) := by
  induction pairs with
  | nil => exact .pure ()
  | cons pair rest ih => exact (attach_unplaces most span pair.1 pair.2).bind fun _ => ih

theorem attachEach_unplaces (span : Span) (idents : List Ident) (properties : List Property) :
    Unplaces (attachEach most span idents properties)
      (attachEach most .atStart idents (properties.map unplaced)) := by
  have pairs := attachPairs_unplaces most span
    (idents.flatMap fun subject => properties.map (subject, ·))
  simpa [attachEach, List.map_flatMap, Function.comp_def] using pairs

end Property

theorem Graph.allocate_unplaces (name : Option String) :
    Attempt.Unplaces (Attempt.change (Graph.allocate name))
      (Attempt.change (Graph.allocate name)) := by
  intro graph
  cases name with
  | none => rfl
  | some text =>
    simp only [Attempt.change, Graph.allocate, Graph.unplaced]
    split <;> rfl

end FactGraph
