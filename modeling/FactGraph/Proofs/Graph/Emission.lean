import FactGraph.Graph.Attachment
import FactGraph.Proofs.Graph.Places

namespace FactGraph

/-- A statement, and the group of its parts if it is reified. -/
structure Block where
  main : Triple
  group : Option Nat
  deriving DecidableEq, Repr

namespace Block

def parts (block : Block) : List Triple :=
  block.group.toList.flatMap fun group => Role.all.map (Graph.partOf block.main group)

def triples (block : Block) : List Triple := block.main :: block.parts

@[simp] theorem parts_plain (main : Triple) : (⟨main, none⟩ : Block).parts = [] := rfl

@[simp] theorem parts_reified (main : Triple) (group : Nat) :
    (⟨main, some group⟩ : Block).parts = Role.all.map (Graph.partOf main group) := by
  simp [parts]

theorem main_mem (block : Block) : block.main ∈ block.triples := List.mem_cons_self

theorem mem_triples {block : Block} {triple : Triple} :
    triple ∈ block.triples ↔
      triple = block.main ∨ ∃ group ∈ block.group, ∃ role, triple = Graph.partOf block.main
        group role := by
  have all (role : Role) : role ∈ Role.all := Role.mem_all role
  simp only [triples, parts, List.mem_cons, List.mem_flatMap, Option.mem_toList, List.mem_map, all,
    true_and, eq_comm, Option.mem_def]

end Block

namespace Graph

variable {graph : Graph} {triples : List Triple} {span : Span}

def pushAll (triples : List Triple) (span : Span) (graph : Graph) : Graph :=
  triples.foldl (fun graph triple => graph.push triple span) graph

theorem pushAll_eq : graph.pushAll triples span =
    { graph with
      triples := graph.triples ++ triples
      places :=
        triples.foldl (fun places triple => places.record triple.ident span) graph.places } := by
  induction triples generalizing graph with
  | nil => simp [pushAll]
  | cons triple triples ih =>
    calc graph.pushAll (triple :: triples) span
        = (graph.push triple span).pushAll triples span := rfl
      _ = _ := by rw [ih]; simp [push]

theorem place?_pushAll {ident : Ident} :
    (graph.pushAll triples span).place? ident =
      if ident ∈ triples.map (·.ident) then some span else graph.place? ident := by
  induction triples generalizing graph with
  | nil => rfl
  | cons triple triples ih =>
    have pushed : graph.pushAll (triple :: triples) span =
        (graph.push triple span).pushAll triples span := rfl
    rw [pushed, ih, place?_push]
    by_cases later : ident ∈ triples.map (·.ident)
    · have inside : ident ∈ (triple :: triples).map (·.ident) := List.mem_cons_of_mem _ later
      rw [if_pos later, if_pos inside]
    · rw [if_neg later, List.map_cons]
      by_cases same : ident = triple.ident
      · rw [if_pos same, if_pos (same ▸ List.mem_cons_self)]
      · rw [if_neg same, if_neg (List.not_mem_cons_of_ne_of_not_mem same later)]

theorem hasStatement_pushAll {ident : Ident} :
    (graph.pushAll triples span).hasStatement ident = true ↔
      ident ∈ triples.map (·.ident) ∨ graph.hasStatement ident = true := by
  have place : (graph.pushAll triples span).place? ident = _ := place?_pushAll
  unfold place? at place
  simp only [hasStatement, place]
  split <;> simp_all

end Graph

namespace Property

def block (statement group : Nat) (subject : Ident) (property : Property) : Block :=
  ⟨⟨property.label.getD (.statement statement), subject, property.predicate, property.object⟩,
    if property.needsReification then some group else none⟩

def statementsDrawn (property : Property) : Nat := if property.label.isNone then 1 else 0

def groupsDrawn (property : Property) : Nat := if property.needsReification then 1 else 0

def obstacle? (most depth : Nat) (span : Span) (property : Property) (graph : Graph) :
    Option Fault :=
  if most < depth then some (.limit (.citation most))
  else
    match property.label with
    | none => none
    | some label =>
        if graph.hasStatement label then some (.statementTaken label.text span.position) else none

end Property

/-- The graph with what is made for one property, without its citations. -/
def Graph.emit (span : Span) (subject : Ident) (property : Property) (graph : Graph) : Graph :=
  Graph.pushAll (property.block graph.nextStatement graph.nextGroup subject).triples span
    { graph with
      nextStatement := graph.nextStatement + property.statementsDrawn
      nextGroup := graph.nextGroup + property.groupsDrawn }

namespace Property

theorem attachAt_eq (most depth : Nat) (span : Span) (subject : Ident) (property : Property)
    (graph : Graph) :
    attachAt most depth span subject property graph =
      match property.obstacle? most depth span graph with
      | some fault => (.error fault, graph)
      | none =>
          (do
            let statement := (property.block graph.nextStatement graph.nextGroup subject).main.ident
            attachAll most (depth + 1) statement property.citations
            return statement) (graph.emit span subject property) := by
  rcases property with ⟨predicate, object, citations, label, place⟩
  by_cases deep : most < depth
  · simp [attachAt, obstacle?, deep]
  · cases label with
    | none =>
      cases citations with
      | nil =>
        simp [attachAt, obstacle?, deep, attachAll, Attempt.change, Graph.addStatement, Graph.emit,
          block, Block.triples, needsReification, statementsDrawn, groupsDrawn, Graph.pushAll]
      | cons citation rest =>
        simp [attachAt, obstacle?, deep, Graph.addStatement, Graph.addReified, Graph.emit,
          block, Block.triples, needsReification, statementsDrawn, groupsDrawn, Graph.pushAll,
          Attempt.bind_apply, Graph.addParts, List.foldl_map, Graph.push]
    | some label =>
      by_cases taken : graph.hasStatement label
      · simp [attachAt, obstacle?, deep, taken, Graph.addReified, Attempt.bind_apply]
      · simp [attachAt, obstacle?, deep, taken, Graph.addReified, Attempt.bind_apply, Graph.emit,
          block, Block.triples, needsReification, statementsDrawn, groupsDrawn, Graph.pushAll,
          Graph.addParts, List.foldl_map, Graph.push]

end Property

end FactGraph
