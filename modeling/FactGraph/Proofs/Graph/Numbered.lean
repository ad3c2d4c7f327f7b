import FactGraph.Proofs.Graph.Construction
import Mathlib.Data.List.Nodup

namespace FactGraph

def Ident.part? : Ident → Option (Nat × Role)
  | part group role => some (group, role)
  | _ => none

@[simp] theorem Ident.part?_part (group : Nat) (role : Role) :
    (part group role).part? = some (group, role) := rfl

def Role.partsOf (groups : List Nat) : List (Nat × Role) :=
  groups.flatMap fun group => Role.all.map fun role => (group, role)

namespace Graph

/-- Identifiers occur once and are those that have places; statements without a label and groups are
numbered in order, and the counters say how many there are. -/
structure Numbered (graph : Graph) : Prop where
  distinct : (graph.triples.map (·.ident)).Nodup
  placed (ident : Ident) : ident ∈ graph.places.map Prod.fst ↔ ident ∈ graph.triples.map (·.ident)
  known (ident : Ident) : graph.hasStatement ident = (graph.find? ident).isSome
  found (ident : Ident) (triple : Triple) :
    graph.find? ident = some triple ↔ triple ∈ graph.triples ∧ triple.ident = ident
  statements : graph.triples.filterMap (·.ident.statementNumber?) = List.range graph.nextStatement
  parts : graph.triples.filterMap (·.ident.part?) = Role.partsOf (List.range graph.nextGroup)

variable {graph : Graph} {blocks : List Block}

theorem Distinct.find?_eq_some_iff (distinct : graph.Distinct) (ident : Ident) (triple : Triple) :
    graph.find? ident = some triple ↔ triple ∈ graph.triples ∧ triple.ident = ident := by
  constructor
  · intro hit
    exact ⟨List.mem_of_find?_eq_some hit, by simpa using List.find?_some hit⟩
  · intro only
    rcases only with ⟨inside, rfl⟩
    have present : (graph.find? triple.ident).isSome = true := by
      rw [find?, List.find?_isSome]
      exact ⟨triple, inside, beq_self_eq_true _⟩
    rcases Option.isSome_iff_exists.1 present with ⟨other, hit⟩
    have same : other.ident = triple.ident := by simpa using List.find?_some hit
    rw [hit, List.inj_on_of_nodup_map distinct.idents (List.mem_of_find?_eq_some hit) inside same]

end Graph

namespace Block

theorem filterMap_statementNumber? (block : Block) :
    block.triples.filterMap (·.ident.statementNumber?) =
      block.main.ident.statementNumber?.toList := by
  rcases block with ⟨main, group | group⟩ <;> cases numbered : main.ident.statementNumber? <;>
    simp [triples, numbered, Role.all, Graph.partOf]

theorem filterMap_part? {block : Block}
    (apart : ∀ group role, block.main.ident ≠ .part group role) :
    block.triples.filterMap (·.ident.part?) = Role.partsOf block.group.toList := by
  have none : block.main.ident.part? = none := by
    cases kind : block.main.ident with
    | part group role => exact absurd kind (apart group role)
    | user | unique | auto | statement | reification => rfl
  rcases block with ⟨main, group | group⟩
  · simp [triples, none, Role.partsOf]
  · simp [triples, none, Role.partsOf, Role.all, Graph.partOf]

end Block

namespace Graph.Built

variable {graph : Graph} {blocks : List Block}

theorem statements (built : Built blocks graph) :
    graph.triples.filterMap (·.ident.statementNumber?) = List.range graph.nextStatement := by
  induction built with
  | empty => rfl
  | allocate name _ ih => rw [triples_allocate, nextStatement_allocate, ih]
  | @emit _ graph span subject property _ _ _ free ih =>
    have new :=
      Property.statementNumber?_block graph.nextStatement graph.nextGroup subject free.named
    calc (graph.emit span subject property).triples.filterMap (·.ident.statementNumber?)
        = List.range graph.nextStatement ++
          List.range' graph.nextStatement property.statementsDrawn := by
          rw [triples_emit, List.filterMap_append, ih, Block.filterMap_statementNumber?, new]
      _ = List.range (graph.nextStatement + property.statementsDrawn) := by
          rw [List.range_add, List.range'_eq_map_range]
      _ = List.range (graph.emit span subject property).nextStatement := by rw [nextStatement_emit]

theorem parts (built : Built blocks graph) :
    graph.triples.filterMap (·.ident.part?) = Role.partsOf (List.range graph.nextGroup) := by
  induction built with
  | empty => rfl
  | allocate name _ ih => rw [triples_allocate, nextGroup_allocate, ih]
  | @emit _ graph span subject property _ _ _ free ih =>
    have apart :=
      Property.ident_block_ne_part graph.nextStatement graph.nextGroup subject free.named
    calc (graph.emit span subject property).triples.filterMap (·.ident.part?)
        = Role.partsOf (List.range graph.nextGroup) ++
            Role.partsOf (List.range' graph.nextGroup property.groupsDrawn) := by
          rw [triples_emit, List.filterMap_append, ih, Block.filterMap_part? apart,
            Property.group_block]
      _ = Role.partsOf (List.range (graph.nextGroup + property.groupsDrawn)) := by
          rw [List.range_add, List.range'_eq_map_range]
          exact List.flatMap_append.symm
      _ = Role.partsOf (List.range (graph.emit span subject property).nextGroup) := by
        rw [nextGroup_emit]

theorem numbered (built : Built blocks graph) : graph.Numbered where
  distinct := built.distinct.idents
  placed ident := hasStatement_iff_mem.symm.trans (built.distinct.placed ident)
  known ident := by
    rw [Bool.eq_iff_iff, built.distinct.placed, find?, List.find?_isSome, List.mem_map]
    simp only [beq_iff_eq]
  found := built.distinct.find?_eq_some_iff
  statements := built.statements
  parts := built.parts

end Graph.Built

end FactGraph
