import FactGraph.Proofs.Graph.Refusal

namespace FactGraph.Property

def Unlabelled (nodes : List Property) : Prop := ∀ node ∈ nodes, node.label = none

variable {most : Nat} {graph : Graph} {span : Span} {subject : Ident} {property : Property}
  {sites' : List Site}

theorem Unlabelled.named {nodes : List Property} (unlabelled : Unlabelled nodes) :
    LabelsNamed nodes := by
  intro node inside label labelled
  rw [unlabelled node inside] at labelled
  contradiction

theorem admits_of_unlabelled (unlabelled : Unlabelled (sites'.map (·.property))) :
    graph.Admits most sites' ↔ ∀ site ∈ sites', site.depth ≤ most := by
  have none : Site.labels sites' = [] :=
    List.filterMap_eq_nil_iff.2 fun site inside => unlabelled _ (List.mem_map_of_mem inside)
  constructor
  · exact fun admits => admits.shallow
  · intro shallow
    exact ⟨shallow, none ▸ List.nodup_nil, none ▸ List.forall_mem_nil _⟩

theorem attach_of_shallow (distinct : graph.Distinct) (unlabelled : Unlabelled (nodes property))
    (shallow : ∀ site ∈ sites graph.nextStatement 0 span subject property, site.depth ≤ most) :
    ∃ after, attach most span subject property graph =
      (.ok (.statement graph.nextStatement), after) ∧ after.Distinct ∧
      graph.Appended (nodes property)
        (blocks graph.nextStatement graph.nextGroup span subject property) after := by
  have named : Unlabelled ((sites graph.nextStatement 0 span subject property).map
        (·.property)) := by
    rwa [map_property_sites]
  have own : property.label = none := unlabelled property (nodes_eq property ▸ List.mem_cons_self)
  have admits : graph.Admits most (sites graph.nextStatement 0 span subject property) :=
    (admits_of_unlabelled named).2 shallow
  have walked := (walk_eq_ok_iff named.named).2 admits
  have attached : attach most span subject property graph = (.ok (.statement graph.nextStatement),
      graph.emitAll (sites graph.nextStatement 0 span subject property)) := by
    rw [attach, attachAt_eq_walk, Attempt.bind_ok walked, own]
    rfl
  rcases attachAt_appended property distinct unlabelled.named attached with ⟨_, kept, appended⟩
  exact ⟨_, attached, kept, appended⟩

theorem attach_of_deep (unlabelled : Unlabelled (nodes property)) {site : Site}
    (inside : site ∈ sites graph.nextStatement 0 span subject property) (deep : most < site.depth) :
    (attach most span subject property graph).1 = .error (.limit (.citation most)) := by
  have named : Unlabelled ((sites graph.nextStatement 0 span subject property).map
        (·.property)) := by
    rwa [map_property_sites]
  rcases walked : walk most (sites graph.nextStatement 0 span subject property) graph
    with ⟨fault | _, after⟩
  · rw [attach, attachAt_eq_walk, Attempt.bind_error walked]
    rcases exists_refused_of_walk walked with ⟨other, there, refused⟩
    cases refused with
    | deep => rfl
    | taken _ labelled =>
      rw [named _ (List.mem_map_of_mem there)] at labelled
      contradiction
  · obtain rfl := eq_emitAll_of_walk walked
    have admits := (walk_eq_ok_iff named.named).1 walked
    exact absurd (admits.shallow site inside) (Nat.not_le.2 deep)

/-- The property has no labels, is not too deep, and takes so many numbers and groups. -/
structure Takes (most numbers groups : Nat) (property : Property) : Prop where
  unlabelled : Unlabelled (nodes property)
  numbers : statementCount (nodes property) = numbers
  groups : groupCount (nodes property) = groups
  shallow (statement : Nat) (span : Span) (subject : Ident) :
    ∀ site ∈ sites statement 0 span subject property, site.depth ≤ most

/-- Where each property takes as many numbers and groups as the others, the numbers of each are told
by its turn. -/
theorem attachPairs_of_takes {α : Type} {numbers groups turn : Nat} {cells : List α} (span : Span)
    (pair : α → Ident × Property) (takes : ∀ cell ∈ cells, Takes most numbers groups (pair cell).2)
    (distinct : graph.Distinct) (statement : graph.nextStatement = turn * numbers)
    (group : graph.nextGroup = turn * groups) :
    ∃ after, attachPairs most span (cells.map pair) graph = (.ok (), after) ∧
      after.triples = graph.triples ++ (cells.zipIdx turn).flatMap fun (cell, turn) =>
        triplesOf (blocks (turn * numbers) (turn * groups) span (pair cell).1 (pair cell).2) := by
  -- The later properties begin with the turn behind the first, in the graph that it leaves.
  induction cells generalizing graph turn with
  | nil => exact ⟨graph, rfl, (List.append_nil _).symm⟩
  | cons cell cells ih =>
    rcases List.forall_mem_cons.1 takes with ⟨first, others⟩
    rcases attach_of_shallow distinct first.unlabelled
      (first.shallow graph.nextStatement span (pair cell).1) with
      ⟨middle, attached, kept, appended⟩
    have numbered : middle.nextStatement = (turn + 1) * numbers := by
      rw [appended.statements, first.numbers, statement, Nat.succ_mul]
    have grouped : middle.nextGroup = (turn + 1) * groups := by
      rw [appended.groups, first.groups, group, Nat.succ_mul]
    rcases ih others kept numbered grouped with ⟨after, rest, triples⟩
    refine ⟨after, ?_, ?_⟩
    · rw [List.map_cons, attachPairs, Attempt.bind_ok attached, rest]
    · rw [triples, appended.triples, statement, group, List.zipIdx_cons, List.flatMap_cons,
        List.append_assoc]

def plainAll (place : Span) (cells : List (Ident × Ident)) : List Property :=
  cells.map fun cell => plain cell.1 cell.2 place

theorem nodes_plain (predicate object : Ident) (place : Span) :
    nodes (plain predicate object place) = [plain predicate object place] := rfl

theorem nodesAll_plainAll (place : Span) (cells : List (Ident × Ident)) :
    nodesAll (plainAll place cells) = plainAll place cells := by
  induction cells with
  | nil => rfl
  | cons cell cells ih =>
    rw [plainAll, List.map_cons, nodesAll, nodes_plain, ← plainAll, ih, List.singleton_append]

theorem label_of_mem_plainAll {place : Span} {cells : List (Ident × Ident)} {node : Property}
    (inside : node ∈ plainAll place cells) : node.label = none ∧ node.needsReification = false := by
  rcases List.mem_map.1 inside with ⟨cell, _, rfl⟩
  exact ⟨rfl, rfl⟩

theorem depth_of_mem_sitesAll_plainAll {statement depth : Nat} {place : Span}
    {cells : List (Ident × Ident)} :
    ∀ site ∈ sitesAll statement depth subject (plainAll place cells), site.depth = depth := by
  induction cells generalizing statement with
  | nil => exact List.forall_mem_nil _
  | cons cell cells ih => exact List.forall_mem_cons.2 ⟨rfl, ih⟩

theorem takes_plain (most : Nat) (predicate object : Ident) (place : Span) :
    Takes most 1 0 (plain predicate object place) where
  unlabelled := List.forall_mem_singleton.2 rfl
  numbers := rfl
  groups := rfl
  shallow _ _ _ := List.forall_mem_singleton.2 (Nat.zero_le most)

theorem triplesOf_blocks_plain (statement group : Nat) (span : Span)
    (subject predicate object : Ident) (place : Span) :
    triplesOf (blocks statement group span subject (plain predicate object place)) =
      [⟨.statement statement, subject, predicate, object⟩] := rfl

theorem triplesOf_blocksAll_plainAll (statement group : Nat) (subject : Ident) (place : Span)
    (cells : List (Ident × Ident)) :
    triplesOf (blocksAll statement group subject (plainAll place cells)) =
      (cells.zipIdx statement).map fun (cell, number) =>
      ⟨.statement number, subject, cell.1, cell.2⟩ := by
  induction cells generalizing statement with
  | nil => rfl
  | cons cell cells ih =>
    rw [plainAll, List.map_cons, blocksAll, triplesOf_append, triplesOf_blocks_plain,
      List.zipIdx_cons, List.map_cons, List.singleton_append, ← ih]
    rfl

def discussed (place place' : Span) (said : List (Ident × Ident)) (cell : Ident × Ident) :
    Property :=
  (plain cell.1 cell.2 place).citedBy (plainAll place' said)

section

variable {place place' : Span} {said : List (Ident × Ident)}

theorem nodes_discussed (place place' : Span) (said : List (Ident × Ident)) (cell : Ident × Ident) :
    nodes (discussed place place' said cell) =
      discussed place place' said cell :: plainAll place' said := by
  rw [nodes_eq]
  exact congrArg _ (nodesAll_plainAll place' said)

theorem needsReification_discussed (filled : said ≠ []) (cell : Ident × Ident) :
    (discussed place place' said cell).needsReification = true := by
  rcases List.exists_cons_of_ne_nil filled with ⟨first, others, rfl⟩
  rfl

theorem takes_discussed (filled : said ≠ []) (room : 1 ≤ most) (cell : Ident × Ident) :
    Takes most (1 + said.length) 1 (discussed place place' said cell) where
  unlabelled := by
    rw [nodes_discussed]
    exact List.forall_mem_cons.2 ⟨rfl, fun node inside => (label_of_mem_plainAll inside).1⟩
  numbers := by
    have each : statementCount (plainAll place' said) = (plainAll place' said).length :=
      List.countP_eq_length.2 fun node inside => by simp [(label_of_mem_plainAll inside).1]
    have own : (discussed place place' said cell).statementsDrawn = 1 := rfl
    rw [nodes_discussed, statementCount_cons, each, own, plainAll, List.length_map]
  groups := by
    have none : groupCount (plainAll place' said) = 0 :=
      List.countP_eq_zero.2 fun node inside => by simp [(label_of_mem_plainAll inside).2]
    rw [nodes_discussed, groupCount_cons, none, groupsDrawn,
      if_pos (needsReification_discussed filled cell)]
  shallow statement span subject := by
    refine List.forall_mem_cons.2 ⟨Nat.zero_le most, fun site inside => ?_⟩
    rw [depth_of_mem_sitesAll_plainAll site inside]
    exact room

theorem triplesOf_blocks_discussed (filled : said ≠ []) (statement group : Nat) (span : Span)
    (subject : Ident) (cell : Ident × Ident) :
    triplesOf (blocks statement group span subject (discussed place place' said cell)) =
      let main : Triple := ⟨.statement statement, subject, cell.1, cell.2⟩
      main :: (Role.all.map (Graph.partOf main group) ++
            (said.zipIdx (statement + 1)).map fun (pair, number) =>
        ⟨.statement number, main.ident, pair.1, pair.2⟩) := by
  let root : Property := discussed place place' said cell
  have made : root.block statement group subject =
      ⟨⟨.statement statement, subject, cell.1, cell.2⟩, some group⟩ := by
    rw [block, if_pos (needsReification_discussed filled cell)]
    rfl
  calc triplesOf (blocks statement group span subject root)
      = (root.block statement group subject).triples ++
          triplesOf (blocksAll (statement + 1) (group + root.groupsDrawn) (.statement statement)
            (plainAll place' said)) := rfl
    _ = _ := by
      rw [triplesOf_blocksAll_plainAll, made, Block.triples, Block.parts_reified, List.cons_append]

end

end FactGraph.Property
