import FactGraph.Proofs.Graph.Distinct

namespace FactGraph

namespace Property

mutual

def nodes : Property → List Property
  | ⟨predicate, object, citations, label, place⟩ =>
      ⟨predicate, object, citations, label, place⟩ :: nodesAll citations

def nodesAll : List Property → List Property
  | [] => []
  | property :: rest => nodes property ++ nodesAll rest

end

def statementCount (nodes : List Property) : Nat := nodes.countP (·.label.isNone)

def groupCount (nodes : List Property) : Nat := nodes.countP (·.needsReification)

mutual

/-- The blocks of a property and of all citations in it, with their places. Citations are about the
statement of what they cite, and their numbers begin after its own. -/
def blocks (statement group : Nat) (span : Span) (subject : Ident) : Property → List (Block × Span)
  | ⟨predicate, object, citations, label, place⟩ =>
      let root : Property := ⟨predicate, object, citations, label, place⟩
      let made := root.block statement group subject
      (made, span) ::
        blocksAll (statement + root.statementsDrawn)
        (group + root.groupsDrawn) made.main.ident citations

def blocksAll (statement group : Nat) (subject : Ident) : List Property → List (Block × Span)
  | [] => []
  | citation :: rest =>
      blocks statement group citation.span subject citation ++
        blocksAll (statement + statementCount (nodes citation))
          (group + groupCount (nodes citation)) subject rest

end

theorem nodesAll_eq_flatMap (properties : List Property) :
    nodesAll properties = properties.flatMap nodes := by
  induction properties with
  | nil => rfl
  | cons property rest ih => rw [nodesAll, ih, List.flatMap_cons]

theorem nodes_eq (property : Property) :
    nodes property = property :: nodesAll property.citations := by
  rcases property with ⟨predicate, object, citations, label, place⟩
  rw [nodes]

theorem nodesAll_append (first second : List Property) :
    nodesAll (first ++ second) = nodesAll first ++ nodesAll second := by
  simp only [nodesAll_eq_flatMap, List.flatMap_append]

theorem statementCount_cons (property : Property) (rest : List Property) :
    statementCount (property :: rest) = property.statementsDrawn + statementCount rest := by
  rw [statementCount, List.countP_cons, Nat.add_comm]
  rfl

theorem groupCount_cons (property : Property) (rest : List Property) :
    groupCount (property :: rest) = property.groupsDrawn + groupCount rest := by
  rw [groupCount, List.countP_cons, Nat.add_comm]
  rfl

theorem statementCount_append (first second : List Property) :
    statementCount (first ++ second) = statementCount first + statementCount second :=
  List.countP_append

theorem groupCount_append (first second : List Property) :
    groupCount (first ++ second) = groupCount first + groupCount second := List.countP_append

theorem length_triples_block (statement group : Nat) (subject : Ident) (property : Property) :
    (property.block statement group subject).triples.length =
      if property.needsReification then 4 else 1 := by
  cases reified : property.needsReification <;> simp [block, Block.triples, Role.all, reified]

def triplesOf (blocks : List (Block × Span)) : List Triple := blocks.flatMap (·.1.triples)

theorem triplesOf_append (first second : List (Block × Span)) :
    triplesOf (first ++ second) = triplesOf first ++ triplesOf second := List.flatMap_append

/-- One statement for each plain property, and four for each that is reified. -/
def size (nodes : List Property) : Nat :=
  nodes.countP (fun node => !node.needsReification) + 4 * nodes.countP (·.needsReification)

theorem size_cons (property : Property) (rest : List Property) :
    size (property :: rest) = (if property.needsReification then 4 else 1) + size rest := by
  simp only [size, List.countP_cons]
  cases property.needsReification with
  | false =>
    simp only [Bool.not_false, ↓reduceIte, Bool.false_eq_true]
    omega
  | true =>
    simp only [Bool.not_true, Bool.false_eq_true, ↓reduceIte]
    omega

theorem size_append (first second : List Property) :
    size (first ++ second) = size first + size second := by
  simp only [size, List.countP_append]
  omega

mutual

theorem length_blocks (statement group : Nat) (span : Span) (subject : Ident) :
    ∀ property : Property,
      (triplesOf (blocks statement group span subject property)).length = size (nodes property)
  | ⟨predicate, object, citations, label, place⟩ => by
    rw [blocks, triplesOf, List.flatMap_cons, List.length_append, length_triples_block,
      nodes, size_cons]
    exact congrArg _ (length_blocksAll _ _ _ citations)

theorem length_blocksAll (statement group : Nat) (subject : Ident) :
    ∀ properties : List Property,
      (triplesOf (blocksAll statement group subject properties)).length = size (nodesAll properties)
  | [] => rfl
  | citation :: rest => by
    have first := length_blocks statement group citation.span subject citation
    have others := length_blocksAll (statement + statementCount (nodes citation))
      (group + groupCount (nodes citation)) subject rest
    rw [blocksAll, triplesOf_append, List.length_append, first, others, nodesAll, size_append]

end

def LabelsNamed (nodes : List Property) : Prop :=
  ∀ node ∈ nodes, ∀ label ∈ node.label, label.IsNamed

def statementsOf (blocks : List (Block × Span)) : List Nat :=
  blocks.filterMap (·.1.main.ident.statementNumber?)

def groupsOf (blocks : List (Block × Span)) : List Nat := blocks.filterMap (·.1.group)

theorem statementsOf_cons (made : Block × Span) (rest : List (Block × Span)) :
    statementsOf (made :: rest) = made.1.main.ident.statementNumber?.toList ++
      statementsOf rest := by
  unfold statementsOf
  rw [List.filterMap_cons]
  cases made.1.main.ident.statementNumber? <;> rfl

theorem groupsOf_cons (made : Block × Span) (rest : List (Block × Span)) :
    groupsOf (made :: rest) = made.1.group.toList ++ groupsOf rest := by
  unfold groupsOf
  rw [List.filterMap_cons]
  cases made.1.group <;> rfl

theorem statementsOf_append (first second : List (Block × Span)) :
    statementsOf (first ++ second) = statementsOf first ++ statementsOf second :=
  List.filterMap_append

theorem groupsOf_append (first second : List (Block × Span)) :
    groupsOf (first ++ second) = groupsOf first ++ groupsOf second := List.filterMap_append

mutual

theorem numbering_blocks (statement group : Nat) (span : Span) (subject : Ident) :
    ∀ property : Property, LabelsNamed (nodes property) →
      statementsOf (blocks statement group span subject property) =
          List.range' statement (statementCount (nodes property)) ∧
        groupsOf (blocks statement group span subject property) =
          List.range' group (groupCount (nodes property))
  | ⟨predicate, object, citations, label, place⟩, labels => by
    rw [nodes] at labels
    rcases List.forall_mem_cons.1 labels with ⟨own, inner⟩
    have numbered := statementNumber?_block statement group subject own
    have grouped := group_block statement group subject ⟨predicate, object, citations, label, place⟩
    rcases numbering_blocksAll _ _ _ citations inner with ⟨numbers, groups⟩
    rw [blocks, statementsOf_cons, groupsOf_cons, numbers, groups, numbered, grouped]
    rw [List.range'_append_1, List.range'_append_1, nodes, statementCount_cons, groupCount_cons]
    exact ⟨rfl, rfl⟩

theorem numbering_blocksAll (statement group : Nat) (subject : Ident) :
    ∀ properties : List Property, LabelsNamed (nodesAll properties) →
      statementsOf (blocksAll statement group subject properties) =
          List.range' statement (statementCount (nodesAll properties)) ∧
        groupsOf (blocksAll statement group subject properties) =
          List.range' group (groupCount (nodesAll properties))
  | [], _ => ⟨rfl, rfl⟩
  | citation :: rest, labels => by
    rw [nodesAll] at labels
    rcases List.forall_mem_append.1 labels with ⟨early, late⟩
    rcases numbering_blocks statement group citation.span subject citation early
      with ⟨numbers, groups⟩
    obtain ⟨laterNumbers, laterGroups⟩ :=
      numbering_blocksAll (statement + statementCount (nodes citation))
      (group + groupCount (nodes citation)) subject rest late
    rw [blocksAll, statementsOf_append, groupsOf_append, numbers, groups, laterNumbers, laterGroups]
    rw [List.range'_append_1, List.range'_append_1, nodesAll, statementCount_append,
      groupCount_append]
    exact ⟨rfl, rfl⟩

end

end Property

end FactGraph
