import FactGraph.Proofs.Graph.Flattening

namespace FactGraph

namespace Graph

/-- After the graph come the blocks, with their places, and the counters have moved past what the
properties take. All else is as it was. -/
structure Appended (graph : Graph) (nodes : List Property) (blocks : List (Block × Span))
    (after : Graph) :
    Prop where
  triples : after.triples = graph.triples ++ Property.triplesOf blocks
  placed : ∀ block ∈ blocks, ∀ triple ∈ block.1.triples, after.place? triple.ident = some block.2
  kept (ident : Ident) : graph.hasStatement ident = true → after.place? ident = graph.place? ident
  statements : after.nextStatement = graph.nextStatement + Property.statementCount nodes
  groups : after.nextGroup = graph.nextGroup + Property.groupCount nodes
  entities : after.nextEntity = graph.nextEntity
  minted : after.minted = graph.minted

theorem hasStatement_eq_isSome_place? (graph : Graph) (ident : Ident) :
    graph.hasStatement ident = (graph.place? ident).isSome := rfl

variable {graph middle after : Graph} {property : Property}

namespace Appended

theorem refl (graph : Graph) : graph.Appended [] [] graph where
  triples := (List.append_nil _).symm
  placed _ inside := by simp at inside
  kept _ _ := rfl
  statements := rfl
  groups := rfl
  entities := rfl
  minted := rfl

theorem trans {nodes more : List Property} {blocks others : List (Block × Span)}
    (first : graph.Appended nodes blocks middle) (second : middle.Appended more others after) :
    graph.Appended (nodes ++ more) (blocks ++ others) after where
  triples := by
    calc after.triples
        = middle.triples ++ Property.triplesOf others := second.triples
      _ = graph.triples ++ Property.triplesOf blocks ++ Property.triplesOf others := by
        rw [first.triples]
      _ = graph.triples ++ Property.triplesOf (blocks ++ others) := by
        rw [Property.triplesOf_append, List.append_assoc]
  placed block inside triple made := by
    rcases List.mem_append.1 inside with early | late
    · have place := first.placed block early triple made
      have known : middle.hasStatement triple.ident = true := by
        rw [hasStatement_eq_isSome_place?, place]
        rfl
      exact (second.kept _ known).trans place
    · exact second.placed block late triple made
  kept ident known := by
    have place := first.kept ident known
    have still : middle.hasStatement ident = true := by
      rw [hasStatement_eq_isSome_place?, place]
      exact known
    exact (second.kept ident still).trans place
  statements := by
    have early := first.statements
    have late := second.statements
    have whole := Property.statementCount_append nodes more
    omega
  groups := by
    have early := first.groups
    have late := second.groups
    have whole := Property.groupCount_append nodes more
    omega
  entities := second.entities.trans first.entities
  minted := second.minted.trans first.minted

end Appended

theorem appended_emit (span : Span) (subject : Ident) (distinct : graph.Distinct)
    (free : graph.Free property) :
    graph.Appended [property] [(property.block graph.nextStatement graph.nextGroup subject, span)]
      (graph.emit span subject property) where
  triples := by simp [triples_emit, Property.triplesOf]
  placed block inside triple made := by
    obtain rfl := List.mem_singleton.1 inside
    rw [emit, place?_pushAll, if_pos (List.mem_map_of_mem made)]
  kept ident known := by
    rw [emit, place?_pushAll, if_neg]
    · rfl
    · intro made
      rw [distinct.fresh free made] at known
      contradiction
  statements := by
    rw [nextStatement_emit, Property.statementCount_cons]
    rfl
  groups := by
    rw [nextGroup_emit, Property.groupCount_cons]
    rfl
  entities := by rw [emit, pushAll_eq]
  minted := by rw [emit, pushAll_eq]

end Graph

namespace Property

mutual

theorem attachAt_appended {most : Nat} : ∀ (property : Property) {depth : Nat} {span : Span}
    {subject ident : Ident} {graph after : Graph}, graph.Distinct → LabelsNamed (nodes property) →
    attachAt most depth span subject property graph = (.ok ident, after) →
    ident = (property.block graph.nextStatement graph.nextGroup subject).main.ident ∧
    after.Distinct ∧
      graph.Appended (nodes property)
        (blocks graph.nextStatement graph.nextGroup span subject property) after
  | ⟨predicate, object, citations, label, place⟩, depth, span, subject, ident, graph,
      after, distinct, labels, attached => by
    rw [nodes] at labels
    rw [attachAt_eq] at attached
    split at attached
    · simp at attached
    · next clear =>
      rcases List.forall_mem_cons.1 labels with ⟨own, inner⟩
      have free := free_of_obstacle?_eq_none own clear
      have emitted := distinct.emit span subject free
      have made := Graph.appended_emit span subject distinct free
      rw [Attempt.bind_apply] at attached
      split at attached
      · next reached run =>
        rcases attachAll_appended citations emitted inner run with ⟨kept, appended⟩
        rw [Graph.nextStatement_emit, Graph.nextGroup_emit] at appended
        rcases by simpa using attached with ⟨rfl, rfl⟩
        exact ⟨rfl, kept, made.trans appended⟩
      · simp at attached

theorem attachAll_appended {most : Nat} :
    ∀ (properties : List Property) {depth : Nat} {subject : Ident}
    {graph after : Graph}, graph.Distinct → LabelsNamed (nodesAll properties) →
    attachAll most depth subject properties graph = (.ok (), after) →
    after.Distinct ∧ graph.Appended (nodesAll properties)
      (blocksAll graph.nextStatement graph.nextGroup subject properties) after
  | [], depth, subject, graph, after, distinct, _, attached => by
    obtain rfl : graph = after := by simpa [attachAll] using attached
    exact ⟨distinct, .refl graph⟩
  | citation :: rest, depth, subject, graph, after, distinct, labels, attached => by
    rw [nodesAll] at labels
    rcases List.forall_mem_append.1 labels with ⟨early, late⟩
    rw [attachAll, Attempt.bind_apply] at attached
    split at attached
    · next ident middle run =>
      rcases attachAt_appended citation distinct early run with ⟨_, kept, first⟩
      rcases attachAll_appended rest kept late attached with ⟨kept', second⟩
      rw [first.statements, first.groups] at second
      exact ⟨kept', first.trans second⟩
    · simp at attached

end

/-- A successful attachment appends one block for each property of the tree, in the order in which
they are written, and gives the identifier of the first. -/
theorem attach_appends_flattening {most : Nat} {span : Span} {subject ident : Ident}
    {property : Property} {graph after : Graph} (distinct : graph.Distinct)
    (labels : LabelsNamed (nodes property))
    (attached : attach most span subject property graph = (.ok ident, after)) :
    ident = property.label.getD (.statement graph.nextStatement) ∧
      graph.Appended (nodes property)
        (blocks graph.nextStatement graph.nextGroup span subject property) after ∧
      statementsOf (blocks graph.nextStatement graph.nextGroup span subject property) =
        List.range' graph.nextStatement (statementCount (nodes property)) ∧
      groupsOf (blocks graph.nextStatement graph.nextGroup span subject property) =
        List.range' graph.nextGroup (groupCount (nodes property)) ∧
      after.triples.length = graph.triples.length + size (nodes property) ∧ after.Distinct := by
  rcases attachAt_appended property distinct labels attached with ⟨named, kept, appended⟩
  obtain ⟨statements, groups⟩ :=
    numbering_blocks graph.nextStatement graph.nextGroup span subject property labels
  refine ⟨named, appended, statements, groups, ?_, kept⟩
  calc after.triples.length
      =
        (graph.triples ++ triplesOf
          (blocks graph.nextStatement graph.nextGroup span subject property)).length := by
        rw [appended.triples]
    _ = graph.triples.length + size (nodes property) := by rw [List.length_append, length_blocks]

theorem attach_appends_labelled_citation :
    let citation : Property := (plain (.user "e") (.user "f") ⟨12, 13, 2, 3⟩).labelled (.user "d")
    let property : Property := (plain (.user "b") (.user "c") ⟨4, 5, 1, 5⟩).citedBy [citation]
    ∃ after, attach 1 ⟨2, 4, 1, 3⟩ (.user "a") property Graph.empty = (.ok (.statement 0), after) ∧
      Graph.empty.Appended [property, citation]
        [(⟨⟨.statement 0, .user "a", .user "b", .user "c"⟩, some 0⟩, ⟨2, 4, 1, 3⟩),
          (⟨⟨.user "d", .statement 0, .user "e", .user "f"⟩, some 1⟩, ⟨12, 13, 2, 3⟩)] after ∧
      after.triples.length = 8 := by
  intro citation property
  have attached : attach 1 ⟨2, 4, 1, 3⟩ (.user "a") property Graph.empty =
      (.ok (.statement 0), (attach 1 ⟨2, 4, 1, 3⟩ (.user "a") property Graph.empty).2) := rfl
  have labels : LabelsNamed (nodes property) := by
    rintro node (_ | ⟨_, _ | ⟨_, inside⟩⟩) label labelled
    · contradiction
    · cases labelled
      exact .user "d"
    · contradiction
  rcases attach_appends_flattening Graph.distinct_empty labels attached
    with ⟨_, appended, _, _, length, _⟩
  exact ⟨_, attached, appended, length⟩

end Property

end FactGraph
