import FactGraph.Proofs.Graph.Attached

/-! Attachment as one walk over a list: the properties of the tree, each before its citations, are
made one after the other, and the first that is refused ends the walk. -/

namespace FactGraph

/-- A property of a tree where it stands: so many citations deep, at a place, and about a
subject. -/
structure Site where
  depth : Nat
  span : Span
  subject : Ident
  property : Property
  deriving DecidableEq, Repr

namespace Property

mutual

/-- The property and all citations in it, each before its own. The first stands at the place that is
given, and every citation at its own place, about the statement of what it cites. -/
def sites (statement depth : Nat) (span : Span) (subject : Ident) : Property → List Site
  | ⟨predicate, object, citations, label, place⟩ =>
      let root : Property := ⟨predicate, object, citations, label, place⟩
      ⟨depth, span, subject, root⟩ ::
        sitesAll (statement + root.statementsDrawn) (depth + 1) (label.getD (.statement statement))
          citations

def sitesAll (statement depth : Nat) (subject : Ident) : List Property → List Site
  | [] => []
  | citation :: rest =>
      sites statement depth citation.span subject citation ++
        sitesAll (statement + statementCount (nodes citation)) depth subject rest

end

mutual

@[simp] theorem map_property_sites (statement depth : Nat) (span : Span) (subject : Ident) :
    ∀ property : Property, (sites statement depth span subject property).map (·.property) =
      nodes property
  | ⟨predicate, object, citations, label, place⟩ => by
    rw [sites, nodes, List.map_cons, map_property_sitesAll]

@[simp] theorem map_property_sitesAll (statement depth : Nat) (subject : Ident) :
    ∀ properties : List Property,
      (sitesAll statement depth subject properties).map (·.property) = nodesAll properties
  | [] => rfl
  | citation :: rest => by
    rw [sitesAll, nodesAll, List.map_append, map_property_sites, map_property_sitesAll]

end

end Property

namespace Site

def blocks : (statement group : Nat) → List Site → List (Block × Span)
  | _, _, [] => []
  | statement, group, site :: rest =>
      (site.property.block statement group site.subject, site.span) ::
        blocks (statement + site.property.statementsDrawn) (group + site.property.groupsDrawn) rest

theorem blocks_append (statement group : Nat) (first second : List Site) :
    blocks statement group (first ++ second) =
      blocks statement group first ++
        blocks (statement + Property.statementCount (first.map (·.property)))
          (group + Property.groupCount (first.map (·.property))) second := by
  induction first generalizing statement group with
  | nil => rfl
  | cons site first ih =>
    rw [List.cons_append, blocks, ih, blocks, List.cons_append, List.map_cons,
      Property.statementCount_cons, Property.groupCount_cons, Nat.add_assoc, Nat.add_assoc]

theorem length_blocks (statement group : Nat) (sites : List Site) :
    (blocks statement group sites).length = sites.length := by
  induction sites generalizing statement group with
  | nil => rfl
  | cons site sites ih => rw [blocks, List.length_cons, List.length_cons, ih]

theorem blocks_take (statement group : Nat) (first second : List Site) :
    (blocks statement group (first ++ second)).take first.length =
      blocks statement group first := by
  rw [blocks_append, List.take_left' (length_blocks statement group first)]

end Site

namespace Property

mutual

theorem blocks_sites (statement group depth : Nat) (span : Span) (subject : Ident) :
    ∀ property : Property,
      Site.blocks statement group (sites statement depth span subject property) =
        blocks statement group span subject property
  | ⟨predicate, object, citations, label, place⟩ => by
    rw [sites, Site.blocks, blocks_sitesAll, blocks]
    rfl

theorem blocks_sitesAll (statement group depth : Nat) (subject : Ident) :
    ∀ properties : List Property,
      Site.blocks statement group (sitesAll statement depth subject properties) =
        blocksAll statement group subject properties
  | [] => rfl
  | citation :: rest => by
    rw [sitesAll, Site.blocks_append, map_property_sites, blocks_sites, blocks_sitesAll, blocksAll]

end

end Property

namespace Graph

def emitAll (graph : Graph) (sites : List Site) : Graph :=
  sites.foldl (fun graph site => graph.emit site.span site.subject site.property) graph

@[simp] theorem emitAll_nil (graph : Graph) : graph.emitAll [] = graph := rfl

@[simp] theorem emitAll_cons (graph : Graph) (site : Site) (rest : List Site) :
    graph.emitAll (site :: rest) = (graph.emit site.span site.subject site.property).emitAll rest :=
  rfl

theorem nextStatement_emitAll (graph : Graph) (sites : List Site) :
    (graph.emitAll sites).nextStatement =
      graph.nextStatement + Property.statementCount (sites.map (·.property)) := by
  induction sites generalizing graph with
  | nil => rfl
  | cons site sites ih =>
    rw [emitAll_cons, ih, nextStatement_emit, List.map_cons, Property.statementCount_cons,
      Nat.add_assoc]

end Graph

namespace Property

variable {most : Nat} {graph after : Graph}

/-- Makes what stands at the sites, up to the first that is refused. -/
def walk (most : Nat) : List Site → Attempt Graph Unit
  | [] => pure ()
  | site :: rest => fun graph =>
      match site.property.obstacle? most site.depth site.span graph with
      | some fault => (.error fault, graph)
      | none => walk most rest (graph.emit site.span site.subject site.property)

theorem walk_of_obstacle {site : Site} {rest : List Site} {fault : Fault}
    (stopped : site.property.obstacle? most site.depth site.span graph = some fault) :
    walk most (site :: rest) graph = (.error fault, graph) := by
  rw [walk]
  simp only [stopped]

theorem walk_of_clear {site : Site} {rest : List Site}
    (clear : site.property.obstacle? most site.depth site.span graph = none) :
    walk most (site :: rest) graph =
      walk most rest (graph.emit site.span site.subject site.property) := by
  rw [walk]
  simp only [clear]

theorem eq_emitAll_of_walk {sites : List Site} (walked : walk most sites graph = (.ok (), after)) :
    after = graph.emitAll sites := by
  induction sites generalizing graph with
  | nil =>
    rw [walk, Attempt.pure_apply] at walked
    exact (Prod.mk.inj walked).2.symm
  | cons site sites ih =>
    cases met : site.property.obstacle? most site.depth site.span graph with
    | some fault =>
      rw [walk_of_obstacle met] at walked
      simp at walked
    | none =>
      rw [walk_of_clear met] at walked
      exact ih walked

theorem walk_append (first second : List Site) :
    walk most (first ++ second) = walk most first >>= fun _ => walk most second := by
  induction first with
  | nil => rfl
  | cons site first ih =>
    funext graph
    cases met : site.property.obstacle? most site.depth site.span graph with
    | some fault =>
      rw [List.cons_append, walk_of_obstacle met, Attempt.bind_error (walk_of_obstacle met)]
    | none =>
      rw [List.cons_append, walk_of_clear met, ih, Attempt.bind_apply, Attempt.bind_apply,
        walk_of_clear met]

mutual

/-- Attachment is the walk over the sites. -/
theorem attachAt_eq_walk : ∀ (property : Property) (depth : Nat) (span : Span) (subject : Ident)
    (graph : Graph),
    attachAt most depth span subject property graph =
      (do
        walk most (sites graph.nextStatement depth span subject property)
        return property.label.getD (.statement graph.nextStatement)) graph
  | ⟨predicate, object, citations, label, place⟩, depth, span, subject, graph => by
    rw [attachAt_eq, sites]
    cases met : obstacle? most depth span ⟨predicate, object, citations, label, place⟩ graph with
    | some fault => rw [Attempt.bind_error (walk_of_obstacle met)]
    | none =>
      let root : Site := ⟨depth, span, subject, ⟨predicate, object, citations, label, place⟩⟩
      have clear : root.property.obstacle? most root.depth root.span graph = none := met
      rw [Attempt.bind_apply, Attempt.bind_apply, attachAll_eq_walk citations,
        Graph.nextStatement_emit, walk_of_clear clear]
      rfl

theorem attachAll_eq_walk :
    ∀ (properties : List Property) (depth : Nat) (subject : Ident) (graph : Graph),
    attachAll most depth subject properties graph =
      walk most (sitesAll graph.nextStatement depth subject properties) graph
  | [], _, _, _ => rfl
  | citation :: rest, depth, subject, graph => by
    rw [attachAll, sitesAll, walk_append, Attempt.bind_apply, Attempt.bind_apply,
      attachAt_eq_walk citation, Attempt.bind_apply]
    rcases run : walk most (sites graph.nextStatement depth citation.span subject citation) graph
      with ⟨fault | _, middle⟩
    · rfl
    · -- The sites of the rest are numbered from where the first citation has left the counter.
      have made := eq_emitAll_of_walk run
      have counted : middle.nextStatement =
          graph.nextStatement + statementCount (nodes citation) := by
        rw [made, Graph.nextStatement_emitAll, map_property_sites]
      simp only [Attempt.pure_apply, attachAll_eq_walk rest, counted]

end

end Property

end FactGraph
