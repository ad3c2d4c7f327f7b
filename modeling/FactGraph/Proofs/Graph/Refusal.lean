import FactGraph.Proofs.Attempt
import FactGraph.Proofs.Graph.Walk

namespace FactGraph

namespace Site

def labels (sites : List Site) : List Ident := sites.filterMap (·.property.label)

theorem labels_cons (site : Site) (rest : List Site) :
    labels (site :: rest) = site.property.label.toList ++ labels rest := by
  unfold labels
  rw [List.filterMap_cons]
  cases site.property.label <;> rfl

/-- Why nothing is made at a site: it is too deep; or else its label is the identifier of a
statement in the graph. -/
inductive Refused (most : Nat) (graph : Graph) (site : Site) : Fault → Prop
  | deep (below : most < site.depth) : Refused most graph site (.limit (.citation most))
  | taken {label : Ident} (shallow : site.depth ≤ most)
      (labelled : site.property.label = some label) (known : graph.hasStatement label = true) :
      Refused most graph site (.statementTaken label.text site.span.position)

variable {most : Nat} {graph : Graph} {site : Site} {fault : Fault}

theorem obstacle?_eq_some_iff :
    site.property.obstacle? most site.depth site.span graph = some fault ↔
    Refused most graph site fault := by
  unfold Property.obstacle?
  constructor
  · intro stopped
    split at stopped
    · next below => exact Option.some.inj stopped ▸ .deep below
    · next above =>
      have shallow : site.depth ≤ most := Nat.le_of_not_lt above
      split at stopped
      · contradiction
      · next label labelled =>
        split at stopped
        · next known => exact Option.some.inj stopped ▸ .taken shallow labelled known
        · contradiction
  · intro refused
    cases refused with
    | deep below => rw [if_pos below]
    | taken shallow labelled known =>
      simp only [if_neg (Nat.not_lt.2 shallow), labelled, known, if_true]

theorem obstacle?_eq_none_iff :
    site.property.obstacle? most site.depth site.span graph = none ↔
      site.depth ≤ most ∧ ∀ label ∈ site.property.label, graph.hasStatement label = false := by
  unfold Property.obstacle?
  by_cases below : most < site.depth
  · have deep : ¬ site.depth ≤ most := Nat.not_le.2 below
    simp only [if_pos below, deep, false_and, reduceCtorEq]
  · have shallow : site.depth ≤ most := Nat.le_of_not_lt below
    rw [if_neg below]
    cases labelled : site.property.label with
    | none => simp [shallow]
    | some label => simp [shallow]

end Site

namespace Graph

/-- Everything at the sites can be made in the graph: nothing stands too deep, and the labels are
different from each other and from the identifiers that are there. -/
structure Admits (graph : Graph) (most : Nat) (sites : List Site) : Prop where
  shallow : ∀ site ∈ sites, site.depth ≤ most
  different : (Site.labels sites).Nodup
  unused : ∀ label ∈ Site.labels sites, graph.hasStatement label = false

variable {most : Nat} {graph : Graph}

theorem hasStatement_emit_of_named {span : Span} {subject label : Ident} {property : Property}
    (own : ∀ label ∈ property.label, label.IsNamed) (named : label.IsNamed) :
    (graph.emit span subject property).hasStatement label = true ↔
      property.label = some label ∨ graph.hasStatement label = true := by
  rw [hasStatement_emit, Block.mem_idents]
  apply or_congr_left
  constructor
  · intro made
    rcases made with rfl | ⟨group, _, role, rfl⟩
    · rcases Property.ident_block_cases graph.nextStatement graph.nextGroup subject own
        with _ | ⟨numbered, _⟩
      · cases labelled : property.label with
        | none =>
          simp only [Property.block, labelled, Option.getD_none] at named
          contradiction
        | some label => simp [Property.block, labelled]
      · rw [numbered] at named
        contradiction
    · contradiction
  · intro labelled
    simp [Property.block, labelled]

theorem admits_nil (graph : Graph) (most : Nat) : graph.Admits most [] where
  shallow _ inside := by simp at inside
  different := List.nodup_nil
  unused _ inside := by simp [Site.labels] at inside

theorem admits_cons {site : Site} {rest : List Site}
    (named : Property.LabelsNamed ((site :: rest).map (·.property))) :
    graph.Admits most (site :: rest) ↔
      site.property.obstacle? most site.depth site.span graph = none ∧
        (graph.emit site.span site.subject site.property).Admits most rest := by
  rcases List.forall_mem_cons.1 named with ⟨own, others⟩
  -- A label that comes later meets the first label, but no number that has been drawn for the
  -- first.
  have later (label : Ident) (inside : label ∈ Site.labels rest) :
      (graph.emit site.span site.subject site.property).hasStatement label = false ↔
        site.property.label ≠ some label ∧ graph.hasStatement label = false := by
    rcases List.mem_filterMap.1 inside with ⟨other, there, labelled⟩
    have labelNamed : label.IsNamed :=
      others other.property (List.mem_map_of_mem there) label labelled
    rw [← Bool.not_eq_true, hasStatement_emit_of_named own labelNamed, not_or, Bool.not_eq_true]
  rw [Site.obstacle?_eq_none_iff]
  constructor
  · intro admits
    have different := admits.different
    have unused := admits.unused
    rw [Site.labels_cons] at different unused
    have apart := (List.nodup_append.1 different).2.2
    refine ⟨⟨admits.shallow site List.mem_cons_self, ?_⟩, ?_, ?_, ?_⟩
    · intro label labelled
      exact unused label (List.mem_append_left _ (Option.mem_toList.2 labelled))
    · intro other inside
      exact admits.shallow other (List.mem_cons_of_mem _ inside)
    · exact (List.nodup_append.1 different).2.1
    · intro label inside
      apply (later label inside).2
      constructor
      · intro labelled
        exact apart label (Option.mem_toList.2 labelled) label inside rfl
      · exact unused label (List.mem_append_right _ inside)
  · intro first
    rcases first with ⟨⟨shallow, free⟩, admits⟩
    constructor
    · exact List.forall_mem_cons.2 ⟨shallow, admits.shallow⟩
    · rw [Site.labels_cons, List.nodup_append]
      have single : site.property.label.toList.Nodup := by cases site.property.label <;> simp
      refine ⟨single, admits.different, ?_⟩
      intro label labelled other inside same
      subst same
      exact ((later label inside).1 (admits.unused label inside)).1 (Option.mem_toList.1 labelled)
    · intro label inside
      rw [Site.labels_cons, List.mem_append] at inside
      rcases inside with labelled | inside
      · exact free label (Option.mem_toList.1 labelled)
      · exact ((later label inside).1 (admits.unused label inside)).2

theorem Distinct.emitAll {sites : List Site} (named : Property.LabelsNamed (sites.map (·.property)))
    (distinct : graph.Distinct) (admits : graph.Admits most sites) :
    (graph.emitAll sites).Distinct := by
  induction sites generalizing graph with
  | nil => exact distinct
  | cons site sites ih =>
    rcases (admits_cons named).1 admits with ⟨clear, later⟩
    rcases List.forall_mem_cons.1 named with ⟨own, others⟩
    have free := Property.free_of_obstacle?_eq_none own clear
    exact ih others (distinct.emit site.span site.subject free) later

theorem appended_emitAll {sites : List Site} (named : Property.LabelsNamed (sites.map (·.property)))
    (distinct : graph.Distinct) (admits : graph.Admits most sites) :
    graph.Appended (sites.map (·.property)) (Site.blocks graph.nextStatement graph.nextGroup sites)
      (graph.emitAll sites) := by
  induction sites generalizing graph with
  | nil => exact .refl graph
  | cons site sites ih =>
    rcases (admits_cons named).1 admits with ⟨clear, later⟩
    rcases List.forall_mem_cons.1 named with ⟨own, others⟩
    have free := Property.free_of_obstacle?_eq_none own clear
    have first := appended_emit site.span site.subject distinct free
    have rest := ih others (distinct.emit site.span site.subject free) later
    rw [nextStatement_emit, nextGroup_emit] at rest
    exact first.trans rest

end Graph

namespace Property

theorem LabelsNamed.start {first second : List Site}
    (named : LabelsNamed ((first ++ second).map (·.property))) :
    LabelsNamed (first.map (·.property)) := by
  rw [List.map_append] at named
  exact (List.forall_mem_append.1 named).1

variable {most : Nat} {graph after : Graph} {route : List Site}

theorem walk_eq_ok_iff (named : LabelsNamed (route.map (·.property))) :
    walk most route graph = (.ok (), graph.emitAll route) ↔ graph.Admits most route := by
  induction route generalizing graph with
  | nil => exact ⟨fun _ => Graph.admits_nil graph most, fun _ => rfl⟩
  | cons site route ih =>
    have others : LabelsNamed (route.map (·.property)) := (List.forall_mem_cons.1 named).2
    rw [Graph.admits_cons named]
    cases met : site.property.obstacle? most site.depth site.span graph with
    | some fault => simp [walk_of_obstacle met]
    | none => simp [walk_of_clear met, ih others]

/-- A walk that stops has made everything up to the first site that is refused. -/
theorem walk_eq_error_iff {fault : Fault} (named : LabelsNamed (route.map (·.property))) :
    walk most route graph = (.error fault, after) ↔
      ∃ before site rest, route = before ++ site :: rest ∧ graph.Admits most before ∧
        site.Refused most after fault ∧ after = graph.emitAll before := by
  constructor
  · intro stopped
    induction route generalizing graph with
    | nil => simp [walk] at stopped
    | cons site route ih =>
      have others : LabelsNamed (route.map (·.property)) := (List.forall_mem_cons.1 named).2
      cases met : site.property.obstacle? most site.depth site.span graph with
      | some reason =>
        rw [walk_of_obstacle met] at stopped
        rcases by simpa using stopped with ⟨rfl, rfl⟩
        exact ⟨[], site, route, rfl, Graph.admits_nil graph most,
          Site.obstacle?_eq_some_iff.1 met, rfl⟩
      | none =>
        rw [walk_of_clear met] at stopped
        rcases ih others stopped with ⟨before, other, rest, rfl, admits, refused, made⟩
        rw [← List.cons_append] at named
        have whole : graph.Admits most (site :: before) :=
          (Graph.admits_cons named.start).2 ⟨met, admits⟩
        exact ⟨site :: before, other, rest, rfl, whole, refused, made⟩
  · intro stopped
    rcases stopped with ⟨before, site, rest, rfl, admits, refused, rfl⟩
    rw [walk_append, Attempt.bind_ok ((walk_eq_ok_iff named.start).2 admits)]
    exact walk_of_obstacle (Site.obstacle?_eq_some_iff.2 refused)

theorem exists_refused_of_walk {fault : Fault}
    (failed : walk most route graph = (.error fault, after)) :
    ∃ site ∈ route, site.Refused most after fault := by
  induction route generalizing graph with
  | nil => cases failed
  | cons site route ih =>
    cases met : site.property.obstacle? most site.depth site.span graph with
    | none =>
      rw [walk_of_clear met] at failed
      rcases ih failed with ⟨other, inside, refused⟩
      exact ⟨other, List.mem_cons_of_mem _ inside, refused⟩
    | some other =>
      rw [walk_of_obstacle met] at failed
      obtain ⟨same, rfl⟩ := Prod.mk.inj failed
      exact ⟨site, List.mem_cons_self, Site.obstacle?_eq_some_iff.1 (Except.error.inj same ▸ met)⟩

theorem exists_refused_of_attachPairs {span : Span} {pairs : List (Ident × Property)}
    {fault : Fault} (failed : attachPairs most span pairs graph = (.error fault, after)) :
    ∃ pair ∈ pairs, ∃ statement, ∃ site ∈ sites statement 0 span pair.1 pair.2, site.Refused most
      after fault := by
  induction pairs generalizing graph with
  | nil => cases failed
  | cons pair pairs ih =>
    rw [attachPairs] at failed
    rcases run : attach most span pair.1 pair.2 graph with ⟨other | ident, middle⟩
    · rw [Attempt.bind_error run] at failed
      obtain ⟨same, rfl⟩ := Prod.mk.inj failed
      obtain rfl := Except.error.inj same
      rw [attach, attachAt_eq_walk, Attempt.bind_pure_eq_error_iff] at run
      exact ⟨pair, List.mem_cons_self, _, exists_refused_of_walk run⟩
    · rw [Attempt.bind_ok run] at failed
      rcases ih failed with ⟨other, inside, refused⟩
      exact ⟨other, List.mem_cons_of_mem _ inside, refused⟩

mutual

theorem span_of_mem_sites (statement depth : Nat) (span : Span) (subject : Ident) :
    ∀ property : Property,
    ∀ site ∈ sites statement depth span subject property,
      site.span = span ∨ ∃ node ∈ nodesAll property.citations, site.span = node.span
  | ⟨predicate, object, citations, label, place⟩, site, inside => by
    rw [sites] at inside
    rcases List.mem_cons.1 inside with rfl | later
    · exact .inl rfl
    · exact .inr (span_of_mem_sitesAll _ _ _ citations site later)

theorem span_of_mem_sitesAll (statement depth : Nat) (subject : Ident) :
    ∀ properties : List Property,
    ∀ site ∈ sitesAll statement depth subject properties, ∃ node ∈ nodesAll properties,
      site.span = node.span
  | [], _, inside => absurd inside List.not_mem_nil
  | citation :: rest, site, inside => by
    rw [sitesAll] at inside
    rw [nodesAll, nodes_eq]
    rcases List.mem_append.1 inside with first | later
    · rcases span_of_mem_sites _ _ _ _ citation site first with own | ⟨node, deeper, same⟩
      · exact ⟨citation, List.mem_append_left _ List.mem_cons_self, own⟩
      · exact ⟨node, List.mem_append_left _ (List.mem_cons_of_mem _ deeper), same⟩
    · rcases span_of_mem_sitesAll _ _ _ rest site later with ⟨node, deeper, same⟩
      exact ⟨node, List.mem_append_right _ deeper, same⟩

end

theorem exists_refused_of_attachEach {span : Span} {subjects : List Ident}
    {properties : List Property} {fault : Fault}
    (failed : (attachEach most span subjects properties graph).1 = .error fault) :
    ∃ (site : Site) (reached : Graph), site.Refused most reached fault ∧
    site.property ∈ nodesAll properties ∧
      (site.span = span ∨ ∃ node ∈ nodesAll properties, site.span = node.span) := by
  rcases ran : attachEach most span subjects properties graph with ⟨answer, reached⟩
  rw [ran] at failed
  obtain rfl : answer = .error fault := failed
  rcases exists_refused_of_attachPairs ran with ⟨pair, within, statement, site, inside, refused⟩
  rcases List.mem_flatMap.1 within with ⟨subject, _, within⟩
  rcases List.mem_map.1 within with ⟨property, here, rfl⟩
  have given {node : Property} (deeper : node ∈ nodes property) : node ∈ nodesAll properties := by
    rw [nodesAll_eq_flatMap]
    exact List.mem_flatMap_of_mem here deeper
  refine ⟨site, reached, refused, ?_, (span_of_mem_sites _ _ _ _ property site inside).imp_right ?_⟩
  · apply given
    rw [← map_property_sites statement 0 span subject property]
    exact List.mem_map_of_mem inside
  · rintro ⟨node, deeper, same⟩
    exact ⟨node, given (nodes_eq property ▸ List.mem_cons_of_mem _ deeper), same⟩

/-- Attachment succeeds where the whole tree can be made. Where it stops, it does so at the first
site that is refused, and has made what stands before it, and nothing else. -/
theorem attach_stops_at_first_refusal {span : Span} {subject : Ident} {property : Property}
    (distinct : graph.Distinct) (labels : LabelsNamed (nodes property)) :
    ((∃ ident after, attach most span subject property graph = (.ok ident, after)) ↔
      graph.Admits most (sites graph.nextStatement 0 span subject property)) ∧
    ∀ fault after, attach most span subject property graph = (.error fault, after) ↔
      ∃ before site rest, sites graph.nextStatement 0 span subject property =
        before ++ site :: rest ∧
        graph.Admits most before ∧ site.Refused most after fault ∧ after = graph.emitAll before ∧
        graph.Appended (before.map (·.property))
          ((blocks graph.nextStatement graph.nextGroup span subject property).take before.length)
          after ∧
        after.Distinct := by
  have named : LabelsNamed ((sites graph.nextStatement 0 span subject property).map
        (·.property)) := by
    rwa [map_property_sites]
  have walked : attach most span subject property graph = _ :=
    attachAt_eq_walk property 0 span subject graph
  rw [walked]
  constructor
  · rw [Attempt.exists_bind_pure_eq_ok_iff, ← walk_eq_ok_iff named]
    constructor
    · intro ended
      rcases ended with ⟨_, after, ended⟩
      exact eq_emitAll_of_walk ended ▸ ended
    · intro ended
      exact ⟨(), _, ended⟩
  · intro fault after
    rw [Attempt.bind_pure_eq_error_iff, walk_eq_error_iff named]
    constructor
    · intro stopped
      rcases stopped with ⟨before, site, rest, whole, admits, refused, rfl⟩
      rw [whole] at named
      have made := Graph.appended_emitAll named.start distinct admits
      rw [← Site.blocks_take _ _ before (site :: rest), ← whole, blocks_sites] at made
      exact ⟨before, site, rest, whole, admits, refused, rfl, made,
        distinct.emitAll named.start admits⟩
    · intro stopped
      rcases stopped with ⟨before, site, rest, whole, admits, refused, made, _⟩
      exact ⟨before, site, rest, whole, admits, refused, made⟩

/-- A label that a citation has taken is refused to the next one, after the citations of the
first. -/
theorem attach_stops_at_repeated_label :
    let inner : Property := plain (.user "g") (.user "h") ⟨30, 31, 3, 1⟩
    let first : Property :=
      ((plain (.user "e") (.user "f") ⟨20, 21, 2, 1⟩).citedBy [inner]).labelled (.user "x")
    let second : Property := (plain (.user "i") (.user "j") ⟨40, 41, 4, 7⟩).labelled (.user "x")
    let property : Property :=
      (plain (.user "b") (.user "c") ⟨10, 11, 1, 9⟩).citedBy [first, second]
    let span : Span := ⟨2, 4, 1, 3⟩
    ∃ after,
      attach 2 span (.user "a") property Graph.empty =
        (.error (.statementTaken "_:user/x" ⟨4, 7⟩), after) ∧
      after.triples.length = 9 ∧
      ∃ before site rest, sites 0 0 span (.user "a") property = before ++ site :: rest ∧
        Graph.empty.Admits 2 before ∧ site.Refused 2 after (.statementTaken "_:user/x" ⟨4, 7⟩) ∧
        after = Graph.empty.emitAll before ∧
        Graph.empty.Appended (before.map (·.property))
          ((blocks 0 0 span (.user "a") property).take before.length) after ∧ after.Distinct := by
  intro inner first second property span
  have stopped : attach 2 span (.user "a") property Graph.empty =
      (.error (.statementTaken "_:user/x" ⟨4, 7⟩),
        (attach 2 span (.user "a") property Graph.empty).2) := rfl
  have labels : LabelsNamed (nodes property) := by
    have list : nodes property = [property, first, inner, second] := rfl
    rw [list]
    intro node inside label labelled
    simp only [List.mem_cons, List.not_mem_nil, or_false] at inside
    rcases inside with rfl | rfl | rfl | rfl <;> cases labelled <;> exact .user "x"
  exact ⟨_, stopped, rfl,
    ((attach_stops_at_first_refusal Graph.distinct_empty labels).2 _ _).1 stopped⟩

end Property

end FactGraph
