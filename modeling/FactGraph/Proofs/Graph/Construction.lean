import FactGraph.Graph.Naming
import FactGraph.Proofs.Attempt
import FactGraph.Proofs.Graph.Flattening

namespace FactGraph

structure Property.Named (property : Property) : Prop where
  predicate : property.predicate.IsNamed
  object : property.object.IsNamed
  label : ∀ label ∈ property.label, label.IsNamed

/-- What a statement may be about: a named entity, or a statement made before and reified. -/
def Citable (blocks : List Block) (subject : Ident) : Prop :=
  subject.IsNamed ∨ ∃ block ∈ blocks, block.main.ident = subject ∧ block.group.isSome

/-- The graphs that can be made, with their blocks in order. -/
inductive Graph.Built : List Block → Graph → Prop
  | empty : Built [] Graph.empty
  | allocate {blocks : List Block} {graph : Graph} (name : Option String)
      (before : Built blocks graph) :
      Built blocks (graph.allocate name).2
  | emit {blocks : List Block} {graph : Graph} (span : Span) {subject : Ident} {property : Property}
      (before : Built blocks graph) (citable : Citable blocks subject) (named : property.Named)
      (free : graph.Free property) :
      Built (blocks ++ [property.block graph.nextStatement graph.nextGroup subject])
        (graph.emit span subject property)

/-- What a place says of the statement that is made there: where entities are described, it is about
one of them, and where statements are cited, about one that was made before and reified. -/
def Told (describes cites : Span → Prop) (history : List (Block × Span)) (span : Span)
    (subject : Ident) : Prop :=
  describes span ∧ subject.IsNamed ∨
    cites span ∧ ∃ entry ∈ history, entry.1.main.ident = subject ∧ entry.1.group.isSome

theorem Told.citable {describes cites : Span → Prop} {history : List (Block × Span)} {span : Span}
    {subject : Ident} (told : Told describes cites history span subject) :
    Citable (history.map Prod.fst) subject := by
  rcases told with ⟨_, named⟩ | ⟨_, entry, inside, same, reified⟩
  · exact .inl named
  · exact .inr ⟨entry.1, List.mem_map_of_mem inside, same, reified⟩

theorem Citable.told {history : List (Block × Span)} {subject : Ident}
    (citable : Citable (history.map Prod.fst) subject) (span : Span) :
    Told (fun _ => True) (fun _ => True) history span subject := by
  rcases citable with named | ⟨block, inside, same, reified⟩
  · exact .inl ⟨trivial, named⟩
  · rcases List.mem_map.1 inside with ⟨entry, there, rfl⟩
    exact .inr ⟨trivial, entry, there, same, reified⟩

inductive Graph.Traced (describes cites : Span → Prop) : List (Block × Span) → Graph → Prop
  | empty : Traced describes cites [] Graph.empty
  | allocate {history : List (Block × Span)} {graph : Graph} (name : Option String)
      (before : Traced describes cites history graph) :
      Traced describes cites history (graph.allocate name).2
  | emit {history : List (Block × Span)} {graph : Graph} {span : Span} {subject : Ident}
      {property : Property} (before : Traced describes cites history graph)
      (told : Told describes cites history span subject) (named : property.Named)
      (free : graph.Free property) :
      Traced describes cites (history ++
        [(property.block graph.nextStatement graph.nextGroup subject, span)])
        (graph.emit span subject property)

namespace Graph.Traced

variable {describes cites : Span → Prop} {history : List (Block × Span)} {graph : Graph}

theorem built (traced : graph.Traced describes cites history) :
    graph.Built (history.map Prod.fst) := by
  induction traced with
  | empty => exact .empty
  | allocate name _ ih => exact ih.allocate name
  | emit _ told named free ih =>
    rw [List.map_append]
    exact ih.emit _ told.citable named free

theorem told (traced : graph.Traced describes cites history) {early late : List (Block × Span)}
    {entry : Block × Span} (split : history = early ++ entry :: late) :
    Told describes cites early entry.2 entry.1.main.subject := by
  induction traced generalizing late with
  | empty => simp at split
  | allocate _ _ ih => exact ih split
  | emit _ told _ _ ih =>
    rcases List.eq_nil_or_concat late with rfl | ⟨front, last, rfl⟩
    · obtain ⟨rfl, same⟩ := List.append_inj' split rfl
      exact (List.cons.inj same).1 ▸ told
    · rw [List.concat_eq_append, ← List.cons_append, ← List.append_assoc] at split
      exact ih (List.append_inj' split rfl).1

end Graph.Traced

theorem Graph.Built.exists_traced {blocks : List Block} {graph : Graph}
    (built : graph.Built blocks) :
    ∃ history, graph.Traced (fun _ => True) (fun _ => True) history ∧
    history.map Prod.fst = blocks := by
  induction built with
  | empty => exact ⟨[], .empty, rfl⟩
  | allocate name _ ih =>
    rcases ih with ⟨history, traced, same⟩
    exact ⟨history, traced.allocate name, same⟩
  | emit span _ citable named free ih =>
    rcases ih with ⟨history, traced, rfl⟩
    exact ⟨_, traced.emit (citable.told span) named free, List.map_append⟩

namespace Graph

theorem allocate_eq (graph : Graph) (name : Option String) :
    ∃ nextEntity minted, (graph.allocate name).2 = { graph with nextEntity, minted } := by
  unfold allocate
  split
  · exact ⟨_, graph.minted, rfl⟩
  · split
    · exact ⟨_, _, rfl⟩
    · exact ⟨graph.nextEntity, graph.minted, rfl⟩

section

variable (graph : Graph) (name : Option String)

@[simp] theorem triples_allocate : (graph.allocate name).2.triples = graph.triples := by
  rcases allocate_eq graph name with ⟨_, _, same⟩
  rw [same]

@[simp] theorem places_allocate : (graph.allocate name).2.places = graph.places := by
  rcases allocate_eq graph name with ⟨_, _, same⟩
  rw [same]

@[simp] theorem nextStatement_allocate :
    (graph.allocate name).2.nextStatement = graph.nextStatement := by
  rcases allocate_eq graph name with ⟨_, _, same⟩
  rw [same]

@[simp] theorem nextGroup_allocate : (graph.allocate name).2.nextGroup = graph.nextGroup := by
  rcases allocate_eq graph name with ⟨_, _, same⟩
  rw [same]

@[simp] theorem hasStatement_allocate (ident : Ident) :
    (graph.allocate name).2.hasStatement ident = graph.hasStatement ident := by
  unfold hasStatement
  rw [places_allocate]

end

theorem Distinct.allocate {graph : Graph} (distinct : graph.Distinct) (name : Option String) :
    (graph.allocate name).2.Distinct where
  idents := by simpa using distinct.idents
  placed ident := by simpa using distinct.placed ident
  statements number := by simpa using distinct.statements number
  groups group role := by simpa using distinct.groups group role

namespace Built

variable {blocks : List Block} {graph : Graph}

theorem distinct (built : Built blocks graph) : graph.Distinct := by
  induction built with
  | empty => exact distinct_empty
  | allocate name _ ih => exact ih.allocate name
  | emit span _ _ _ free ih => exact ih.emit span _ free

theorem triples (built : Built blocks graph) : graph.triples = blocks.flatMap Block.triples := by
  induction built with
  | empty => rfl
  | allocate name _ ih => rw [triples_allocate, ih]
  | emit _ _ _ _ _ ih => rw [triples_emit, ih, List.flatMap_append, List.flatMap_singleton]

end Built

end Graph

namespace Property

open FactGraph.Graph

variable {most : Nat} {describes cites : Span → Prop} {graph : Graph} {subject : Ident}

theorem exists_reified (history : List (Block × Span)) (statement group : Nat) (span : Span)
    (subject : Ident) (property : Property) (cited : property.citations ≠ []) :
    ∃ entry ∈ history ++ [(property.block statement group subject, span)],
      entry.1.main.ident = (property.block statement group subject).main.ident ∧
      entry.1.group.isSome :=
  ⟨_, List.mem_append_right _ List.mem_cons_self, rfl, by simp [block, needsReification, cited]⟩

mutual

/-- Whether it succeeds or stops somewhere, attachment only adds blocks, and the citations stand at
their own places. -/
theorem attachAt_traced : ∀ (property : Property) (depth : Nat) (span : Span) {subject : Ident}
    {history : List (Block × Span)} {graph : Graph}, graph.Traced describes cites history →
    Told describes cites history span subject → (∀ node ∈ nodes property, node.Named) →
    (∀ node ∈ nodesAll property.citations, cites node.span) →
    ∃ more, (attachAt most depth span subject property graph).2.Traced describes cites
      (history ++ more)
  | ⟨predicate, object, citations, label, place⟩, depth, span, subject, history, graph,
      traced, told, named, placed => by
    rw [nodes] at named
    rcases List.forall_mem_cons.1 named with ⟨own, inner⟩
    rw [attachAt_eq]
    split
    · exact ⟨[], by simpa using traced⟩
    · next clear =>
      have free := free_of_obstacle?_eq_none own.label clear
      have made := traced.emit told own free
      have reified := exists_reified history graph.nextStatement graph.nextGroup span subject
        ⟨predicate, object, citations, label, place⟩
      rcases attachAll_traced citations (depth + 1) made reified inner placed with ⟨more, after⟩
      rw [List.append_assoc] at after
      simp only [Attempt.snd_bind_pure]
      exact ⟨_, after⟩

theorem attachAll_traced : ∀ (properties : List Property) (depth : Nat) {subject : Ident}
    {history : List (Block × Span)} {graph : Graph}, graph.Traced describes cites history →
    (properties ≠ [] → ∃ entry ∈ history, entry.1.main.ident = subject ∧ entry.1.group.isSome) →
    (∀ node ∈ nodesAll properties, node.Named) → (∀ node ∈ nodesAll properties, cites node.span) →
    ∃ more, (attachAll most depth subject properties graph).2.Traced describes cites
      (history ++ more)
  | [], _, _, _, _, traced, _, _, _ => ⟨[], by simpa [attachAll] using traced⟩
  | citation :: rest, depth, subject, history, graph, traced, reified, named, placed => by
    rw [nodesAll] at named placed
    rcases List.forall_mem_append.1 named with ⟨early, late⟩
    rcases List.forall_mem_append.1 placed with ⟨here, later⟩
    rw [nodes_eq] at here
    rcases List.forall_mem_cons.1 here with ⟨own, inner⟩
    have cited := reified (List.cons_ne_nil _ _)
    rcases attachAt_traced citation depth citation.span traced (.inr ⟨own, cited⟩) early inner
      with ⟨more, made⟩
    rw [attachAll, Attempt.bind_apply]
    split
    · next ident middle run =>
      rw [run] at made
      rcases cited with ⟨entry, inside, known⟩
      have still : rest ≠ [] → ∃ entry ∈ history ++ more, entry.1.main.ident = subject ∧
          entry.1.group.isSome :=
        fun _ => ⟨entry, List.mem_append_left more inside, known⟩
      rcases attachAll_traced rest depth made still late later with ⟨others, after⟩
      rw [List.append_assoc] at after
      exact ⟨more ++ others, after⟩
    · next fault middle run =>
      rw [run] at made
      exact ⟨more, made⟩

end

theorem attachPairs_keeps {span : Span} {pairs : List (Ident × Property)} (here : describes span)
    (named : ∀ pair ∈ pairs, pair.1.IsNamed ∧ ∀ node ∈ nodes pair.2, node.Named)
    (placed : ∀ pair ∈ pairs, ∀ node ∈ nodesAll pair.2.citations, cites node.span) :
    Attempt.Keeps (fun graph => ∃ history, graph.Traced describes cites history)
      (attachPairs most span pairs)
      fun _ => True := by
  induction pairs with
  | nil => exact .pure trivial
  | cons pair pairs ih =>
    rcases List.forall_mem_cons.1 named with ⟨first, others⟩
    rcases List.forall_mem_cons.1 placed with ⟨inner, elsewhere⟩
    have attached : Attempt.Keeps (fun graph => ∃ history, graph.Traced describes cites history)
        (attach most span pair.1 pair.2) fun _ => True := by
      intro graph made
      rcases made with ⟨history, traced⟩
      rcases attachAt_traced pair.2 0 span traced (.inl ⟨here, first.1⟩) first.2 inner
        with ⟨more, after⟩
      constructor
      · exact ⟨history ++ more, after⟩
      · intro _ _
        trivial
    apply attached.bind
    intro _ _
    exact ih others elsewhere

theorem attachEach_keeps {span : Span} {subjects : List Ident} {properties : List Property}
    (here : describes span) (subjectsNamed : ∀ subject ∈ subjects, subject.IsNamed)
    (named : ∀ node ∈ nodesAll properties, node.Named)
    (placed : ∀ node ∈ nodesAll properties, cites node.span) :
    Attempt.Keeps (fun graph => ∃ history, graph.Traced describes cites history)
      (attachEach most span subjects properties) fun _ => True := by
  have pairs : ∀ pair ∈ subjects.flatMap fun subject => properties.map (subject, ·),
      pair.1 ∈ subjects ∧ nodes pair.2 ⊆ nodesAll properties := by
    intro pair inside
    rcases List.mem_flatMap.1 inside with ⟨subject, about, inside⟩
    rcases List.mem_map.1 inside with ⟨property, there, rfl⟩
    refine ⟨about, fun node deeper => ?_⟩
    rw [nodesAll_eq_flatMap]
    exact List.mem_flatMap_of_mem there deeper
  apply attachPairs_keeps here
  · intro pair inside
    exact ⟨subjectsNamed _ (pairs pair inside).1,
      fun node deeper => named node ((pairs pair inside).2 deeper)⟩
  · intro pair inside node deeper
    apply placed node ((pairs pair inside).2 _)
    rw [nodes_eq]
    exact List.mem_cons_of_mem _ deeper

theorem attachAt_built {blocks : List Block} {property : Property} {depth : Nat} {span : Span}
    (built : graph.Built blocks) (citable : Citable blocks subject)
    (named : ∀ node ∈ nodes property, node.Named) :
    ∃ more, (attachAt most depth span subject property graph).2.Built (blocks ++ more) := by
  rcases built.exists_traced with ⟨history, traced, rfl⟩
  have told : Told (fun _ => True) (fun _ => True) history span subject := citable.told span
  rcases attachAt_traced property depth span traced told named fun _ _ => trivial with ⟨more, after⟩
  exact ⟨more.map Prod.fst, List.map_append ▸ after.built⟩

end Property

end FactGraph
