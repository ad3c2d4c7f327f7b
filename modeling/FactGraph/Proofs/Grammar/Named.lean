import FactGraph.Proofs.Grammar.Closed
import FactGraph.Proofs.Graph.Intact
import FactGraph.Proofs.Token.Values

/-! Everything that a source can say about entities, it says with names, so that a run only makes
graphs out of blocks. -/

namespace FactGraph

def Meaning.Named : Meaning → Prop
  | .entities idents _ => ∀ ident ∈ idents, ident.IsNamed
  | .descriptor properties _ => ∀ node ∈ Property.nodesAll properties, node.Named
  | .assignment _ => True
  | .target _ _ => True

theorem Meaning.named_descriptor {properties : List Property} {span : Span} :
    (descriptor properties span).Named ↔
    ∀ property ∈ properties, ∀ node ∈ property.nodes, node.Named := by
  rw [Named, Property.nodesAll_eq_flatMap]
  exact List.forall_mem_flatMap

namespace Property

theorem named_plain {predicate object : Ident} (span : Span) (first : predicate.IsNamed)
    (second : object.IsNamed) :
    ∀ node ∈ nodes (plain predicate object span), node.Named := by
  intro node inside
  obtain rfl := List.mem_singleton.1 inside
  exact ⟨first, second, by simp⟩

section

variable {holds : Property → Prop} {property : Property}

/-- Of a property that is cited, only the citations are new. -/
theorem forall_nodes_citedBy {citations : List Property} (own : ∀ node ∈ nodes property, holds node)
    (root : holds (property.citedBy citations)) (more : ∀ node ∈ nodesAll citations, holds node) :
    ∀ node ∈ nodes (property.citedBy citations), holds node := by
  rw [nodes_eq] at own ⊢
  rcases List.forall_mem_cons.1 own with ⟨_, inner⟩
  refine List.forall_mem_cons.2 ⟨root, ?_⟩
  rw [citedBy, nodesAll_append]
  exact List.forall_mem_append.2 ⟨inner, more⟩

theorem forall_nodes_labelled {name : Ident} (own : ∀ node ∈ nodes property, holds node)
    (root : holds (property.labelled name)) :
    ∀ node ∈ nodes (property.labelled name), holds node := by
  rw [nodes_eq] at own ⊢
  exact List.forall_mem_cons.2 ⟨root, (List.forall_mem_cons.1 own).2⟩

end

theorem self_mem_nodes (property : Property) : property ∈ nodes property :=
  nodes_eq property ▸ List.mem_cons_self

theorem named_citedBy {property : Property} {citations : List Property}
    (own : ∀ node ∈ nodes property, node.Named) (more : ∀ node ∈ nodesAll citations, node.Named) :
    ∀ node ∈ nodes (property.citedBy citations), node.Named := by
  have root := own property property.self_mem_nodes
  exact forall_nodes_citedBy own ⟨root.predicate, root.object, root.label⟩ more

theorem named_labelled {property : Property} {name : Ident}
    (own : ∀ node ∈ nodes property, node.Named) (named : name.IsNamed) :
    ∀ node ∈ nodes (property.labelled name), node.Named := by
  have root := own property property.self_mem_nodes
  exact forall_nodes_labelled own ⟨root.predicate, root.object,
    fun label same => Option.some.inj same ▸ named⟩

end Property

theorem Graph.named_allocate (graph : Graph) (text : String) :
    (graph.allocate (some text)).1.IsNamed := by
  unfold allocate
  dsimp only
  split
  · exact .unique _
  · exact .user text

/-- A graph made of blocks, and variables with names in their values. -/
structure Builder.Sound (builder : Builder) : Prop where
  graph : ∃ blocks, builder.graph.Built blocks
  bindings : builder.Bound Meaning.Named

theorem Builder.sound_empty : Builder.empty.Sound where
  graph := ⟨[], .empty⟩
  bindings := Builder.bound_empty

def Token.Valued (token : Token) : Prop := token.value.isSome = token.kind.carriesName

namespace Grammar

theorem closed_named (citation : Nat) :
    Closed citation Builder.Sound Meaning.Named Token.Valued where
  allocated token valued kind := by
    intro builder sound
    constructor
    · rcases sound.graph with ⟨blocks, built⟩
      exact ⟨⟨blocks, built.allocate token.value⟩, sound.bindings⟩
    · intro ident same
      have present : token.value.isSome = true := by rw [valued, kind, Token.Kind.carriesName]
      rcases Option.isSome_iff_exists.1 present with ⟨text, written⟩
      have drawn : (builder.graph.allocate token.value).1 = ident := Except.ok.inj same
      subst drawn
      rw [written]
      exact List.forall_mem_singleton.2 (builder.graph.named_allocate text)
  target _ _ _ := trivial
  bound _ sound := sound.bindings
  joinedEntities first second := List.forall_mem_append.2 ⟨first, second⟩
  joinedProperties first second := by
    rw [Meaning.named_descriptor] at first second ⊢
    exact List.forall_mem_append.2 ⟨first, second⟩
  assigned name meaning place holds := by
    intro builder sound
    have kept : (Builder.onBindings (Bindings.define name meaning place) builder).2.Bound
        Meaning.Named :=
      (Bindings.define_keeps holds builder sound.bindings).1
    constructor
    · exact ⟨sound.graph, kept⟩
    · intro _ _
      trivial
  assignment _ _ _ := trivial
  crossed first second := by
    rw [Meaning.named_descriptor]
    intro property inside
    rcases List.mem_flatMap.1 inside with ⟨predicate, here, inside⟩
    rcases List.mem_map.1 inside with ⟨object, there, rfl⟩
    exact Property.named_plain _ (first predicate here) (second object there)
  attached token idents properties place other _ _ first second := by
    intro builder sound
    rcases sound.graph with ⟨blocks, built⟩
    rcases built.exists_traced with ⟨history, traced, _⟩
    have kept : ∃ history, Graph.Traced (fun _ => True) (fun _ => True) history
        (Property.attachEach citation token.span idents properties builder.graph).2 :=
      (Property.attachEach_keeps trivial first second (fun _ _ => trivial) builder.graph
        ⟨history, traced⟩).1
    rcases kept with ⟨more, after⟩
    constructor
    · exact ⟨⟨_, after.built⟩, sound.bindings⟩
    · intro _ _
      trivial
  cited first second := by
    rw [Meaning.named_descriptor] at first ⊢
    intro property inside
    rcases List.mem_map.1 inside with ⟨uncited, here, rfl⟩
    exact Property.named_citedBy (first uncited here) second
  labelled first second := by
    rw [Meaning.named_descriptor, List.forall_mem_singleton] at first ⊢
    exact Property.named_labelled first (second _ List.mem_cons_self)

end Grammar

namespace Compilation

theorem exists_built (source : String) (limits : Limits) :
    ∃ blocks, (parseFrom Builder.empty limits source).2.graph.Built blocks := by
  have valued : ∀ token, .ok token ∈ (Token.Cursor.ofSource source).tokens → token.Valued :=
    Token.Cursor.isSome_value_of_mem_tokens (Token.Cursor.ofSource source)
  have run :=
    Grammar.parseFrom_keeps (Grammar.closed_named limits.citation) valued Builder.sound_empty
  exact run.1.graph

/-- Identifiers are unique, each has its place, and the counters count. -/
theorem parseFrom_numbered (source : String) (limits : Limits) :
    (parseFrom Builder.empty limits source).2.graph.Numbered := by
  rcases exists_built source limits with ⟨blocks, built⟩
  exact built.numbered

/-- Parts follow their statements, and nothing is cited that has not been stated and reified
before. -/
theorem parseFrom_intact (source : String) (limits : Limits) :
    Intact (parseFrom Builder.empty limits source).2.graph.triples := by
  rcases exists_built source limits with ⟨blocks, built⟩
  exact built.intact

variable {source : String} {limits : Limits} {compilation : Compilation}

theorem graph_of_compiled (compiled : ofSource source limits = .ok compilation) :
    (parseFrom Builder.empty limits source).2.graph = compilation.graph := by
  unfold ofSource at compiled
  split at compiled
  · next run =>
    rw [run]
    exact congrArg graph (Except.ok.inj compiled)
  · contradiction

theorem exists_built_of_compiled (compiled : ofSource source limits = .ok compilation) :
    ∃ blocks, compilation.graph.Built blocks :=
  graph_of_compiled compiled ▸ exists_built source limits

end Compilation

end FactGraph
