import FactGraph.Proofs.Grammar.Named
import FactGraph.Proofs.Graph.Located

namespace FactGraph

def Token.Stands (source : String) (kind : Token.Kind) (span : Span) : Prop :=
  ∃ token, .ok token ∈ (Cursor.ofSource source).tokens ∧ token.kind = kind ∧ token.span = span

theorem Token.stands_of_mem_tokens (source : String) (token : Token)
    (inside : .ok token ∈ (Cursor.ofSource source).tokens) :
    token.Valued ∧ Stands source token.kind token.span :=
  ⟨Cursor.isSome_value_of_mem_tokens _ token inside, token, inside, rfl, rfl⟩

variable {stands : Token.Kind → Span → Prop}

/-- Entities and properties are written where identifiers stand, and the others where their tokens
do. -/
def Meaning.Placed (stands : Token.Kind → Span → Prop) : Meaning → Prop
  | .entities _ span => stands .identifier span
  | .descriptor properties span =>
      stands .identifier span ∧ ∀ node ∈ Property.nodesAll properties, stands .identifier node.span
  | .assignment span => stands .assign span
  | .target _ span => stands .target span

theorem Meaning.Placed.exists_stands {meaning : Meaning} (placed : meaning.Placed stands) :
    ∃ kind, stands kind meaning.span := by
  cases meaning with
  | entities => exact ⟨_, placed⟩
  | descriptor => exact ⟨_, placed.1⟩
  | assignment => exact ⟨_, placed⟩
  | target => exact ⟨_, placed⟩

structure Meaning.Sited (stands : Token.Kind → Span → Prop) (meaning : Meaning) : Prop where
  named : meaning.Named
  placed : meaning.Placed stands

/-- Entities are described at arrows, statements are cited at identifiers, and the values of
variables are written where tokens stand. -/
structure Builder.Sited (stands : Token.Kind → Span → Prop) (builder : Builder) : Prop where
  graph : ∃ history, builder.graph.Traced (stands .arrow) (stands .identifier) history
  bindings : builder.Bound (Meaning.Sited stands)

namespace Builder

theorem sited_empty : empty.Sited stands := ⟨⟨[], .empty⟩, bound_empty⟩

theorem Sited.sound {builder : Builder} (sited : builder.Sited stands) : builder.Sound where
  graph := sited.graph.elim fun _ traced => ⟨_, traced.built⟩
  bindings entry inside := (sited.bindings entry inside).named

end Builder

namespace Grammar

theorem span_of_mem_crossProduct {predicates objects : List Ident} {span : Span} :
    ∀ node ∈ Property.nodesAll (crossProduct predicates objects span), node.span = span := by
  intro node inside
  rw [Property.nodesAll_eq_flatMap, List.mem_flatMap] at inside
  rcases inside with ⟨property, crossed, within⟩
  rcases List.mem_flatMap.1 crossed with ⟨predicate, _, crossed⟩
  rcases List.mem_map.1 crossed with ⟨object, _, rfl⟩
  exact congrArg Property.span (List.mem_singleton.1 within)

theorem closed_sited (citation : Nat) (stands : Token.Kind → Span → Prop) :
    Closed citation (Builder.Sited stands) (Meaning.Sited stands)
      fun token => token.Valued ∧ stands token.kind token.span :=
  let named := closed_named citation
  have written {token : Token} {kind : Token.Kind} (here : stands token.kind token.span)
      (same : token.kind = kind) :
      stands kind token.span := same ▸ here
  { allocated := by
      rintro token ⟨valued, here⟩ kind builder sited
      rcases sited.graph with ⟨history, traced⟩
      refine ⟨⟨⟨history, traced.allocate token.value⟩, sited.bindings⟩, ?_⟩
      intro ident drawn
      exact ⟨(named.allocated token valued kind builder sited.sound).2 ident drawn,
        written here kind⟩
    target := fun token here kind => ⟨trivial, written here.2 kind⟩
    bound := fun _ sited => sited.bindings
    joinedEntities :=
    fun first second => ⟨named.joinedEntities first.named second.named, first.placed⟩
    joinedProperties := by
      intro properties more place other first second
      refine ⟨named.joinedProperties first.named second.named, first.placed.1, ?_⟩
      rw [Property.nodesAll_append]
      exact List.forall_mem_append.2 ⟨first.placed.2, second.placed.2⟩
    assigned := by
      intro name meaning place holds builder sited
      exact ⟨⟨sited.graph, (Bindings.define_keeps holds builder sited.bindings).1⟩,
        fun _ _ => trivial⟩
    assignment := fun token here kind => ⟨trivial, written here.2 kind⟩
    crossed := by
      intro predicates objects place other first second
      refine ⟨named.crossed first.named second.named, first.placed, ?_⟩
      intro node inside
      exact span_of_mem_crossProduct node inside ▸ first.placed
    attached := by
      rintro token idents properties place other ⟨_, here⟩ kind first second builder sited
      have kept : ∃ history, Graph.Traced (stands .arrow) (stands .identifier) history
          (Property.attachEach citation token.span idents properties builder.graph).2 :=
        (Property.attachEach_keeps (written here kind) first.named second.named
          second.placed.2 builder.graph sited.graph).1
      exact ⟨⟨kept, sited.bindings⟩, fun _ _ => trivial⟩
    cited := by
      intro properties citations place other first second
      refine ⟨named.cited first.named second.named, first.placed.1, ?_⟩
      have own := first.placed.2
      rw [Property.nodesAll_eq_flatMap, List.forall_mem_flatMap] at own ⊢
      intro property inside
      rcases List.mem_map.1 inside with ⟨uncited, here, rfl⟩
      have root := own uncited here uncited uncited.self_mem_nodes
      exact Property.forall_nodes_citedBy (own uncited here) root second.placed.2
    labelled := by
      intro property name place other first second
      refine ⟨named.labelled first.named second.named, first.placed.1, ?_⟩
      have own := first.placed.2
      rw [Property.nodesAll_eq_flatMap, List.flatMap_singleton] at own ⊢
      exact Property.forall_nodes_labelled own (own property property.self_mem_nodes) }

end Grammar

namespace Compilation

theorem parseFrom_sited (source : String) (limits : Limits) :
    (parseFrom Builder.empty limits source).2.Sited (Token.Stands source) :=
  (Grammar.parseFrom_keeps (Grammar.closed_sited limits.citation _)
    (Token.stands_of_mem_tokens source) Builder.sited_empty).1

/-- Wherever the run ends, also with a fault: statements stand at the arrows that attach them or at
the identifiers that cite them, and their parts with them. -/
theorem parseFrom_located (source : String) (limits : Limits) :
    (parseFrom Builder.empty limits source).2.graph.Located (Token.Stands source .arrow)
      (Token.Stands source .identifier) := by
  rcases (parseFrom_sited source limits).graph with ⟨history, traced⟩
  exact traced.located

/-- What describes `a` stands at the first arrow, and what cites that stands where its predicate is
written. -/
example : let graph := (parseFrom Builder.empty .standard "a => (b:c => d:e)").2.graph
    graph.place? (.statement 0) = some ⟨2, 4, 1, 3⟩ ∧
    graph.place? (.statement 1) = some ⟨13, 14, 1, 14⟩ := by
  decide +kernel

end Compilation

end FactGraph
