import FactGraph.Proofs.Grammar.Named
import FactGraph.Proofs.Graph.Extension
import FactGraph.Proofs.Precedence.Contract

namespace FactGraph

/-- All that has been built is still there, and variables have kept their values. -/
structure Builder.Extends (builder after : Builder) : Prop where
  graph : builder.graph.Extends after.graph
  bindings (name : String) (meaning : Meaning) :
    builder.bindings.lookup name = some meaning → after.bindings.lookup name = some meaning

namespace Builder.Extends

variable {builder middle after : Builder}

theorem refl (builder : Builder) : builder.Extends builder where
  graph := .refl _
  bindings _ _ known := known

theorem trans (first : builder.Extends middle) (second : middle.Extends after) :
    builder.Extends after where
  graph := first.graph.trans second.graph
  bindings name meaning known := second.bindings name meaning (first.bindings name meaning known)

theorem of_graph {graph : Graph} (extended : builder.graph.Extends graph) :
    builder.Extends { builder with graph } where
  graph := extended
  bindings _ _ known := known

theorem define (builder : Builder) (name : String) (meaning : Meaning) (place : Span) :
    builder.Extends (Builder.onBindings (Bindings.define name meaning place) builder).2 where
  graph := .refl _
  bindings other value known := by
    simp only [Builder.onBindings, Bindings.define]
    split
    · exact known
    · next undefined =>
      have apart : other ≠ name := by
        rintro rfl
        exact undefined (Option.isSome_of_eq_some known)
      rw [List.lookup_cons, beq_eq_false_iff_ne.2 apart]
      exact known

end Builder.Extends

namespace Grammar

/-- Every operation of the notation leaves what has been built so far, from any point of a run
on. -/
theorem closed_growing (citation : Nat) (start : Builder) :
    Closed citation (fun builder => builder.Sound ∧ start.Extends builder) Meaning.Named
      Token.Valued :=
  let named := closed_named citation
  have trans (first second third : Builder) : first.Extends second → second.Extends third →
      first.Extends third :=
    .trans
  { named with
    allocated := by
      intro token valued kind
      apply (named.allocated token valued kind).along trans
      intro builder _
      exact .of_graph (builder.graph.allocate_extends token.value)
    bound := by
      intro builder sound
      exact named.bound builder sound.1
    assigned := by
      intro name meaning place holds
      apply (named.assigned name place holds).along trans
      intro builder _
      exact .define builder name meaning place
    attached := by
      intro token idents properties place other valued kind first second
      apply (named.attached token valued kind first second).along trans
      intro builder sound
      rcases sound.graph with ⟨blocks, built⟩
      apply Builder.Extends.of_graph
      apply Property.attachPairs_extends built
      intro pair inside
      rcases List.mem_flatMap.1 inside with ⟨subject, here, inside⟩
      rcases List.mem_map.1 inside with ⟨property, there, rfl⟩
      exact ⟨first subject here, Meaning.named_descriptor.1 second property there⟩ }

theorem symbols_grow (citation : Nat) :
    (symbols citation).Grow Builder.Sound Builder.Extends Meaning.Named Token.Valued where
  refl := .refl
  trans _ _ _ := .trans
  keep start := (closed_growing citation start).symbols_keep

end Grammar

theorem Builder.Sound.ofSource {builder : Builder} (sound : builder.Sound) (source : String) :
    (Precedence.Reader.ofSource source builder).Sound Builder.Sound Token.Valued where
  state := sound
  current := nofun
  pending := Token.Cursor.isSome_value_of_mem_tokens (Token.Cursor.ofSource source)

theorem Compilation.sound_ofSource (source : String) :
    (Precedence.Reader.ofSource source Builder.empty).Sound Builder.Sound Token.Valued :=
  Builder.sound_empty.ofSource source

end FactGraph
