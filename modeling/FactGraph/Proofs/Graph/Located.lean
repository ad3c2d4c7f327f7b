import FactGraph.Proofs.Graph.Attached
import FactGraph.Proofs.Graph.Intact
import FactGraph.Proofs.Graph.Ordered

namespace FactGraph

/-- There is no other place than one where entities are described or statements are cited. The parts
of a statement have its place. A statement about a numbered one stands where that is cited. Any
other statement stands where its subject, an entity, is described, or else where its subject, a
labelled statement made before, is cited. -/
structure Graph.Located (describes cites : Span → Prop) (graph : Graph) : Prop where
  places : ∀ entry ∈ graph.places, describes entry.2 ∨ cites entry.2
  parts : ∀ triple ∈ graph.triples, ∀ group role, triple.ident = .part group role →
    ∃ main span, main.ident.IsMain ∧
    Owns graph.triples main group ∧ triple = partOf main group role ∧
      graph.place? main.ident = some span ∧ graph.place? triple.ident = some span
  numbered :
      ∀ triple ∈ graph.triples, triple.ident.IsMain → ∀ number, triple.subject = .statement number →
    ∃ span, graph.place? triple.ident = some span ∧ cites span
  others (before after : List Triple) (triple : Triple) :
      graph.triples = before ++ triple :: after →
    triple.ident.IsMain → (∀ number, triple.subject ≠ .statement number) →
    ∃ span, graph.place? triple.ident = some span ∧
      (describes span ∧ triple.subject.IsNamed ∨
        cites span ∧ ∃ main group, main.ident = triple.subject ∧ main.ident.IsNamed ∧
          Owns before main group)

namespace Graph

theorem mem_places_pushAll {graph : Graph} {triples : List Triple} {span : Span}
    {entry : Ident × Span} (inside : entry ∈ (graph.pushAll triples span).places) :
    entry.2 = span ∨ entry ∈ graph.places := by
  induction triples generalizing graph with
  | nil => exact .inr inside
  | cons triple triples ih =>
    have pushed : entry ∈ ((graph.push triple span).pushAll triples span).places := inside
    rcases ih pushed with own | before
    · exact .inl own
    · exact (mem_of_mem_insertOrdered before).imp_left fun same => congrArg Prod.snd same

namespace Traced

variable {describes cites : Span → Prop} {history : List (Block × Span)} {graph : Graph}

theorem placed (traced : graph.Traced describes cites history) {entry : Block × Span}
    (inside : entry ∈ history) {triple : Triple} (made : triple ∈ entry.1.triples) :
    graph.place? triple.ident = some entry.2 := by
  induction traced with
  | empty => contradiction
  | allocate name _ ih => rw [place?, places_allocate, ← place?, ih inside]
  | @emit history graph span subject property before _ _ free ih =>
    have appended := appended_emit span subject before.built.distinct free
    rcases List.mem_append.1 inside with old | new
    · have known : graph.hasStatement triple.ident = true := by
        rw [hasStatement_eq_isSome_place?, ih old]
        rfl
      exact (appended.kept _ known).trans (ih old)
    · exact appended.placed entry new triple made

theorem places (traced : graph.Traced describes cites history) :
    ∀ entry ∈ graph.places, describes entry.2 ∨ cites entry.2 := by
  induction traced with
  | empty => exact List.forall_mem_nil _
  | allocate name _ ih => rwa [places_allocate]
  | emit _ told _ _ ih =>
    intro entry inside
    rcases mem_places_pushAll inside with same | before
    · exact same ▸ told.imp And.left And.left
    · exact ih entry before

theorem exists_place (traced : graph.Traced describes cites history) {before after : List Triple}
    {triple : Triple} (split : graph.triples = before ++ triple :: after)
    (main : triple.ident.IsMain) :
    ∃ early span, graph.place? triple.ident = some span ∧
    Told describes cites early span triple.subject ∧
      before = Property.triplesOf early := by
  have whole : graph.triples = Property.triplesOf history := by
    rw [traced.built.triples, List.flatMap_map]
    rfl
  rcases Block.exists_entry (whole.symm.trans split) main with ⟨early, entry, late, same, rfl, rfl⟩
  have inside : entry ∈ history := same ▸ List.mem_append_right _ List.mem_cons_self
  exact ⟨early, entry.2, traced.placed inside entry.1.main_mem, traced.told same, rfl⟩

theorem located (traced : graph.Traced describes cites history) :
    graph.Located describes cites where
  places := traced.places
  parts triple inside group role part := by
    rcases traced.built.exists_part inside part with ⟨block, made, grouped, rfl⟩
    rcases List.mem_map.1 made with ⟨entry, there, rfl⟩
    refine ⟨entry.1.main, entry.2, (traced.built.sound _ made).ident,
      traced.built.owns made grouped, rfl, ?_, ?_⟩
    · exact traced.placed there entry.1.main_mem
    · exact traced.placed there (Block.mem_triples.2 (.inr ⟨group, grouped, role, rfl⟩))
  numbered triple inside main number subject := by
    rcases List.append_of_mem inside with ⟨before, after, split⟩
    rcases traced.exists_place split main with ⟨early, span, place, ⟨_, named⟩ | ⟨cited, _⟩, _⟩
    · rw [subject] at named
      contradiction
    · exact ⟨span, place, cited⟩
  others before after triple split main other := by
    rcases traced.exists_place split main
      with ⟨early, span, place, described | ⟨cited, reified⟩, rfl⟩
    · exact ⟨span, place, .inl described⟩
    · rcases Block.exists_owns reified with ⟨owner, group, same, owns⟩
      have inside : triple ∈ graph.triples := split ▸ List.mem_append_right _ List.mem_cons_self
      have about : owner.ident.IsMain := same ▸ (traced.built.components inside main).1
      have named := about.named_of_ne fun number => same ▸ other number
      exact ⟨span, place, .inr ⟨cited, owner, group, same, named, owns⟩⟩

end Traced

end Graph

end FactGraph
