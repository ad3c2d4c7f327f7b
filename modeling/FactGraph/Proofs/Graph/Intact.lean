import FactGraph.Proofs.Graph.Numbered

namespace FactGraph

inductive Ident.IsMain : Ident → Prop
  | named {ident : Ident} (named : ident.IsNamed) : IsMain ident
  | statement (number : Nat) : IsMain (.statement number)

theorem Ident.not_isMain_part (group : Nat) (role : Role) : ¬ (part group role).IsMain := by
  intro main
  cases main with
  | named named => contradiction

theorem Ident.IsMain.ne_auto {ident : Ident} (main : ident.IsMain) (number : Nat) :
    ident ≠ .auto number := by
  intro same
  subst same
  cases main with
  | named named => contradiction

theorem Ident.IsMain.named_of_ne {ident : Ident} (main : ident.IsMain)
    (other : ∀ number, ident ≠ .statement number) :
    ident.IsNamed := by
  cases main with
  | named named => exact named
  | statement number => exact absurd rfl (other number)

theorem Ident.IsNamed.ne_reification {ident : Ident} (named : ident.IsNamed) (role : Role) :
    ident ≠ .reification role := by
  intro same
  subst same
  contradiction

/-- A statement stands in the list with its parts directly after it, in the order of roles. -/
def Owns (triples : List Triple) (main : Triple) (group : Nat) : Prop :=
  main :: Role.all.map (Graph.partOf main group) <:+: triples

theorem Owns.part_mem {triples : List Triple} {main : Triple} {group : Nat}
    (owns : Owns triples main group) (role : Role) : Graph.partOf main group role ∈ triples :=
  owns.subset (List.mem_cons_of_mem _ (List.mem_map_of_mem (Role.mem_all role)))

/-- Every statement is a main one or a part. Parts belong to one main statement, which has at most
one group of them. Main statements are about named entities, or about statements that were made and
reified before them. -/
structure Intact (triples : List Triple) : Prop where
  kinds : ∀ triple ∈ triples, triple.ident.IsMain ∨ ∃ group role, triple.ident = .part group role
  owned : ∀ triple ∈ triples, ∀ group role, triple.ident = .part group role →
    ∃ main, main.ident.IsMain ∧ Owns triples main group ∧ triple = Graph.partOf main group role
  gathered (main : Triple) (group : Nat) : Owns triples main group →
    ∀ triple ∈ triples, ∀ role, triple.ident = .part group role →
    triple = Graph.partOf main group role
  single (first second : Triple) (group other : Nat) : Owns triples first group →
    Owns triples second other → first.ident = second.ident → group = other
  components : ∀ triple ∈ triples, triple.ident.IsMain →
    triple.subject.IsMain ∧ triple.predicate.IsNamed ∧ triple.object.IsNamed
  cited (before after : List Triple) (triple : Triple) (number : Nat) :
    triples = before ++ triple :: after → triple.ident.IsMain → triple.subject = .statement number →
      ∃ main group, main.ident = .statement number ∧ Owns before main group
  named : ∀ triple ∈ triples, ∀ number,
    Ident.auto number ∉ [triple.ident, triple.subject, triple.predicate, triple.object]
  reifying : ∀ triple ∈ triples, ∀ role, triple.predicate = .reification role →
    ∃ group, triple.ident = .part group role

/-- What a block says is named, and it is about an entity or a statement that is not a part. -/
structure Block.Sound (block : Block) : Prop where
  ident : block.main.ident.IsMain
  subject : block.main.subject.IsMain
  predicate : block.main.predicate.IsNamed
  object : block.main.object.IsNamed

namespace Block

theorem owns {blocks : List Block} {block : Block} {group : Nat} (made : block ∈ blocks)
    (grouped : group ∈ block.group) :
    Owns (blocks.flatMap triples) block.main group := by
  have whole : block.main :: Role.all.map (Graph.partOf block.main group) = block.triples := by
    rcases block with ⟨main, _ | other⟩
    · contradiction
    · rw [triples, parts_reified, Option.some.inj grouped]
  rw [Owns, whole, List.flatMap_def]
  exact List.infix_of_mem_flatten (List.mem_map_of_mem made)

theorem exists_owns {history : List (Block × Span)} {ident : Ident}
    (reified : ∃ entry ∈ history, entry.1.main.ident = ident ∧ entry.1.group.isSome) :
    ∃ main group, main.ident = ident ∧ Owns (Property.triplesOf history) main group := by
  rcases reified with ⟨entry, inside, same, grouped⟩
  rcases Option.isSome_iff_exists.1 grouped with ⟨group, known⟩
  refine ⟨entry.1.main, group, same, ?_⟩
  have owns := Block.owns (List.mem_map_of_mem (f := Prod.fst) inside) known
  rwa [List.flatMap_map] at owns

/-- A main statement begins its block, behind the blocks that have been made before. -/
theorem exists_entry {history : List (Block × Span)} {before after : List Triple} {triple : Triple}
    (split : Property.triplesOf history = before ++ triple :: after) (main : triple.ident.IsMain) :
    ∃ early entry late, history = early ++ entry :: late ∧ triple = entry.1.main ∧
      before = Property.triplesOf early := by
  induction history generalizing before with
  | nil => simp [Property.triplesOf] at split
  | cons entry rest ih =>
    have later (start : List Triple) (others : Property.triplesOf rest = start ++ triple :: after) :
        ∃ early found late, entry :: rest = early ++ found :: late ∧ triple = found.1.main ∧
          entry.1.triples ++ start = Property.triplesOf early := by
      rcases ih others with ⟨early, found, late, rfl, same, rfl⟩
      exact ⟨entry :: early, found, late, rfl, same, rfl⟩
    rw [Property.triplesOf, List.flatMap_cons, List.append_eq_append_iff] at split
    rcases split with ⟨start, rfl, others⟩ | ⟨start, own, others⟩
    · exact later start others
    · rcases List.cons_eq_append_iff.1 others with ⟨rfl, others⟩ | ⟨start, rfl, others⟩
      · obtain rfl : entry.1.triples = before := by simpa using own
        simpa using later [] others.symm
      · rcases List.cons_eq_append_iff.1 own with ⟨rfl, same⟩ | ⟨first, rfl, same⟩
        · exact ⟨[], entry, rest, rfl, (List.cons.inj same).1, rfl⟩
        · have part : triple ∈ entry.1.parts := same ▸ List.mem_append_right _ List.mem_cons_self
          rcases List.mem_flatMap.1 part with ⟨group, _, part⟩
          rcases List.mem_map.1 part with ⟨role, _, rfl⟩
          exact absurd main (Ident.not_isMain_part group role)

end Block

namespace Graph.Built

variable {graph : Graph} {blocks : List Block}

theorem sound (built : Built blocks graph) : ∀ block ∈ blocks, block.Sound := by
  induction built with
  | empty => exact List.forall_mem_nil _
  | allocate _ _ ih => exact ih
  | @emit blocks graph span subject property _ citable named free ih =>
    refine List.forall_mem_append.2 ⟨ih,
      List.forall_mem_singleton.2 ⟨?_, ?_, named.predicate, named.object⟩⟩
    · rcases Property.ident_block_cases graph.nextStatement graph.nextGroup subject free.named with
        labelled | ⟨numbered, _⟩
      · exact .named labelled
      · rw [numbered]
        exact .statement _
    · rcases citable with entity | ⟨block, inside, rfl, _⟩
      · exact .named entity
      · exact (ih block inside).ident

theorem block_unique (built : Built blocks graph) {first second : Block} {ident : Ident}
    (here : first ∈ blocks) (there : second ∈ blocks) (made : ident ∈ first.triples.map (·.ident))
    (also : ident ∈ second.triples.map (·.ident)) : first = second := by
  induction built with
  | empty => contradiction
  | allocate _ _ ih => exact ih here there
  | @emit blocks graph span subject property built _ _ free ih =>
    have apart {old : Block} (before : old ∈ blocks) (inside : ident ∈ old.triples.map (·.ident)) :
        ident ∉ (property.block graph.nextStatement graph.nextGroup subject).triples.map
          (·.ident) := by
      intro new
      have known : graph.hasStatement ident = true := by
        rw [built.distinct.placed, built.triples, List.map_flatMap]
        exact List.mem_flatMap_of_mem before inside
      rw [built.distinct.fresh free new] at known
      contradiction
    rcases List.mem_append.1 here with old | new <;> rcases List.mem_append.1 there with old' | new'
    · exact ih old old'
    · obtain rfl := List.mem_singleton.1 new'
      exact absurd also (apart old made)
    · obtain rfl := List.mem_singleton.1 new
      exact absurd made (apart old' also)
    · exact (List.mem_singleton.1 new).trans (List.mem_singleton.1 new').symm

theorem exists_main (built : Built blocks graph) {triple : Triple} (inside : triple ∈ graph.triples)
    (main : triple.ident.IsMain) : ∃ block ∈ blocks, triple = block.main := by
  rw [built.triples] at inside
  rcases List.mem_flatMap.1 inside with ⟨block, made, inside⟩
  rcases Block.mem_triples.1 inside with same | ⟨group, _, role, rfl⟩
  · exact ⟨block, made, same⟩
  · exact absurd main (Ident.not_isMain_part group role)

theorem exists_part (built : Built blocks graph) {triple : Triple} {group : Nat} {role : Role}
    (inside : triple ∈ graph.triples) (part : triple.ident = .part group role) :
    ∃ block ∈ blocks, group ∈ block.group ∧ triple = partOf block.main group role := by
  rw [built.triples] at inside
  rcases List.mem_flatMap.1 inside with ⟨block, made, inside⟩
  rcases Block.mem_triples.1 inside with rfl | ⟨other, grouped, role', rfl⟩
  · have main := (built.sound block made).ident
    rw [part] at main
    exact absurd main (Ident.not_isMain_part group role)
  · rcases Ident.part.inj part with ⟨rfl, rfl⟩
    exact ⟨block, made, grouped, rfl⟩

theorem owns (built : Built blocks graph) {block : Block} {group : Nat} (made : block ∈ blocks)
    (grouped : group ∈ block.group) : Owns graph.triples block.main group :=
  built.triples ▸ Block.owns made grouped

theorem single (built : Built blocks graph) {first second : Triple} {group other : Nat}
    (here : Owns graph.triples first group) (there : Owns graph.triples second other)
    (same : first.ident = second.ident) : group = other := by
  rcases built.exists_part (here.part_mem .subject) rfl with ⟨block, made, grouped, part⟩
  rcases built.exists_part (there.part_mem .subject) rfl with ⟨block', made', grouped', part'⟩
  have subject : first.ident = block.main.ident := congrArg Triple.subject part
  have subject' : second.ident = block'.main.ident := congrArg Triple.subject part'
  have main : block.main.ident ∈ block.triples.map (·.ident) := List.mem_map_of_mem block.main_mem
  have main' : block.main.ident ∈ block'.triples.map (·.ident) := by
    rw [← subject, same, subject']
    exact List.mem_map_of_mem block'.main_mem
  obtain rfl := built.block_unique made made' main main'
  exact Option.mem_unique grouped grouped'

/-- Cited statements are made and reified before those that cite them. -/
theorem cited (built : Built blocks graph) (before after : List Triple) (triple : Triple)
    (number : Nat) (split : graph.triples = before ++ triple :: after) (main : triple.ident.IsMain)
    (subject : triple.subject = .statement number) :
    ∃ main group, main.ident = .statement number ∧ Owns before main group := by
  rcases built.exists_traced with ⟨history, traced, rfl⟩
  rw [built.triples, List.flatMap_map] at split
  rcases Block.exists_entry split main with ⟨early, entry, late, rfl, rfl, rfl⟩
  rcases traced.told rfl with ⟨_, named⟩ | ⟨_, cited⟩
  · rw [subject] at named
    contradiction
  · rw [subject] at cited
    exact Block.exists_owns cited

theorem owned (built : Built blocks graph) {triple : Triple} {group : Nat} {role : Role}
    (inside : triple ∈ graph.triples) (part : triple.ident = .part group role) :
    ∃ main, main.ident.IsMain ∧
    Owns graph.triples main group ∧ triple = partOf main group role := by
  rcases built.exists_part inside part with ⟨block, made, grouped, same⟩
  exact ⟨block.main, (built.sound block made).ident, built.owns made grouped, same⟩

theorem kinds (built : Built blocks graph) {triple : Triple} (inside : triple ∈ graph.triples) :
    triple.ident.IsMain ∨ ∃ group role, triple.ident = .part group role := by
  rw [built.triples] at inside
  rcases List.mem_flatMap.1 inside with ⟨block, made, inside⟩
  rcases Block.mem_triples.1 inside with rfl | ⟨group, _, role, rfl⟩
  · exact .inl (built.sound block made).ident
  · exact .inr ⟨group, role, rfl⟩

theorem components (built : Built blocks graph) {triple : Triple} (inside : triple ∈ graph.triples)
    (main : triple.ident.IsMain) :
    triple.subject.IsMain ∧ triple.predicate.IsNamed ∧ triple.object.IsNamed := by
  rcases built.exists_main inside main with ⟨block, made, rfl⟩
  have sound := built.sound block made
  exact ⟨sound.subject, sound.predicate, sound.object⟩

theorem reifying (built : Built blocks graph) {triple : Triple} {role : Role}
    (inside : triple ∈ graph.triples) (reification : triple.predicate = .reification role) :
    ∃ group, triple.ident = .part group role := by
  rcases built.kinds inside with main | ⟨group, other, part⟩
  · exact absurd reification ((built.components inside main).2.1.ne_reification role)
  · rcases built.owned inside part with ⟨main, _, _, rfl⟩
    obtain rfl : other = role := Ident.reification.inj reification
    exact ⟨group, rfl⟩

theorem ne_auto (built : Built blocks graph) {triple : Triple} (inside : triple ∈ graph.triples)
    (number : Nat) :
    Ident.auto number ∉ [triple.ident, triple.subject, triple.predicate, triple.object] := by
  have mains {main : Triple} (there : main ∈ graph.triples) (kind : main.ident.IsMain)
      (role : Role) :
      main.component role ≠ .auto number := by
    rcases built.components there kind with ⟨subject, predicate, object⟩
    cases role with
    | subject => exact subject.ne_auto number
    | predicate => exact Ident.IsMain.ne_auto (.named predicate) number
    | object => exact Ident.IsMain.ne_auto (.named object) number
  rcases built.kinds inside with kind | ⟨group, role, part⟩
  · have ident := kind.ne_auto number
    have subject := mains inside kind .subject
    have predicate := mains inside kind .predicate
    have object := mains inside kind .object
    simp only [Triple.component] at subject predicate object
    simp [ident.symm, subject.symm, predicate.symm, object.symm]
  · rcases built.owned inside part with ⟨main, kind, owns, rfl⟩
    have there : main ∈ graph.triples := owns.subset List.mem_cons_self
    have ident := kind.ne_auto number
    have object := mains there kind role
    simp [partOf, ident.symm, object.symm]

theorem intact (built : Built blocks graph) : Intact graph.triples where
  kinds _ inside := built.kinds inside
  owned _ inside _ _ part := built.owned inside part
  gathered _ _ owns _ inside role part :=
    List.inj_on_of_nodup_map built.distinct.idents inside (owns.part_mem role) part
  single _ _ _ _ here there same := built.single here there same
  components _ inside main := built.components inside main
  cited := built.cited
  named _ inside number := built.ne_auto inside number
  reifying _ inside _ reification := built.reifying inside reification

end Graph.Built

end FactGraph
