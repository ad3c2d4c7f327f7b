import FactGraph.Proofs.Grammar.Failing
import FactGraph.Proofs.Graph.Levels
import FactGraph.Proofs.Graph.Stated

/-! Nothing that an expression stands for is empty. Entities are at least one, and a descriptor has
properties on every level of citations, so that a `=>` always states something, or cites with
something. -/

namespace FactGraph

open Precedence

/-- At least one entity, or at least one property on each level of citations, as far as these go. -/
def Meaning.Filled : Meaning → Prop
  | .entities idents _ => idents ≠ []
  | .descriptor properties _ => ∃ lowest, Property.Reach lowest properties
  | .assignment _ | .target _ _ => True

theorem Meaning.filled_descriptor {properties : List Property} {span : Span} :
    (descriptor properties span).Filled ↔ properties ≠ [] :=
  ⟨fun reach => reach.elim fun _ => Property.Reach.ne_nil, Property.exists_reach⟩

/-- A label that is refused for a number has been given several things, and not none. -/
def Fault.CountsSeveral : Fault → Prop
  | .labelTarget count _ | .labelSource count _ => 2 ≤ count
  | _ => True

namespace Grammar

variable {citation nesting room : Nat} {token : Token} {place : Span}
  {reader reached : Reader Builder} {value : Option Meaning} {fault : Fault}

theorem crossProduct_ne_nil {predicates objects : List Ident} (span : Span)
    (first : predicates ≠ []) (second : objects ≠ []) :
    crossProduct predicates objects span ≠ [] := by
  obtain ⟨predicate, others, rfl⟩ := List.exists_cons_of_ne_nil first
  rw [crossProduct, List.flatMap_cons]
  exact List.append_ne_nil_of_left_ne_nil (mt List.map_eq_nil_iff.1 second) _

theorem closed_filled (citation : Nat) :
    Closed citation (Builder.Bound Meaning.Filled) Meaning.Filled fun _ => True where
  allocated token _ _ := by
    intro builder bound
    exact ⟨bound, fun ident _ => List.cons_ne_nil ident []⟩
  target _ _ _ := trivial
  bound _ bound := bound
  joinedEntities first _ := List.append_ne_nil_of_left_ne_nil first _
  joinedProperties first _ := by
    rw [Meaning.filled_descriptor] at first ⊢
    exact List.append_ne_nil_of_left_ne_nil first _
  assigned _ _ _ holds := Bindings.define_keeps holds
  assignment _ _ _ := trivial
  crossed first second := Meaning.filled_descriptor.2 (crossProduct_ne_nil _ first second)
  attached _ _ _ _ _ _ _ _ _ := Builder.onGraph_keeps_bound _
  cited first _ := by
    rw [Meaning.filled_descriptor] at first ⊢
    exact mt List.map_eq_nil_iff.1 first
  labelled _ _ := Meaning.filled_descriptor.2 (List.cons_ne_nil _ _)

theorem exists_read_of_needProperties {operand : Nat → Attempt (Reader Builder) (Option Meaning)}
    {context : String} {span : Span} {next : List Property → Step (Option Meaning)}
    (ended : Reader.run (symbols citation) operand (do
      let right ← Action.expression Power.describing
      let properties ← needProperties context span right
      next properties) reader = (.ok value, reached)) :
    ∃ properties other after, operand Power.describing reader =
      (.ok (some (.descriptor properties other)), after) ∧
      Reader.run (symbols citation) operand (next properties) after = (.ok value, reached) := by
  obtain ⟨right, after, read, rest⟩ := Attempt.exists_of_bind_ok ended
  rcases right with _ | entities | ⟨properties, other⟩ | assignment | target
  · cases rest
  · cases rest
  · exact ⟨properties, other, after, read, rest⟩
  · cases rest
  · cases rest

theorem description_of_entities {idents : List Ident}
    (ended : Stage.ending (symbols citation) nesting
        ⟨.action room (description citation token (some (.entities idents place))), reader⟩ =
      (.ok value, reached)) :
    ∃ properties other after,
      Stage.ending (symbols citation) nesting ⟨.expression room Power.describing, reader⟩ =
        (.ok (some (.descriptor properties other)), after) ∧
      value = some (.entities idents place) ∧
      Property.attachEach citation token.span idents properties after.state.graph =
        (.ok (), reached.state.graph) := by
  obtain ⟨properties, other, after, read, rest⟩ := exists_read_of_needProperties ended
  rw [Reader.run_bind] at rest
  obtain ⟨_, middle, performed, answered⟩ := Attempt.exists_of_bind_ok rest
  rw [Reader.run_perform_apply] at performed
  obtain ⟨attached, rfl⟩ := Prod.mk.inj performed
  obtain ⟨answer, rfl⟩ := Prod.mk.inj answered
  exact ⟨properties, other, after, read, (Except.ok.inj answer).symm, Prod.ext attached rfl⟩

theorem description_of_descriptor {properties : List Property}
    (ended : Stage.ending (symbols citation) nesting
        ⟨.action room (description citation token (some (.descriptor properties place))), reader⟩ =
      (.ok value, reached)) :
    ∃ citations other,
      Stage.ending (symbols citation) nesting ⟨.expression room Power.describing, reader⟩ =
        (.ok (some (.descriptor citations other)), reached) ∧
      value = some (.descriptor (properties.map (·.citedBy citations)) place) := by
  obtain ⟨citations, other, after, read, rest⟩ := exists_read_of_needProperties ended
  obtain ⟨answer, rfl⟩ := Prod.mk.inj rest
  exact ⟨citations, other, read, (Except.ok.inj answer).symm⟩

theorem unexpected_countsSeveral (context : String) (expected : List String)
    (found : Option Meaning) (span : Span) :
    (unexpected context expected found span).CountsSeveral := by
  cases found <;> trivial

theorem Refusal.countsSeveral {inv : Builder → Prop} {there : Token → Prop}
    (refusal : Refusal citation inv Meaning.Filled there fault) : fault.CountsSeveral := by
  cases refusal with
  | unexpected => exact unexpected_countsSeveral _ _ _ _
  | undefined | redefined => trivial
  | labelTarget _ holds counted =>
    have some_properties := List.length_pos_iff.2 (Meaning.filled_descriptor.1 holds)
    exact (Nat.two_le_iff _).2 ⟨some_properties.ne', counted⟩
  | labelSource _ holds counted =>
    have some_names := List.length_pos_iff.2 holds
    exact (Nat.two_le_iff _).2 ⟨some_names.ne', counted⟩
  | attached _ _ _ _ failed =>
    obtain ⟨_, _, refused, _⟩ := Property.exists_refused_of_attachEach failed
    cases refused <;> trivial

end Grammar

namespace Compilation

variable {source : String} {limits : Limits} {fault : Fault} {stage : Stage Builder Meaning}

theorem sound_of_meets
    (meets : (Reader.ofSource source Builder.empty).Meets (Grammar.symbols limits.citation)
      limits.nesting stage) :
    stage.Sound (Builder.Bound Meaning.Filled) Meaning.Filled fun _ => True :=
  meets.sound (Grammar.closed_filled limits.citation).symbols_keep
    ⟨Builder.bound_empty, nofun, fun _ _ => trivial⟩

theorem filled_of_meets {value : Option Meaning} {reached : Reader Builder}
    (meets : (Reader.ofSource source Builder.empty).Meets (Grammar.symbols limits.citation)
      limits.nesting stage)
    (ended : stage.ending (Grammar.symbols limits.citation) limits.nesting = (.ok value, reached)) :
    Each Meaning.Filled value :=
  ((sound_of_meets meets).ends (Grammar.closed_filled limits.citation).symbols_keep ended).2

theorem countsSeveral_of_ofSource (failed : ofSource source limits = .error fault) :
    fault.CountsSeveral := by
  have raised :=
    Grammar.parseFrom_raised (Grammar.closed_filled limits.citation) (fun _ _ => trivial)
    Builder.bound_empty (parseFrom_of_ofSource failed)
  cases raised with
  | unread pending =>
    obtain ⟨_, _, _, _, _, _, rfl⟩ := pending
    trivial
  | pastEnd | mismatch | unopened | unfollowed | limit => trivial
  | refused owned => exact owned.countsSeveral

/-- Nothing is empty that a run over a source comes to, whatever it has to do there: the variables
have values that are filled before it and after it, and the answer is filled if there is one. So are
the answers of the whole run, and what the variables have at its end. A `=>` behind entities reads
some properties and states each of them about each of the entities, which is at least one statement.
A `=>` behind a descriptor reads some properties that cite each of its own, and builds one level on
top of theirs. A label that is refused for a number of properties or names has been given two or
more. -/
theorem parseFrom_filled (source : String) (limits : Limits) :
    let symbols := Grammar.symbols limits.citation
    let comesTo := (Reader.ofSource source Builder.empty).Meets symbols limits.nesting
    (∀ stage, comesTo stage → stage.start.state.Bound Meaning.Filled ∧
      (stage.ending symbols limits.nesting).2.state.Bound Meaning.Filled ∧
      ∀ value, (stage.ending symbols limits.nesting).1 = .ok value → Each Meaning.Filled value) ∧
    ((parseFrom Builder.empty limits source).2.Bound Meaning.Filled ∧
      ∀ meanings, (parseFrom Builder.empty limits source).1 = .ok meanings →
      ∀ meaning ∈ meanings, meaning.Filled) ∧
    (∀ room token idents place reader value reached,
      let call : Stage Builder Meaning :=
        ⟨.action room (Grammar.description limits.citation token (some (.entities idents place))),
          reader⟩
      comesTo call → call.ending symbols limits.nesting = (.ok value, reached) →
      ∃ properties other after stated,
        Stage.ending symbols limits.nesting ⟨.expression room Grammar.Power.describing, reader⟩ =
          (.ok (some (.descriptor properties other)), after) ∧
        reached.state.graph.triples = after.state.graph.triples ++ stated ∧ stated ≠ [] ∧
        ∀ subject ∈ idents, ∀ property ∈ properties, ∃ triple ∈ stated,
          property.States subject triple) ∧
    (∀ room token properties place reader value reached,
      let call : Stage Builder Meaning :=
        ⟨.action room (Grammar.description limits.citation token
          (some (.descriptor properties place))), reader⟩
      comesTo call → call.ending symbols limits.nesting = (.ok value, reached) →
      ∃ citations other cited upper lower,
        Stage.ending symbols limits.nesting ⟨.expression room Grammar.Power.describing, reader⟩ =
          (.ok (some (.descriptor citations other)), reached) ∧
        value = some (.descriptor cited place) ∧ cited = properties.map (·.citedBy citations) ∧
        (∀ property ∈ cited, property.citations ≠ []) ∧
        Property.Reach upper properties ∧ Property.Reach lower citations ∧
        Property.Reach (max upper (lower + 1)) cited) ∧
    ∀ count place, ofSource source limits = .error (.labelTarget count place) ∨
      ofSource source limits = .error (.labelSource count place) → 2 ≤ count := by
  intro symbols comesTo
  have keep := (Grammar.closed_filled limits.citation).symbols_keep
  refine ⟨?_, ?_, ?_, ?_, ?_⟩
  · intro stage meets
    have sound := sound_of_meets meets
    have kept := sound.keeps keep limits.nesting
    exact ⟨sound.reader.state, kept.1.state, kept.2⟩
  · exact Grammar.parseFrom_keeps (Grammar.closed_filled limits.citation) (fun _ _ => trivial)
      Builder.bound_empty
  · intro room token idents place reader value reached call meets ended
    obtain ⟨properties, other, after, read, rfl, attached⟩ := Grammar.description_of_entities ended
    obtain ⟨stated, behind, each⟩ := Property.exists_stated_of_attachEach attached
    obtain ⟨subject, about⟩ := List.exists_mem_of_ne_nil _ (filled_of_meets meets ended _ rfl)
    -- The right side is something that the run comes to as well, so there is something to state.
    have given := Meaning.filled_descriptor.1 (filled_of_meets (meets.leads .operand) read _ rfl)
    obtain ⟨property, here⟩ := List.exists_mem_of_ne_nil _ given
    obtain ⟨triple, inside, _⟩ := each subject about property here
    exact ⟨properties, other, after, stated, read, behind, List.ne_nil_of_mem inside, each⟩
  · intro room token properties place reader value reached call meets ended
    obtain ⟨citations, other, read, rfl⟩ := Grammar.description_of_descriptor ended
    have nonempty := Meaning.filled_descriptor.1 (filled_of_meets meets ended _ rfl)
    obtain ⟨upper, first⟩ := Property.exists_reach (mt List.map_eq_nil_iff.2 nonempty)
    obtain ⟨lower, second⟩ := filled_of_meets (meets.leads .operand) read _ rfl
    refine ⟨citations, other, _, upper, lower, read, rfl, rfl, ?_, first, second,
      first.cited second⟩
    intro property inside
    obtain ⟨own, _, rfl⟩ := List.mem_map.1 inside
    exact List.append_ne_nil_of_right_ne_nil _ second.ne_nil
  · intro count place failed
    rcases failed with target | names
    · exact countsSeveral_of_ofSource target
    · exact countsSeveral_of_ofSource names

/-- A `=>` behind an entity, one behind a descriptor, and a label that is refused for two
properties. -/
theorem parseFrom_filled_described :
    let symbols := Grammar.symbols 256
    (∃ token place reader value reached,
      let call : Stage Builder Meaning :=
        ⟨.action 127 (Grammar.description 256 token (some (.entities [.user "a"] place))), reader⟩
      (Reader.ofSource "a => b:c" Builder.empty).Meets symbols 128 call ∧
      call.ending symbols 128 = (.ok value, reached) ∧ reached.state.graph.triples ≠ []) ∧
    (∃ token properties place reader cited reached,
      let call : Stage Builder Meaning :=
        ⟨.action 127 (Grammar.description 256 token (some (.descriptor properties place))), reader⟩
      (Reader.ofSource "b:c => d:e" Builder.empty).Meets symbols 128 call ∧
      call.ending symbols 128 = (.ok (some (.descriptor cited place)), reached) ∧
      ∀ property ∈ cited, property.citations ≠ []) ∧
    ofSource "a => (b:c d:e) ! f" .standard = .error (.labelTarget 2 ⟨1, 16⟩) ∧ 2 ≤ 2 := by
  intro symbols
  refine ⟨?_, ?_, ?_⟩
  · let first : Token := ⟨.identifier, "a", some "a", ⟨0, 1, 1, 1⟩⟩
    let arrow : Token := ⟨.arrow, " => ", none, ⟨2, 4, 1, 3⟩⟩
    let second : Token := ⟨.identifier, "b", some "b", ⟨5, 6, 1, 6⟩⟩
    let rest := (Token.Cursor.ofSource "a => b:c").tokens.drop 3
    have tokens : (Token.Cursor.ofSource "a => b:c").tokens =
        .ok first :: .ok arrow :: .ok second :: rest := by
      decide +kernel
    let call : Stage Builder Meaning :=
      ⟨.action 127 (Grammar.description 256 arrow (some (.entities [.user "a"] first.span))),
        ⟨rest, some second, Builder.empty⟩⟩
    have meets : (Reader.ofSource "a => b:c" Builder.empty).Meets symbols 128 call := by
      rw [Reader.ofSource, tokens]
      refine ⟨first, ⟨.ok arrow :: .ok second :: rest, some first, Builder.empty⟩, rfl, .now rfl ?_⟩
      apply Relation.ReflTransGen.head (Stage.Leads.opened rfl rfl)
      exact .single (.following (by decide) rfl)
    have answers : (call.ending symbols 128).1 = .ok (some (.entities [.user "a"] first.span)) := by
      decide +kernel
    have ended : call.ending symbols 128 = (_, (call.ending symbols 128).2) := Prod.ext answers rfl
    obtain ⟨_, _, described, _, _⟩ := parseFrom_filled "a => b:c" .standard
    obtain ⟨_, _, _, stated, _, behind, nonempty, _⟩ := described _ _ _ _ _ _ _ meets ended
    refine ⟨arrow, first.span, _, _, _, meets, ended, ?_⟩
    rw [behind]
    exact List.append_ne_nil_of_right_ne_nil _ nonempty
  · let first : Token := ⟨.identifier, "b", some "b", ⟨0, 1, 1, 1⟩⟩
    let colon : Token := ⟨.colon, ":", none, ⟨1, 2, 1, 2⟩⟩
    let second : Token := ⟨.identifier, "c", some "c", ⟨2, 3, 1, 3⟩⟩
    let arrow : Token := ⟨.arrow, " => ", none, ⟨4, 6, 1, 5⟩⟩
    let third : Token := ⟨.identifier, "d", some "d", ⟨7, 8, 1, 8⟩⟩
    let rest := (Token.Cursor.ofSource "b:c => d:e").tokens.drop 5
    have tokens : (Token.Cursor.ofSource "b:c => d:e").tokens =
        .ok first :: .ok colon :: .ok second :: .ok arrow :: .ok third :: rest := by
      decide +kernel
    let property := Property.plain (.user "b") (.user "c") first.span
    let citation := Property.plain (.user "d") (.user "e") third.span
    let call : Stage Builder Meaning :=
      ⟨.action 127 (Grammar.description 256 arrow (some (.descriptor [property] first.span))),
        ⟨rest, some third, Builder.empty⟩⟩
    have meets : (Reader.ofSource "b:c => d:e" Builder.empty).Meets symbols 128 call := by
      rw [Reader.ofSource, tokens]
      refine ⟨first, ⟨.ok colon :: .ok second :: .ok arrow :: .ok third :: rest, some first,
        Builder.empty⟩, rfl, .now rfl ?_⟩
      apply Relation.ReflTransGen.head (Stage.Leads.opened rfl rfl)
      apply Relation.ReflTransGen.head (Stage.Leads.followed (by decide) rfl rfl)
      exact .single (.following (by decide) rfl)
    have answers : (call.ending symbols 128).1 =
        .ok (some (.descriptor [property.citedBy [citation]] first.span)) := by decide +kernel
    have ended : call.ending symbols 128 = (_, (call.ending symbols 128).2) := Prod.ext answers rfl
    obtain ⟨_, _, _, citing, _⟩ := parseFrom_filled "b:c => d:e" .standard
    obtain ⟨_, _, cited, _, _, _, same, _, each, _⟩ := citing _ _ _ _ _ _ _ meets ended
    rw [same] at ended
    exact ⟨arrow, [property], first.span, _, cited, _, meets, ended, each⟩
  · have refused : ofSource "a => (b:c d:e) ! f" .standard = .error (.labelTarget 2 ⟨1, 16⟩) := by
      decide +kernel
    obtain ⟨_, _, _, _, counts⟩ := parseFrom_filled "a => (b:c d:e) ! f" .standard
    exact ⟨refused, counts 2 _ (.inl refused)⟩

end Compilation

end FactGraph
