import FactGraph.Proofs.Grammar.Named
import FactGraph.Proofs.Graph.Projection

namespace FactGraph

/-- The graph has come about by operations on the empty one. -/
def Graph.Historic (graph : Graph) : Prop := ∃ past, Operation.after past Graph.empty = graph

theorem Graph.Historic.after {graph : Graph} (historic : graph.Historic)
    (operations : List Operation) :
    (Operation.after operations graph).Historic := by
  rcases historic with ⟨past, rfl⟩
  exact ⟨past ++ operations, Operation.after_append past operations _⟩

namespace Property

theorem exists_after_eq_attachPairs (most : Nat) (span : Span) (pairs : List (Ident × Property))
    (graph : Graph) :
    ∃ operations, Operation.after operations graph = (attachPairs most span pairs graph).2 := by
  induction pairs generalizing graph with
  | nil => exact ⟨[], rfl⟩
  | cons pair rest ih =>
    rcases pair with ⟨subject, property⟩
    rw [attachPairs]
    rcases run : attach most span subject property graph with ⟨_ | _, middle⟩
    · rw [Attempt.bind_error run]
      exact ⟨[.attach most span subject property], congrArg Prod.snd run⟩
    · rcases ih middle with ⟨operations, same⟩
      rw [Attempt.bind_ok run, ← same]
      refine ⟨.attach most span subject property :: operations, ?_⟩
      rw [Operation.after, Operation.perform, run]

end Property

namespace Grammar

theorem closed_historic (citation : Nat) :
    Closed citation (fun builder => builder.graph.Historic) (fun _ => True) fun _ => True where
  allocated token _ _ :=
    fun _ historic => ⟨historic.after [.allocate token.value], fun _ _ => trivial⟩
  target _ _ _ := trivial
  bound _ _ := fun _ _ => trivial
  joinedEntities _ _ := trivial
  joinedProperties _ _ := trivial
  assigned _ _ _ _ := fun _ historic => ⟨historic, fun _ _ => trivial⟩
  assignment _ _ _ := trivial
  crossed _ _ := trivial
  attached token idents properties _ _ _ _ _ _ := by
    intro builder historic
    rcases Property.exists_after_eq_attachPairs citation token.span
      (idents.flatMap fun subject => properties.map (subject, ·)) builder.graph
      with ⟨operations, same⟩
    have kept : (Operation.after operations builder.graph).Historic := historic.after operations
    rw [same] at kept
    exact ⟨kept, fun _ _ => trivial⟩
  cited _ _ := trivial
  labelled _ _ := trivial

end Grammar

namespace Compilation

variable {source : String} {limits : Limits} {compilation : Compilation}

theorem historic (compiled : ofSource source limits = .ok compilation) :
    compilation.graph.Historic := by
  have start : Builder.empty.graph.Historic := ⟨[], rfl⟩
  rw [← graph_of_compiled compiled]
  exact (Grammar.parseFrom_keeps (Grammar.closed_historic limits.citation)
    (fun _ _ => trivial) start).1

open Operation in
/-- Whatever is asked of a projection of a compiled graph, its statements have different
identifiers, and those that are new have none that a statement of the graph has. No drawn entity has
been drawn in a history of the graph. And no statement of the graph loses its place or gives up its
identifier as a label, also where the projection leaves it out. -/
theorem projection_stays_apart (compiled : ofSource source limits = .ok compilation)
    (subject : Ident) {operations : List Operation}
    (written : ∀ operation ∈ operations, operation.LabelsWritten) :
    let graph := compilation.graph
    let result := after operations (graph.about subject)
    (result.triples.map (·.ident)).Nodup ∧
      (∃ more, result.triples = (graph.about subject).triples ++ more ∧
        ∀ triple ∈ more, triple.ident ∉ graph.triples.map (·.ident)) ∧
      (graph.Historic ∧ ∀ name ident, (.allocate name, .ok ident) ∈ transcript operations
        (graph.about subject) →
        (∃ text, ident = .user text) ∨ ∀ past, after past Graph.empty = graph →
          ∀ other, (.allocate other, .ok ident) ∉ transcript past Graph.empty) ∧
      ∀ label ∈ graph.triples.map (·.ident), result.place? label = graph.place? label ∧
      ∀ span subject,
        (∀ predicate object, (reify (some label) subject predicate object span).perform result =
          (.error (.statementTaken label.text span.position), result)) ∧
        ∀ most property,
          (property.label = some label → (attach most span subject property).perform result =
            (.error (.statementTaken label.text span.position), result)) ∧
          ((∃ node ∈ Property.nodes property, node.label = some label) →
            ∃ fault stopped, (attach most span subject property).perform result =
              (.error fault, stopped) ∧
              ∃ site ∈ Property.sites result.nextStatement 0 span subject property,
                site.Refused most stopped fault) := by
  rcases exists_built_of_compiled compiled with ⟨blocks, built⟩
  rcases after_about built subject written with ⟨distinct, new, kept⟩
  refine ⟨distinct, new, ⟨historic compiled, ?_⟩, ?_⟩
  · intro name ident given
    rcases allocated_cases given with plain | ⟨undrawn, _⟩
    · exact .inl plain
    · by_cases plain : ∃ text, ident = .user text
      · exact .inl plain
      · refine .inr fun past made other earlier => ?_
        rcases allocated_cases earlier with plain' | ⟨_, drawn⟩
        · exact plain plain'
        · rw [made] at drawn
          exact undrawn drawn
  · intro label inside
    rcases kept label inside with ⟨place, known⟩
    exact ⟨place, fun span subject => label_refused known span subject⟩

open Operation in
/-- The projection leaves out a statement with a label, and the label stays taken. -/
theorem projection_stays_apart_left_out :
    let place : Span := ⟨0, 1, 1, 1⟩
    let operations : List Operation :=
      [.allocate (some "x&"), .allocate none, .state (.user "d") (.user "g") (.user "h") place,
        .reify (some (.unique "x1")) (.user "d") (.user "i") (.user "j") place]
    ∃ compilation, ofSource "x& => b:c ! l; d => e:f" .standard = .ok compilation ∧
      (∀ operation ∈ operations, operation.LabelsWritten) ∧
      .user "l" ∉ (compilation.graph.about (.user "d")).triples.map (·.ident) ∧
      let result := after operations (compilation.graph.about (.user "d"))
      (result.triples.map (·.ident)).Nodup ∧
          result.place? (.user "l") = compilation.graph.place? (.user "l") ∧
        (reify (some (.user "l")) (.user "d") (.user "e") (.user "f") place).perform result =
          (.error (.statementTaken (Ident.user "l").text place.position), result) := by
  intro place operations
  have compiled : ofSource "x& => b:c ! l; d => e:f" .standard =
      .ok ((ofSource "x& => b:c ! l; d => e:f" .standard).toOption.get (by decide +kernel)) := by
    decide +kernel
  have written : ∀ operation ∈ operations, operation.LabelsWritten := by
    simp [operations, LabelsWritten, Ident.IsNamed.unique]
  have stays := projection_stays_apart compiled (.user "d") written
  rcases stays.2.2.2 (.user "l") (by decide +kernel) with ⟨kept, refused⟩
  exact ⟨_, compiled, written, by decide +kernel, stays.1, kept, (refused place (.user "d")).1 _ _⟩

end Compilation

end FactGraph
