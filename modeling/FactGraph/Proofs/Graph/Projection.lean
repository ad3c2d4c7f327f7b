import FactGraph.Proofs.Graph.Labels
import FactGraph.Proofs.Graph.Refusal

/-! Graphs that tell only some of the statements that have been made. No operation looks at the
statements of a graph, and so a projection goes on as the whole graph would: with the same answers,
and the same statements behind its own. -/

namespace FactGraph

namespace Graph

def telling (graph : Graph) (triples : List Triple) : Graph := { graph with triples }

/-- What is written in a graph with blocks are labels with names, and what the counters give out. -/
theorem Built.exists_labelled {blocks : List Block} {graph : Graph} (built : Built blocks graph) :
    ∃ known, graph.Labelled known ∧ ∀ label ∈ known, label.IsNamed := by
  induction built with
  | empty => exact ⟨[], labelled_empty, List.forall_mem_nil _⟩
  | allocate name _ ih =>
    rcases ih with ⟨known, labelled, named⟩
    refine ⟨_, (Grows.allocate _ name).labelled known labelled, ?_⟩
    rwa [List.append_nil]
  | @emit _ _ span subject property _ _ written free ih =>
    rcases ih with ⟨known, labelled, named⟩
    have grown := grows_emit span subject fun label inside => (free label inside).2
    refine ⟨_, grown.labelled known labelled, List.forall_mem_append.2 ⟨named, ?_⟩⟩
    intro label inside
    exact written.label label (Option.mem_toList.1 inside)

theorem Labelled.nodup_of_named {labels : List Ident} {graph : Graph}
    (labelled : graph.Labelled labels) (named : ∀ label ∈ labels, label.IsNamed) :
    (graph.triples.map (·.ident)).Nodup := by
  refine labelled.nodup_iff.2 fun label inside => not_mem_drawn_iff.2 ?_
  have written := named label inside
  constructor
  · rintro number _ rfl
    contradiction
  · rintro group _ role rfl
    contradiction

end Graph

namespace Attempt

variable {α β : Type}

/-- The step adds statements without a look at those that are there: whatever the graph tells, it
answers the same, adds the same, and leaves the same but for what was told before. -/
def Blind (step : Attempt Graph α) : Prop :=
  ∀ graph, ∃ more, (step graph).2.triples = graph.triples ++ more ∧
    ∀ told, step (graph.telling told) = ((step graph).1, (step graph).2.telling (told ++ more))

namespace Blind

theorem pure (value : α) : Blind (Pure.pure value) := by
  intro graph
  exact ⟨[], (List.append_nil _).symm, fun told => by rw [List.append_nil]; rfl⟩

theorem refuse (fault : Fault) : Blind (Attempt.refuse fault : Attempt Graph α) := by
  intro graph
  exact ⟨[], (List.append_nil _).symm, fun told => by rw [List.append_nil]; rfl⟩

theorem bind {step : Attempt Graph α} {next : α → Attempt Graph β} (first : Blind step)
    (second : ∀ value, Blind (next value)) : Blind (step >>= next) := by
  intro graph
  rcases first graph with ⟨early, added, same⟩
  rcases run : step graph with ⟨fault | value, middle⟩
  · simp only [run] at added same
    refine ⟨early, ?_, ?_⟩
    · rwa [bind_error run]
    · intro told
      rw [bind_error run, bind_error (same told)]
  · simp only [run] at added same
    rcases second value middle with ⟨late, added', same'⟩
    refine ⟨early ++ late, ?_, ?_⟩
    · rw [bind_ok run, added', added, List.append_assoc]
    · intro told
      rw [bind_ok run, bind_ok (same told), same' (told ++ early), List.append_assoc]

end Blind

end Attempt

open Attempt (Blind)

namespace Graph

theorem allocate_blind (name : Option String) : Blind (Attempt.change (Graph.allocate name)) := by
  intro graph
  refine ⟨[], by simp [Attempt.change], fun told => ?_⟩
  rw [List.append_nil]
  unfold Attempt.change allocate
  cases name with
  | none => rfl
  | some text =>
    dsimp only
    split <;> rfl

theorem addStatement_blind (subject predicate object : Ident) (span : Span) :
    Blind (Attempt.change (Graph.addStatement subject predicate object span)) := by
  intro graph
  exact ⟨[⟨.statement graph.nextStatement, subject, predicate, object⟩], rfl, fun _ => rfl⟩

theorem addReified_blind (label : Option Ident) (subject predicate object : Ident) (span : Span) :
    Blind (Graph.addReified label subject predicate object span) := by
  intro graph
  cases label with
  | none =>
    let block : Block :=
      ⟨⟨.statement graph.nextStatement, subject, predicate, object⟩, some graph.nextGroup⟩
    refine ⟨block.triples, ?_, fun told => ?_⟩ <;>
      simp [addReified, addStatement, addParts, push, telling, block, Block.triples, Role.all]
  | some ident =>
    have known (told : List Triple) : (graph.telling told).hasStatement ident =
        graph.hasStatement ident := rfl
    simp only [addReified, known]
    cases graph.hasStatement ident with
    | true => exact ⟨[], (List.append_nil _).symm, fun told => by rw [List.append_nil]; rfl⟩
    | false =>
      let block : Block := ⟨⟨ident, subject, predicate, object⟩, some graph.nextGroup⟩
      refine ⟨block.triples, ?_, fun told => ?_⟩ <;>
        simp [addParts, push, telling, block, Block.triples, Role.all]

end Graph

namespace Property

variable {most : Nat}

mutual

theorem attachAt_blind : ∀ (property : Property) (depth : Nat) (span : Span) (subject : Ident),
    Blind (attachAt most depth span subject property)
  | ⟨predicate, object, citations, label, _⟩, depth, span, subject => by
    rw [attachAt]
    split
    · exact .refuse _
    · split
      · exact Graph.addStatement_blind subject predicate object span
      · refine (Graph.addReified_blind label subject predicate object span).bind fun statement => ?_
        exact (attachAll_blind citations (depth + 1) statement).bind fun _ => .pure _

theorem attachAll_blind : ∀ (properties : List Property) (depth : Nat) (subject : Ident),
    Blind (attachAll most depth subject properties)
  | [], _, _ => .pure ()
  | citation :: rest, depth, subject =>
    (attachAt_blind citation depth citation.span subject).bind fun _ =>
        attachAll_blind rest depth subject

end

theorem hasStatement_emit_of_known {graph : Graph} {span : Span} {subject ident : Ident}
    {property : Property} (known : graph.hasStatement ident = true) :
    (graph.emit span subject property).hasStatement ident = true :=
  Graph.hasStatement_emit.2 (.inr known)

theorem exists_error_of_known {route : List Site} {graph : Graph} {site : Site} {label : Ident}
    (inside : site ∈ route) (labelled : site.property.label = some label)
    (known : graph.hasStatement label = true) :
    ∃ fault after, walk most route graph = (.error fault, after) := by
  induction route generalizing graph with
  | nil => simp at inside
  | cons first route ih =>
    cases met : first.property.obstacle? most first.depth first.span graph with
    | some reason => exact ⟨reason, graph, walk_of_obstacle met⟩
    | none =>
      rw [walk_of_clear met]
      rcases List.mem_cons.1 inside with rfl | later
      · have free := new_of_obstacle?_eq_none met label labelled
        rw [known] at free
        contradiction
      · exact ih later (hasStatement_emit_of_known known)

end Property

namespace Operation

def LabelsWritten : Operation → Prop
  | reify label _ _ _ _ => ∀ ident ∈ label, ident.IsNamed
  | attach _ _ _ property => Property.LabelsNamed (Property.nodes property)
  | _ => True

theorem perform_blind (operation : Operation) : Blind operation.perform := by
  cases operation with
  | allocate name => exact Graph.allocate_blind name
  | state subject predicate object span =>
    exact Graph.addStatement_blind subject predicate object span
  | reify label subject predicate object span =>
    exact Graph.addReified_blind label subject predicate object span
  | attach most span subject property => exact Property.attachAt_blind property 0 span subject

/-- Operations on a graph that tells other statements: the same answers, and the same statements are
added. -/
theorem after_telling (operations : List Operation) (graph : Graph) :
    ∃ more, (after operations graph).triples = graph.triples ++ more ∧
      ∀ told, transcript operations (graph.telling told) = transcript operations graph ∧
        after operations (graph.telling told) =
          (after operations graph).telling (told ++ more) := by
  induction operations generalizing graph with
  | nil => exact ⟨[], (List.append_nil _).symm, fun told => ⟨rfl, by rw [List.append_nil]; rfl⟩⟩
  | cons operation rest ih =>
    rcases perform_blind operation graph with ⟨early, added, same⟩
    rcases ih (operation.perform graph).2 with ⟨late, added', same'⟩
    refine ⟨early ++ late, ?_, fun told => ⟨?_, ?_⟩⟩
    · rw [after, added', added, List.append_assoc]
    · rw [transcript, transcript, same told, (same' _).1]
    · rw [after, after, same told, (same' _).2, List.append_assoc]

theorem walkedLabels_subset (most : Nat) (route : List Site) (graph : Graph) :
    Property.walkedLabels most route graph ⊆ Site.labels route := by
  induction route generalizing graph with
  | nil => exact List.Subset.refl _
  | cons site route ih =>
    rw [Property.walkedLabels, Site.labels_cons]
    split
    · exact List.nil_subset _
    · intro label inside
      rcases List.mem_append.1 inside with own | later
      · exact List.mem_append_left _ own
      · exact List.mem_append_right _ (ih _ later)

theorem labels_named {operation : Operation} (written : operation.LabelsWritten) (graph : Graph) :
    ∀ label ∈ operation.labels graph, label.IsNamed := by
  intro label inside
  cases operation with
  | allocate | state => simp [labels] at inside
  | reify given =>
    rw [labels] at inside
    split at inside
    · simp at inside
    · exact written label (Option.mem_toList.1 inside)
  | attach most span subject property =>
    rcases List.mem_filterMap.1 (walkedLabels_subset _ _ _ inside) with ⟨site, there, labelled⟩
    have node : site.property ∈ Property.nodes property := by
      rw [← Property.map_property_sites graph.nextStatement 0 span subject property]
      exact List.mem_map_of_mem there
    exact written site.property node label labelled

theorem labelsAll_named {operations : List Operation}
    (written : ∀ operation ∈ operations, operation.LabelsWritten) (graph : Graph) :
    ∀ label ∈ labelsAll operations graph, label.IsNamed := by
  induction operations generalizing graph with
  | nil => exact List.forall_mem_nil _
  | cons operation rest ih =>
    rcases List.forall_mem_cons.1 written with ⟨own, others⟩
    exact List.forall_mem_append.2 ⟨labels_named own graph, ih others _⟩

theorem after_draws (operations : List Operation) (graph : Graph) :
    graph.Draws (after operations graph) := by
  induction operations generalizing graph with
  | nil => exact .refl graph
  | cons operation rest ih => exact (perform_draws operation graph).trans (ih _)

theorem exists_performed_of_mem {operations : List Operation} {graph : Graph}
    {entry : Operation × Except Fault Ident} (inside : entry ∈ transcript operations graph) :
    ∃ before, graph.Draws before ∧ (entry.1.perform before).1 = entry.2 ∧
      (entry.1.perform before).2.Draws (after operations graph) := by
  induction operations generalizing graph with
  | nil => simp [transcript] at inside
  | cons operation rest ih =>
    rw [transcript, List.mem_cons] at inside
    rcases inside with rfl | later
    · exact ⟨graph, .refl graph, rfl, after_draws rest _⟩
    · rcases ih later with ⟨before, draws, answered, last⟩
      exact ⟨before, (perform_draws operation graph).trans draws, answered, last⟩

def Drawn (graph : Graph) : Ident → Prop
  | .unique text => text ∈ graph.minted
  | .auto number => number < graph.nextEntity
  | _ => False

theorem Drawn.mono {graph after : Graph} {ident : Ident} (draws : graph.Draws after)
    (drawn : Drawn graph ident) :
    Drawn after ident := by
  cases ident with
  | unique text => exact draws.minted drawn
  | auto number => exact Nat.lt_of_lt_of_le drawn draws.entities
  | _ => exact drawn

theorem allocate_cases (graph : Graph) (name : Option String) :
    (∃ text, (graph.allocate name).1 = .user text) ∨
      ¬ Drawn graph (graph.allocate name).1 ∧
      Drawn (graph.allocate name).2 (graph.allocate name).1 := by
  cases name with
  | none => exact .inr ⟨Nat.lt_irrefl _, Nat.lt_succ_self _⟩
  | some text =>
    cases marked : hasMarker text.toList with
    | false => exact .inl ⟨text, by rw [Graph.allocate_plain graph marked]⟩
    | true =>
      rcases Graph.allocate_marked graph marked with ⟨minted, after, made, new, kept, _⟩
      rw [made]
      exact .inr ⟨new, kept⟩

theorem allocated_cases {operations : List Operation} {graph : Graph} {name : Option String}
    {ident : Ident} (given : (allocate name, .ok ident) ∈ transcript operations graph) :
    (∃ text, ident = .user text) ∨ ¬ Drawn graph ident ∧ Drawn (after operations graph) ident := by
  rcases exists_performed_of_mem given with ⟨before, earlier, answered, later⟩
  obtain rfl : (before.allocate name).1 = ident := Except.ok.inj answered
  rcases allocate_cases before name with plain | ⟨new, drawn⟩
  · exact .inl plain
  · exact .inr ⟨fun known => new (known.mono earlier), drawn.mono later⟩

/-- A label that is the identifier of a statement is refused, wherever in a tree of citations it
stands. -/
theorem label_refused {graph : Graph} {label : Ident}
    (known : graph.hasStatement label = true) (span : Span) (subject : Ident) :
    (∀ predicate object, (reify (some label) subject predicate object span).perform graph =
        (.error (.statementTaken label.text span.position), graph)) ∧
      ∀ most property,
        (property.label = some label → (attach most span subject property).perform graph =
          (.error (.statementTaken label.text span.position), graph)) ∧
        ((∃ node ∈ Property.nodes property, node.label = some label) →
          ∃ fault after, (attach most span subject property).perform graph = (.error fault, after) ∧
            ∃ site ∈ Property.sites graph.nextStatement 0 span subject property, site.Refused most
              after fault) := by
  refine ⟨?_, fun most property => ⟨?_, ?_⟩⟩
  · intro predicate object
    simp [perform, Graph.addReified, known]
  · intro labelled
    rcases property with ⟨predicate, object, citations, _, place⟩
    obtain rfl : _ = some label := labelled
    rw [perform, Property.attach, Property.attachAt]
    simp [Attempt.bind_apply, Graph.addReified, known]
  · rintro ⟨node, inside, labelled⟩
    rw [← Property.map_property_sites graph.nextStatement 0 span subject property] at inside
    rcases List.mem_map.1 inside with ⟨site, there, rfl⟩
    rcases Property.exists_error_of_known there labelled known with ⟨fault, after, stopped⟩
    refine ⟨fault, after, ?_, Property.exists_refused_of_walk stopped⟩
    rw [perform, Property.attach, Property.attachAt_eq_walk, Attempt.bind_error stopped]

/-- A projection of a graph with blocks goes on from all of the graph. Identifiers stay different,
and those that are new are not in the graph; the statements of the graph keep their places and their
identifiers are refused as labels. -/
theorem after_about {blocks : List Block} {graph : Graph} (built : Graph.Built blocks graph)
    (subject : Ident) {operations : List Operation}
    (written : ∀ operation ∈ operations, operation.LabelsWritten) :
    let result := after operations (graph.about subject)
    (result.triples.map (·.ident)).Nodup ∧
      (∃ more, result.triples = (graph.about subject).triples ++ more ∧
        ∀ triple ∈ more, triple.ident ∉ graph.triples.map (·.ident)) ∧
      ∀ ident ∈ graph.triples.map (·.ident), result.place? ident = graph.place? ident ∧
        result.hasStatement ident = true := by
  rcases built.exists_labelled with ⟨known, labelled, named⟩
  have grown := after_grows operations graph
  rcases grown.added with ⟨more, added, kept⟩
  rcases after_telling operations graph with ⟨more', added', same⟩
  obtain rfl := List.append_cancel_left (added'.symm.trans added)
  have distinct := (grown.labelled known labelled).nodup_of_named
    (List.forall_mem_append.2 ⟨named, labelsAll_named written graph⟩)
  rw [added, List.map_append, List.nodup_append] at distinct
  have told : after operations (graph.about subject) = _ := (same _).2
  dsimp only
  rw [told]
  refine ⟨?_, ⟨more', rfl, ?_⟩, ?_⟩
  · rw [Graph.telling, List.map_append, List.nodup_append]
    refine ⟨distinct.1.sublist (List.filter_sublist.map _), distinct.2.1, ?_⟩
    intro ident before other new
    exact distinct.2.2 ident ((List.filter_sublist.map _).subset before) other new
  · intro triple new old
    exact distinct.2.2 _ old _ (List.mem_map_of_mem new) rfl
  · intro ident old
    have place : (after operations graph).place? ident = graph.place? ident :=
      kept ident fun new => distinct.2.2 ident old ident new rfl
    refine ⟨place, ?_⟩
    have there : graph.hasStatement ident = true := (labelled.placed ident).2 old
    rw [Graph.hasStatement_eq_isSome_place?] at there ⊢
    exact (congrArg Option.isSome place).trans there

end Operation

end FactGraph
