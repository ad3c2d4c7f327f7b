import FactGraph.Graph.Attachment
import FactGraph.Proofs.Attempt
import FactGraph.Proofs.Graph.Flattening

namespace FactGraph

def Triple.idents (triple : Triple) : List Ident :=
  [triple.ident, triple.subject, triple.predicate, triple.object]

namespace Property

def idents (property : Property) : List Ident :=
  property.predicate :: property.object :: property.label.toList

def identsAll (properties : List Property) : List Ident := (nodesAll properties).flatMap idents

theorem identsAll_append (first second : List Property) :
    identsAll (first ++ second) = identsAll first ++ identsAll second := by
  rw [identsAll, nodesAll_append, List.flatMap_append]
  rfl

theorem identsAll_cons (property : Property) (rest : List Property) :
    identsAll (property :: rest) = property.idents ++
      (identsAll property.citations ++ identsAll rest) := by
  rw [identsAll, nodesAll, nodes_eq, List.cons_append, List.flatMap_cons, List.flatMap_append]
  rfl

end Property

/-- The identifiers that no one writes: those of statements and parts, and the predicates of
reification. -/
structure Ident.Open (good : Ident → Prop) : Prop where
  statement (number : Nat) : good (.statement number)
  part (group : Nat) (role : Role) : good (.part group role)
  reification (role : Role) : good (.reification role)

def Graph.Spelled (good : Ident → Prop) (graph : Graph) : Prop :=
  ∀ triple ∈ graph.triples, ∀ ident ∈ triple.idents, good ident

namespace Graph

variable {good : Ident → Prop} {graph : Graph} {triple : Triple} {span : Span}

theorem Spelled.push (spelled : graph.Spelled good) (own : ∀ ident ∈ triple.idents, good ident) :
    (graph.push triple span).Spelled good :=
  List.forall_mem_append.2 ⟨spelled, List.forall_mem_singleton.2 own⟩

theorem Spelled.addParts (free : Ident.Open good) (spelled : graph.Spelled good)
    (own : ∀ ident ∈ triple.idents, good ident) : (graph.addParts triple span).Spelled good := by
  have part (role : Role) : ∀ ident ∈ (partOf triple graph.nextGroup role).idents, good ident := by
    have component : triple.component role ∈ triple.idents := by
      cases role <;> simp [Triple.component, Triple.idents]
    have same : (partOf triple graph.nextGroup role).idents =
        [.part graph.nextGroup role, triple.ident, .reification role, triple.component role] := rfl
    simp only [same, List.forall_mem_cons]
    exact ⟨free.part _ _, own _ List.mem_cons_self, free.reification _, own _ component,
      List.forall_mem_nil _⟩
  have counted : ({ graph with nextGroup := graph.nextGroup + 1 } : Graph).Spelled good := spelled
  exact ((counted.push (part .subject)).push (part .predicate)).push (part .object)

section

variable {subject predicate object : Ident} (free : Ident.Open good)
  (spelled : good subject ∧ good predicate ∧ good object)

include free spelled

theorem addStatement_spelled (span : Span) :
    Attempt.Keeps (Spelled good)
      (Attempt.change (addStatement subject predicate object span)) good := by
  intro graph kept
  refine ⟨Spelled.push kept ?_, fun ident same => ?_⟩
  · simpa [Triple.idents] using ⟨free.statement _, spelled⟩
  · obtain rfl : Ident.statement graph.nextStatement = ident := Except.ok.inj same
    exact free.statement _

theorem addReified_spelled {label : Option Ident} (labelled : ∀ ident ∈ label, good ident)
    (span : Span) :
    Attempt.Keeps (Spelled good) (addReified label subject predicate object span) good := by
  intro graph kept
  cases label with
  | none =>
    have own : ∀ ident ∈ (⟨.statement graph.nextStatement, subject, predicate,
          object⟩ : Triple).idents, good ident := by
      simpa [Triple.idents] using ⟨free.statement _, spelled⟩
    refine ⟨Spelled.addParts free (Spelled.push kept own) own, fun ident same => ?_⟩
    obtain rfl : Ident.statement graph.nextStatement = ident := Except.ok.inj same
    exact free.statement _
  | some label =>
    have own : ∀ ident ∈ (⟨label, subject, predicate, object⟩ : Triple).idents, good ident := by
      simpa [Triple.idents] using ⟨labelled label rfl, spelled⟩
    unfold addReified
    dsimp only
    split
    · exact ⟨kept, nofun⟩
    · refine ⟨Spelled.addParts free (Spelled.push kept own) own, fun ident same => ?_⟩
      exact Except.ok.inj same ▸ labelled label rfl

end

end Graph

namespace Property

variable {most : Nat} {good : Ident → Prop}

mutual

theorem attachAt_spelled (free : Ident.Open good) :
    ∀ (property : Property) (depth : Nat) (span : Span) {subject : Ident}, good subject →
    (∀ ident ∈ identsAll [property], good ident) →
    Attempt.Keeps (Graph.Spelled good) (attachAt most depth span subject property) good
  | ⟨predicate, object, citations, label, place⟩, depth, span, subject, about, written => by
    rw [identsAll_cons, List.forall_mem_append, List.forall_mem_append] at written
    rcases written with ⟨own, inner, _⟩
    have spelled : good subject ∧ good predicate ∧ good object :=
      ⟨about, own _ (by simp [idents]), own _ (by simp [idents])⟩
    have labelled : ∀ ident ∈ label, good ident :=
      fun ident inside => own ident (by simp_all [idents])
    rw [attachAt]
    split
    · exact .refuse
    · split
      · exact Graph.addStatement_spelled free spelled span
      · refine (Graph.addReified_spelled free spelled labelled span).bind fun statement holds => ?_
        exact (attachAll_spelled free citations (depth + 1) holds inner).bind fun _ _ => .pure holds

theorem attachAll_spelled (free : Ident.Open good) :
    ∀ (properties : List Property) (depth : Nat) {subject : Ident}, good subject →
    (∀ ident ∈ identsAll properties, good ident) →
    Attempt.Keeps (Graph.Spelled good) (attachAll most depth subject properties) fun _ => True
  | [], _, _, _, _ => .pure trivial
  | citation :: rest, depth, subject, about, written => by
    have split : identsAll (citation :: rest) = identsAll [citation] ++ identsAll rest :=
      identsAll_append [citation] rest
    rw [split, List.forall_mem_append] at written
    rw [attachAll]
    exact (attachAt_spelled free citation depth citation.span about written.1).bind fun _ _ =>
      attachAll_spelled free rest depth about written.2

end

theorem attachPairs_spelled (free : Ident.Open good) {span : Span} {pairs : List (Ident × Property)}
    (written : ∀ pair ∈ pairs, good pair.1 ∧ ∀ ident ∈ identsAll [pair.2], good ident) :
    Attempt.Keeps (Graph.Spelled good) (attachPairs most span pairs) fun _ => True := by
  induction pairs with
  | nil => exact .pure trivial
  | cons pair pairs ih =>
    rcases List.forall_mem_cons.1 written with ⟨first, others⟩
    exact (attachAt_spelled free pair.2 0 span first.1 first.2).bind fun _ _ => ih others

theorem attachEach_spelled (free : Ident.Open good) {span : Span} {subjects : List Ident}
    {properties : List Property} (about : ∀ subject ∈ subjects, good subject)
    (written : ∀ ident ∈ identsAll properties, good ident) :
    Attempt.Keeps (Graph.Spelled good)
      (attachEach most span subjects properties) fun _ => True := by
  apply attachPairs_spelled free
  intro pair inside
  rcases List.mem_flatMap.1 inside with ⟨subject, here, inside⟩
  rcases List.mem_map.1 inside with ⟨property, there, rfl⟩
  refine ⟨about subject here, fun ident deeper => written ident ?_⟩
  have single : identsAll [property] = property.nodes.flatMap idents := by
    rw [identsAll, nodesAll_eq_flatMap, List.flatMap_singleton]
  rw [single] at deeper
  rcases List.mem_flatMap.1 deeper with ⟨node, within, same⟩
  rw [identsAll, nodesAll_eq_flatMap]
  exact List.mem_flatMap_of_mem (List.mem_flatMap_of_mem there within) same

end Property

end FactGraph
