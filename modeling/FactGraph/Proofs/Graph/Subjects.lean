import FactGraph.Graph
import Mathlib.Algebra.BigOperators.Group.List.Lemmas
import Mathlib.Algebra.GroupWithZero.Nat
import Mathlib.Data.List.Dedup
import Mathlib.Data.List.Induction

namespace FactGraph

theorem eraseDups_concat {α : Type} [DecidableEq α] (items : List α) (item : α) :
    (items ++ [item]).eraseDups = if item ∈ items then items.eraseDups
    else items.eraseDups ++ [item] := by
  by_cases seen : item ∈ items
  · simp [List.eraseDups_append, List.removeAll, seen]
  · simp [List.eraseDups_append, List.removeAll, seen, List.eraseDups_cons]

theorem pairwise_idxOf_eraseDups {α : Type} [DecidableEq α] (items : List α) :
    items.eraseDups.Pairwise fun first second => items.idxOf first < items.idxOf second := by
  induction items using List.reverseRecOn with
  | nil => simp
  | append_singleton items item ih =>
    have before : items.eraseDups.Pairwise fun first second =>
        (items ++ [item]).idxOf first < (items ++ [item]).idxOf second := by
      apply ih.imp_of_mem
      intro first second inside inside' earlier
      rwa [List.idxOf_append_of_mem (List.mem_eraseDups.1 inside),
            List.idxOf_append_of_mem (List.mem_eraseDups.1 inside')]
    rw [eraseDups_concat]
    split_ifs with seen
    · exact before
    · apply List.pairwise_append.2 ⟨before, List.pairwise_singleton _ _, ?_⟩
      intro first inside second last
      have known := List.mem_eraseDups.1 inside
      rw [List.mem_singleton.1 last, List.idxOf_append_of_mem known,
        List.idxOf_append_of_notMem seen]
      have bound := List.idxOf_lt_length_iff.2 known
      omega

theorem filter_eq_filterMap_range {α : Type} (chosen : α → Bool) (items : List α) :
    items.filter chosen =
      ((List.range items.length).filter fun i => items[i]?.any chosen).filterMap (items[·]?) := by
  induction items with
  | nil => rfl
  | cons item items ih =>
    have later : ((List.range items.length).map Nat.succ).filter
        (fun i => (item :: items)[i]?.any chosen) =
        ((List.range items.length).filter fun i => items[i]?.any chosen).map Nat.succ :=
      List.filter_map
    rw [List.length_cons, List.range_succ_eq_map, List.filter_cons, List.filter_cons, later, ih]
    cases here : chosen item with
    | true => simp [here, List.filterMap_map]
    | false => simp [here, List.filterMap_map]

namespace Graph

variable (graph : Graph) (subject : Ident)

theorem pairwise_subjects :
    graph.subjects.Pairwise fun first second =>
      (graph.triples.map (·.subject)).idxOf first < (graph.triples.map (·.subject)).idxOf second :=
  pairwise_idxOf_eraseDups _

theorem nodup_subjects : graph.subjects.Nodup := by
  apply graph.pairwise_subjects.imp
  intro first second earlier same
  rw [same] at earlier
  exact absurd earlier (Nat.lt_irrefl _)

theorem mem_subjects :
    subject ∈ graph.subjects ↔ ∃ triple ∈ graph.triples, triple.subject = subject := by
  rw [subjects, List.mem_eraseDups, List.mem_map]

def positions : List Nat :=
  (List.range graph.size).filter fun i => graph.triples[i]?.any (·.subject == subject)

theorem mem_positions (i : Nat) :
    i ∈ graph.positions subject ↔
    ∃ triple, graph.triples[i]? = some triple ∧ triple.subject = subject := by
  rw [positions, List.mem_filter, List.mem_range, Option.any_eq_true]
  constructor
  · intro listed
    rcases listed.2 with ⟨triple, here, about⟩
    exact ⟨triple, here, beq_iff_eq.1 about⟩
  · intro there
    rcases there with ⟨triple, here, about⟩
    exact ⟨(List.getElem?_eq_some_iff.1 here).1, triple, here, beq_iff_eq.2 about⟩

theorem existsUnique_subject {i : Nat} (inside : i < graph.size) :
    ∃! subject, subject ∈ graph.subjects ∧ i ∈ graph.positions subject := by
  have here : graph.triples[i]? = some graph.triples[i] := List.getElem?_eq_getElem inside
  refine ⟨graph.triples[i].subject, ⟨?_, ?_⟩, ?_⟩
  · exact (graph.mem_subjects _).2 ⟨_, List.getElem_mem inside, rfl⟩
  · exact (graph.mem_positions _ i).2 ⟨_, here, rfl⟩
  · intro other either
    rcases (graph.mem_positions other i).1 either.2 with ⟨triple, same, rfl⟩
    rw [Option.some.inj (here.symm.trans same)]

theorem triples_about :
    (graph.about subject).triples = (graph.positions subject).filterMap (graph.triples[·]?) :=
  filter_eq_filterMap_range _ graph.triples

theorem lines_about (withPlaces : Bool) :
    (graph.about subject).lines withPlaces =
      (graph.positions subject).filterMap ((graph.lines withPlaces)[·]?) := by
  have read : (fun i : Nat => (graph.lines withPlaces)[i]?) = fun i : Nat =>
      graph.triples[i]?.map (graph.line withPlaces) := by
    funext i
    exact List.getElem?_map
  calc
    (graph.about subject).lines withPlaces =
        (graph.about subject).triples.map (graph.line withPlaces) := rfl
    _ = ((graph.positions subject).filterMap (graph.triples[·]?)).map (graph.line withPlaces) := by
      rw [triples_about]
    _ = (graph.positions subject).filterMap fun i =>
      graph.triples[i]?.map (graph.line withPlaces) := List.map_filterMap
    _ = (graph.positions subject).filterMap ((graph.lines withPlaces)[·]?) := by rw [read]

theorem size_about :
    (graph.about subject).size = (graph.triples.map (·.subject)).count subject := by
  rw [size, about, ← List.countP_eq_length_filter, List.count, List.countP_map]
  rfl

theorem sum_size_about :
    (graph.subjects.map fun subject => (graph.about subject).size).sum = graph.size := by
  have same : graph.subjects.Perm (graph.triples.map (·.subject)).dedup := by
    apply (List.perm_ext_iff_of_nodup graph.nodup_subjects (List.nodup_dedup _)).2
    intro subject
    rw [subjects, List.mem_eraseDups, List.mem_dedup]
  calc
    (graph.subjects.map fun subject => (graph.about subject).size).sum =
        (graph.subjects.map fun subject => (graph.triples.map (·.subject)).count subject).sum := by
      simp only [size_about]
    _ = ((graph.triples.map (·.subject)).dedup.map fun subject =>
      (graph.triples.map (·.subject)).count subject).sum :=
      (same.map _).sum_eq
    _ = (graph.triples.map (·.subject)).length := List.sum_map_count_dedup_eq_length _
    _ = graph.size := List.length_map _

theorem about_about : (graph.about subject).about subject = graph.about subject := by
  simp [about]

theorem triples_about_about_of_ne {other : Ident} (differ : other ≠ subject) :
    ((graph.about subject).about other).triples = [] := by
  simp only [about, List.filter_filter, List.filter_eq_nil_iff, Bool.and_eq_true, beq_iff_eq]
  intro triple _ both
  exact differ (both.1.symm.trans both.2)

/-- The subjects of a graph are told apart and stand in the order of their first appearance. The
projections onto them share out its statements: the statements at some positions, in order, so that
each position belongs to one of them. A projection has no statements about another subject, and its
listing has the lines of the whole listing that stand at its positions. -/
theorem subjects_share_out (graph : Graph) :
    (graph.subjects.Nodup ∧ (∀ subject, subject ∈ graph.subjects ↔
      ∃ triple ∈ graph.triples, triple.subject = subject) ∧
      graph.subjects.Pairwise fun first second =>
        (graph.triples.map (·.subject)).idxOf first <
            (graph.triples.map (·.subject)).idxOf second) ∧
    ((∀ subject, (graph.about subject).triples.Sublist graph.triples ∧
      (graph.positions subject).Pairwise (· < ·) ∧
        (∀ i, i ∈ graph.positions subject ↔
          ∃ triple, graph.triples[i]? = some triple ∧ triple.subject = subject) ∧
        (graph.about subject).triples = (graph.positions subject).filterMap (graph.triples[·]?)) ∧
      (∀ i < graph.size, ∃! subject, subject ∈ graph.subjects ∧ i ∈ graph.positions subject) ∧
      (graph.subjects.map fun subject => (graph.about subject).size).sum = graph.size) ∧
    (∀ subject, (graph.about subject).about subject = graph.about subject ∧
      ∀ other, other ≠ subject → ((graph.about subject).about other).triples = []) ∧
    ∀ withPlaces, (graph.lines withPlaces).length = graph.size ∧
      graph.listing withPlaces = String.join ((graph.lines withPlaces).map (· ++ "\n")) ∧
      ∀ subject, (graph.about subject).listing withPlaces =
        String.join (((graph.positions subject).filterMap ((graph.lines withPlaces)[·]?)).map
          (· ++ "\n")) := by
  refine ⟨⟨graph.nodup_subjects, graph.mem_subjects, graph.pairwise_subjects⟩,
    ⟨?_, ?_, graph.sum_size_about⟩, ?_, ?_⟩
  · intro subject
    have ascending : (graph.positions subject).Pairwise (· < ·) := List.pairwise_lt_range.filter _
    exact ⟨List.filter_sublist, ascending, graph.mem_positions subject, graph.triples_about subject⟩
  · intro i inside
    exact graph.existsUnique_subject inside
  · intro subject
    refine ⟨graph.about_about subject, ?_⟩
    intro other differ
    exact graph.triples_about_about_of_ne subject differ
  · intro withPlaces
    refine ⟨List.length_map _, rfl, ?_⟩
    intro subject
    rw [listing, graph.lines_about subject withPlaces]

/-- A subject comes back behind another one. -/
theorem subjects_share_out_repeated :
    let place : Span := ⟨0, 1, 1, 1⟩
    let first := (addStatement (.user "a") (.user "b") (.user "c") place Graph.empty).2
    let second := (addStatement (.user "d") (.user "e") (.user "f") place first).2
    let graph := (addStatement (.user "a") (.user "g") (.user "h") place second).2
    graph.subjects = [.user "a", .user "d"] ∧
        graph.positions (.user "a") = [0, 2] ∧ 1 < graph.size ∧
      (∃! subject, subject ∈ graph.subjects ∧ 1 ∈ graph.positions subject) ∧
      Ident.user "d" ≠ .user "a" ∧ ((graph.about (.user "a")).about (.user "d")).triples = [] := by
  intro place first second graph
  have inside : 1 < graph.size := by decide
  have differ : Ident.user "d" ≠ .user "a" := by decide
  rcases subjects_share_out graph with ⟨-, ⟨-, each, -⟩, again, -⟩
  exact ⟨by decide, by decide, inside, each 1 inside, differ, (again (.user "a")).2 _ differ⟩

end Graph

end FactGraph
