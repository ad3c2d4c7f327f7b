import FactGraph.Proofs.Graph.Operation
import Mathlib.Data.Finset.Card
import Mathlib.Data.Finset.Dedup
import Mathlib.Order.Bounds.Defs

/-! Names with markers are numbered anew until a new text comes out. This ends, as the outcomes are
different from each other and only so many texts have been given before. -/

namespace FactGraph

def replaceMarkers : List Char → List Nat → List Char
  | [], _ => []
  | c :: rest, [] => c :: replaceMarkers rest []
  | c :: rest, number :: numbers =>
      if c = anonymousMarker then Text.writeCounter number ++ replaceMarkers rest numbers
      else c :: replaceMarkers rest (number :: numbers)

theorem replaceMarkers_other {c : Char} (other : c ≠ anonymousMarker) (rest : List Char)
    (numbers : List Nat) :
    replaceMarkers (c :: rest) numbers = c :: replaceMarkers rest numbers := by
  cases numbers with
  | nil => rfl
  | cons number numbers => rw [replaceMarkers, if_neg other]

theorem numberMarkers_eq (text : List Char) (next : Nat) :
    numberMarkers text next =
      (replaceMarkers text (List.range' next (markers text)), next + markers text) := by
  refine Prod.ext ?_ (numberMarkers_snd text next)
  induction text generalizing next with
  | nil => rfl
  | cons c rest ih =>
    by_cases marker : c = anonymousMarker
    · subst marker
      have more : markers (anonymousMarker :: rest) = markers rest + 1 := List.count_cons_self
      rw [numberMarkers_marker, more, List.range'_succ, replaceMarkers, if_pos rfl, ih]
    · have same : markers (c :: rest) = markers rest := List.count_cons_of_ne marker
      rw [numberMarkers_other marker, same, replaceMarkers_other marker, ih]

/-- Numbers the markers of a text anew as long as the outcome has been given before. It makes so
many expansions, beginning with the counter at `next`, and ends with a new text and the counter
after that. -/
inductive Redraws (given : List String) (text : List Char) :
    (next expansions : Nat) → String → Nat → Prop
  | done {next after : Nat} {numbered : List Char} (made : numberMarkers text next =
        (numbered, after))
      (new : String.ofList numbered ∉ given) :
      Redraws given text next 1 (String.ofList numbered) after
  | again {next after expansions last : Nat} {numbered : List Char} {drawn : String}
      (made : numberMarkers text next = (numbered, after)) (taken : String.ofList numbered ∈ given)
      (later : Redraws given text after expansions drawn last) :
      Redraws given text next (expansions + 1) drawn last

variable {given : List String} {text : List Char}

theorem expansion_eq (text : List Char) (next : Nat) :
    expansion text next = String.ofList
      (replaceMarkers text (List.range' next (markers text))) := by
  rw [expansion, numberMarkers_eq]

theorem numberMarkers_made (text : List Char) (next : Nat) :
    numberMarkers text next = ((numberMarkers text next).1, next + markers text) :=
  Prod.ext rfl (numberMarkers_snd text next)

/-- Where the outcomes of all turns before it have been given, the loop comes to the turn that is
new. -/
theorem redraws_of_turns (turn : Nat) {next : Nat}
    (earlier : ∀ before < turn, expansion text (next + before * markers text) ∈ given)
    (new : expansion text (next + turn * markers text) ∉ given) :
    Redraws given text next (turn + 1) (expansion text (next + turn * markers text))
      (next + turn * markers text + markers text) := by
  -- The first turn is taken off in front, so that the others count from the number it has stopped
  -- at.
  induction turn generalizing next with
  | zero =>
    rw [Nat.zero_mul, Nat.add_zero] at new ⊢
    exact .done (numberMarkers_made text next) new
  | succ turn ih =>
    have step (count : Nat) : next + (count + 1) * markers text =
        next + markers text + count * markers text := by
      rw [Nat.succ_mul, Nat.add_comm (count * markers text), Nat.add_assoc]
    have first := earlier 0 (Nat.succ_pos turn)
    rw [Nat.zero_mul, Nat.add_zero] at first
    rw [step] at new ⊢
    refine .again (numberMarkers_made text next) first (ih ?_ new)
    intro before below
    rw [← step]
    exact earlier (before + 1) (Nat.succ_lt_succ below)

theorem turns_le_card (marked : hasMarker text = true) {next turn : Nat}
    (earlier : ∀ before < turn, expansion text (next + before * markers text) ∈ given) :
    turn ≤ given.toFinset.card := by
  have inside : ((List.range turn).map fun before =>
        expansion text (next + before * markers text)).toFinset ⊆
      given.toFinset := by
    intro outcome there
    rw [List.mem_toFinset] at there ⊢
    rcases List.mem_map.1 there with ⟨before, below, rfl⟩
    exact earlier before (List.mem_range.1 below)
  calc turn
      = ((List.range turn).map fun before =>
        expansion text (next + before * markers text)).toFinset.card := by
        rw [List.toFinset_card_of_nodup (nodup_outcomes marked next turn), List.length_map,
          List.length_range]
    _ ≤ given.toFinset.card := Finset.card_le_card inside

namespace Graph

/-- A name with markers is drawn from the first turn whose outcome has not been minted, each turn
taking up the numbers where the one before it has stopped. There are no more turns before it than
minted texts, and besides the counter and the text that is drawn nothing changes. -/
theorem allocate_draws_least (graph : Graph) {text : String}
    (marked : hasMarker text.toList = true) :
    let count := markers text.toList
    let first (turn : Nat) := graph.nextEntity + turn * count
    let outcome (turn : Nat) :=
      String.ofList (replaceMarkers text.toList (List.range' (first turn) count))
    ∃ turn, IsLeast {turn | outcome turn ∉ graph.minted} turn ∧ turn ≤ graph.minted.toFinset.card ∧
      Redraws graph.minted text.toList graph.nextEntity (turn + 1) (outcome turn)
      (first turn + count) ∧
      ∃ after, graph.allocate (some text) = (.unique (outcome turn), after) ∧
        (∀ other, other ∈ after.minted ↔ other = outcome turn ∨ other ∈ graph.minted) ∧
        after = { graph with nextEntity := first turn + count, minted := after.minted } := by
  intro count first outcome
  have outcome_eq (turn : Nat) : expansion text.toList (first turn) = outcome turn :=
    expansion_eq _ _
  have new := mint_not_mem marked (Nat.le_refl graph.minted.length) graph.nextEntity
  rcases mint_spec graph.minted text.toList graph.minted.length graph.nextEntity
    with ⟨turn, _, made, earlier, _⟩
  rw [made] at new
  have reached : graph.nextEntity + (turn + 1) * count = first turn + count := by
    rw [Nat.succ_mul, Nat.add_assoc]
  have allocated : graph.allocate (some text) = (.unique (outcome turn),
      { graph with
        nextEntity := first turn + count
        minted := insertOrdered compare (outcome turn) graph.minted }) := by
    rw [allocate_of_marked graph marked, made, reached, outcome_eq]
  have least : IsLeast {turn | outcome turn ∉ graph.minted} turn := by
    constructor
    · rw [Set.mem_ofPred_eq, ← outcome_eq]
      exact new
    · intro other fresh
      rw [Set.mem_ofPred_eq, ← outcome_eq] at fresh
      by_contra below
      exact fresh (earlier other (Nat.lt_of_not_le below))
  have redrawn := redraws_of_turns turn earlier new
  rw [outcome_eq] at redrawn
  refine ⟨turn, least, turns_le_card marked earlier, redrawn, _, allocated, ?_, rfl⟩
  intro other
  exact mem_insertOrdered _ _ _

theorem allocate_draws_second :
    let graph : Graph := ⟨[], [], 10, 0, 0, ["a10"]⟩
    hasMarker "a&".toList = true ∧ Redraws graph.minted "a&".toList graph.nextEntity 2 "a11" 12 ∧
      graph.allocate (some "a&") = (.unique "a11", ⟨[], [], 12, 0, 0, ["a10", "a11"]⟩) := by
  intro graph
  have marked : hasMarker "a&".toList = true := by decide +kernel
  rcases graph.allocate_draws_least marked with ⟨turn, least, bounded, redrawn, _⟩
  have second : turn = 1 := by
    refine Nat.le_antisymm bounded (Nat.pos_of_ne_zero ?_)
    rintro rfl
    exact absurd least.1 (by decide +kernel)
  have number : markers "a&".toList = 1 := by decide +kernel
  have drawn : String.ofList
      (replaceMarkers "a&".toList (List.range' (graph.nextEntity + 1 * 1) 1)) = "a11" := by
    decide +kernel
  rw [second, number] at redrawn
  dsimp only at redrawn
  rw [drawn] at redrawn
  exact ⟨marked, redrawn, by decide +kernel⟩

end Graph

end FactGraph
