import FactGraph.Graph.Naming
import FactGraph.Proofs.Ident.Reading
import Mathlib.Data.List.Nodup
import Mathlib.Data.List.Perm.Subperm

/-! Numbers for anonymous markers: the same text is spelled differently under different numbers, so
that among as many outcomes as there are given texts, and one more, there is a new one. -/

namespace FactGraph

theorem mem_insertOrdered {α : Type} {order : α → α → Ordering} [Std.LawfulEqCmp order]
    (item other : α) (items : List α) :
    other ∈ insertOrdered order item items ↔ other = item ∨ other ∈ items := by
  induction items with
  | nil => simp [insertOrdered]
  | cons first rest ih =>
    rw [insertOrdered]
    split
    · rw [List.mem_cons]
    · next equal =>
      obtain rfl := Std.LawfulEqCmp.eq_of_compare equal
      simp
    · rw [List.mem_cons, List.mem_cons, ih, or_left_comm]

theorem Text.length_writeCounter_mono {first second : Nat} (le : first ≤ second) :
    (writeCounter first).length ≤ (writeCounter second).length := by
  unfold writeCounter
  rw [Nat.length_toDigits_le_iff (by decide) Nat.length_toDigits_pos]
  apply Nat.lt_of_le_of_lt le
  exact (Nat.length_toDigits_le_iff (by decide) Nat.length_toDigits_pos).1 Nat.le.refl

def markers (text : List Char) : Nat := text.count anonymousMarker

theorem markers_pos {text : List Char} (marked : hasMarker text = true) : 0 < markers text := by
  rw [markers, List.count_pos_iff]
  simpa [hasMarker] using marked

theorem numberMarkers_marker (rest : List Char) (next : Nat) :
    numberMarkers (anonymousMarker :: rest) next =
      (Text.writeCounter next ++
        (numberMarkers rest (next + 1)).1, (numberMarkers rest (next + 1)).2) := rfl

theorem numberMarkers_other {c : Char} (other : c ≠ anonymousMarker) (rest : List Char)
    (next : Nat) :
    numberMarkers (c :: rest) next =
      (c :: (numberMarkers rest next).1, (numberMarkers rest next).2) := by
  rw [numberMarkers, if_neg other]

theorem numberMarkers_snd (text : List Char) (next : Nat) :
    (numberMarkers text next).2 = next + markers text := by
  induction text generalizing next with
  | nil => rfl
  | cons c rest ih =>
    by_cases marker : c = anonymousMarker
    · subst marker
      rw [numberMarkers_marker, ih, markers, markers, List.count_cons_self]
      omega
    · rw [numberMarkers_other marker, ih, markers, markers, List.count_cons_of_ne marker]

theorem length_numberMarkers_mono (text : List Char) {first second : Nat} (le : first ≤ second) :
    (numberMarkers text first).1.length ≤ (numberMarkers text second).1.length := by
  induction text generalizing first second with
  | nil => exact Nat.le.refl
  | cons c rest ih =>
    by_cases marker : c = anonymousMarker
    · subst marker
      have digits := Text.length_writeCounter_mono le
      have others := ih (Nat.add_le_add_right le 1)
      simp only [numberMarkers_marker, List.length_append]
      omega
    · simp only [numberMarkers_other marker, List.length_cons]
      exact Nat.succ_le_succ (ih le)

/-- No part of a text gets shorter under greater numbers, so that texts of one length agree part by
part, and in the number of the first marker. -/
theorem numberMarkers_injective {text : List Char} (marked : hasMarker text = true)
    {first second : Nat} (le : first ≤ second)
    (same : (numberMarkers text first).1 = (numberMarkers text second).1) :
    first = second := by
  induction text with
  | nil => simp [hasMarker] at marked
  | cons c rest ih =>
    by_cases marker : c = anonymousMarker
    · subst marker
      have digits := Text.length_writeCounter_mono le
      have others := length_numberMarkers_mono rest (Nat.add_le_add_right le 1)
      simp only [numberMarkers_marker] at same
      have total := congrArg List.length same
      simp only [List.length_append] at total
      have start : (Text.writeCounter first).length = (Text.writeCounter second).length := by omega
      exact Text.writeCounter_injective (List.append_inj_left same start)
    · simp only [numberMarkers_other marker, List.cons.injEq, true_and] at same
      have still : hasMarker rest = true := by simpa [hasMarker, Ne.symm marker] using marked
      exact ih still same

def expansion (text : List Char) (next : Nat) : String := String.ofList (numberMarkers text next).1

theorem expansion_injective {text : List Char} (marked : hasMarker text = true) {first second : Nat}
    (same : expansion text first = expansion text second) : first = second := by
  have spelled : (numberMarkers text first).1 = (numberMarkers text second).1 := by
    simpa [expansion] using congrArg String.toList same
  rcases Nat.le_total first second with le | ge
  · exact numberMarkers_injective marked le spelled
  · exact (numberMarkers_injective marked ge spelled.symm).symm

/-- Minting numbers the markers anew for each outcome that has been given, and stops at the first
that has not, or when it may try no more. -/
theorem mint_spec (given : List String) (text : List Char) (tries next : Nat) :
    ∃ turn ≤ tries,
      mint given text tries next =
        (expansion text (next + turn * markers text), next + (turn + 1) * markers text) ∧
      (∀ earlier < turn, expansion text (next + earlier * markers text) ∈ given) ∧
      (expansion text (next + turn * markers text) ∈ given → turn = tries) := by
  induction tries generalizing next with
  | zero =>
    refine ⟨0, Nat.le.refl, ?_, ?_, ?_⟩
    · simp [mint, expansion, numberMarkers_snd]
    · intro earlier impossible
      contradiction
    · intro _
      rfl
  | succ tries ih =>
    have start : expansion text (next + 0 * markers text) =
        String.ofList (numberMarkers text next).1 := by
      simp [expansion]
    by_cases taken : String.ofList (numberMarkers text next).1 ∈ given
    · rcases ih (next + markers text) with ⟨turn, bounded, minted, earlier, last⟩
      have step (count : Nat) : next + markers text + count * markers text =
          next + (count + 1) * markers text := by
        rw [Nat.add_assoc, Nat.add_comm (markers text), Nat.succ_mul]
      simp only [step] at minted earlier last
      refine ⟨turn + 1, Nat.succ_le_succ bounded, ?_, ?_, ?_⟩
      · simp only [mint, if_pos taken, numberMarkers_snd, minted]
      · intro before below
        cases before with
        | zero => exact start ▸ taken
        | succ before => exact earlier before (Nat.lt_of_succ_lt_succ below)
      · intro given
        rw [last given]
    · refine ⟨0, Nat.zero_le _, ?_, ?_, ?_⟩
      · simp [mint, if_neg taken, expansion, numberMarkers_snd]
      · intro earlier impossible
        contradiction
      · intro given
        exact absurd (start ▸ given) taken

theorem nodup_outcomes {text : List Char} (marked : hasMarker text = true) (next tries : Nat) :
    ((List.range tries).map fun turn => expansion text (next + turn * markers text)).Nodup := by
  apply List.Nodup.map_on _ List.nodup_range
  intro first _ second _ same
  have numbers := Nat.add_left_cancel (expansion_injective marked same)
  exact Nat.eq_of_mul_eq_mul_right (markers_pos marked) numbers

/-- With as many tries as there are given texts, the outcome is none of them. -/
theorem mint_not_mem {given : List String} {text : List Char} {tries : Nat}
    (marked : hasMarker text = true) (enough : given.length ≤ tries) (next : Nat) :
    (mint given text tries next).1 ∉ given := by
  rcases mint_spec given text tries next with ⟨turn, bounded, minted, earlier, last⟩
  rw [minted]
  intro taken
  obtain rfl := last taken
  -- All tries have failed, and their outcomes are different: there are too many of them.
  have inside : ((List.range (turn + 1)).map fun count =>
        expansion text (next + count * markers text)) ⊆ given := by
    intro outcome there
    rcases List.mem_map.1 there with ⟨count, below, rfl⟩
    rcases Nat.lt_succ_iff_lt_or_eq.1 (List.mem_range.1 below) with before | rfl
    · exact earlier count before
    · exact taken
  have length := ((nodup_outcomes marked next (turn + 1)).subperm inside).length_le
  simp only [List.length_map, List.length_range] at length
  omega

example : mint ["a10"] ['a', '&'] 1 10 = ("a11", 12) := by decide

end FactGraph
