import FactGraph.Proofs.Graph.Flattening

namespace FactGraph

namespace Property

variable {properties citations : List Property}

def level : Nat → List Property → List Property
  | 0, properties => properties
  | depth + 1, properties => level depth (properties.flatMap (·.citations))

/-- There are properties on each level down to the lowest, and none below. -/
def Reach (lowest : Nat) (properties : List Property) : Prop :=
  ∀ depth, level depth properties ≠ [] ↔ depth ≤ lowest

theorem level_nil (depth : Nat) : level depth [] = [] := by
  induction depth with
  | zero => rfl
  | succ depth ih => exact ih

theorem level_append (depth : Nat) (first second : List Property) :
    level depth (first ++ second) = level depth first ++ level depth second := by
  induction depth generalizing first second with
  | zero => rfl
  | succ depth ih => rw [level, List.flatMap_append, ih, level, level]

theorem level_flatMap {α : Type} (depth : Nat) (items : List α) (own : α → List Property) :
    level depth (items.flatMap own) = items.flatMap fun item => level depth (own item) := by
  induction items with
  | nil => exact level_nil depth
  | cons item items ih => rw [List.flatMap_cons, level_append, ih, List.flatMap_cons]

theorem level_succ (depth : Nat) (properties : List Property) :
    level (depth + 1) properties = properties.flatMap fun property =>
    level depth property.citations :=
  level_flatMap depth properties _

/-- What cites a descriptor is put under each of its properties, behind what has cited this
before. -/
theorem level_cited (depth : Nat) (properties citations : List Property) :
    level (depth + 1) (properties.map (·.citedBy citations)) =
      properties.flatMap fun property => level depth property.citations ++
        level depth citations := by
  rw [level_succ, List.flatMap_map]
  simp only [citedBy, level_append]

theorem level_cited_eq_nil_iff (depth : Nat) (nonempty : properties ≠ []) :
    level (depth + 1) (properties.map (·.citedBy citations)) = [] ↔
      level (depth + 1) properties = [] ∧ level depth citations = [] := by
  obtain ⟨first, rest, rfl⟩ := List.exists_cons_of_ne_nil nonempty
  rw [level_cited, level_succ]
  simp only [List.flatMap_eq_nil_iff, List.append_eq_nil_iff]
  constructor
  · intro all
    exact ⟨fun property inside => (all property inside).1, (all first List.mem_cons_self).2⟩
  · intro both property inside
    exact ⟨both.1 property inside, both.2⟩

theorem length_nodesAll (properties : List Property) :
    (nodesAll properties).length =
      properties.length + (nodesAll (properties.flatMap (·.citations))).length := by
  induction properties with
  | nil => rfl
  | cons property rest ih =>
    rw [nodesAll, nodes_eq, List.flatMap_cons, nodesAll_append]
    simp only [List.length_append, List.length_cons, ih]
    omega

/-- By induction on how many properties there are with all their citations: one level down they are
fewer. -/
theorem exists_reach (nonempty : properties ≠ []) : ∃ lowest, Reach lowest properties := by
  induction size : (nodesAll properties).length using Nat.strongRecOn generalizing properties with
  | _ size' ih =>
    by_cases uncited : properties.flatMap (·.citations) = []
    · refine ⟨0, ?_⟩
      intro depth
      cases depth with
      | zero => simp [level, nonempty]
      | succ depth => simp [level, uncited, level_nil]
    · have fewer : (nodesAll (properties.flatMap (·.citations))).length < size' := by
        have whole := length_nodesAll properties
        have several := List.length_pos_iff.2 nonempty
        omega
      obtain ⟨lowest, reach⟩ := ih _ fewer uncited rfl
      refine ⟨lowest + 1, ?_⟩
      intro depth
      cases depth with
      | zero => simp [level, nonempty]
      | succ depth => rw [level, reach depth, Nat.add_le_add_iff_right]

theorem Reach.ne_nil {lowest : Nat} (reach : Reach lowest properties) : properties ≠ [] :=
  (reach 0).2 (Nat.zero_le lowest)

theorem Reach.cited {upper lower : Nat} (first : Reach upper properties)
    (second : Reach lower citations) :
    Reach (max upper (lower + 1)) (properties.map (·.citedBy citations)) := by
  have nonempty := first.ne_nil
  intro depth
  cases depth with
  | zero => simp [level, nonempty]
  | succ depth =>
    calc level (depth + 1) (properties.map (·.citedBy citations)) ≠ []
        ↔ level (depth + 1) properties ≠ [] ∨ level depth citations ≠ [] := by
          rw [ne_eq, level_cited_eq_nil_iff depth nonempty, Decidable.not_and_iff_not_or_not]
      _ ↔ depth + 1 ≤ upper ∨ depth ≤ lower := or_congr (first _) (second _)
      _ ↔ depth + 1 ≤ max upper (lower + 1) := by omega

end Property

end FactGraph
