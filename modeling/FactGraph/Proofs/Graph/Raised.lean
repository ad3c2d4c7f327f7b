import FactGraph.Proofs.Graph.Embedded
import FactGraph.Proofs.Graph.Numbered

namespace FactGraph

def Ident.raised (statements groups : Nat) : Ident → Ident
  | .statement number => .statement (statements + number)
  | .part group role => .part (groups + group) role
  | ident => ident

theorem Ident.image_raised (statements groups : Nat) :
    Image statements groups (raised statements groups) where
  injective first second same := by
    cases first <;> cases second <;> simp [raised] at same ⊢ <;> omega
  statement _ := rfl
  part _ _ := rfl
  reification _ := rfl

namespace Graph

variable {graph base whole : Graph} {image : Ident → Ident}

namespace Numbered

variable (numbered : graph.Numbered)

include numbered

theorem hasStatement_iff (ident : Ident) :
    graph.hasStatement ident = true ↔ ident ∈ graph.triples.map (·.ident) := by
  rw [numbered.known, Option.isSome_iff_exists, List.mem_map]
  exact exists_congr fun triple => numbered.found ident triple

theorem lt_of_statement {number : Nat} (known : graph.hasStatement (.statement number) = true) :
    number < graph.nextStatement := by
  rcases List.mem_map.1 ((numbered.hasStatement_iff _).1 known) with ⟨triple, inside, ident⟩
  rw [← List.mem_range, ← numbered.statements]
  exact List.mem_filterMap.2 ⟨triple, inside, by rw [ident]; rfl⟩

theorem lt_of_part {group : Nat} {role : Role}
    (known : graph.hasStatement (.part group role) = true) :
    group < graph.nextGroup := by
  rcases List.mem_map.1 ((numbered.hasStatement_iff _).1 known) with ⟨triple, inside, ident⟩
  have part : (group, role) ∈ Role.partsOf (List.range graph.nextGroup) := by
    rw [← numbered.parts]
    exact List.mem_filterMap.2 ⟨triple, inside, by simp [ident]⟩
  rcases List.mem_flatMap.1 part with ⟨other, inside, part⟩
  rcases List.mem_map.1 part with ⟨_, _, same⟩
  rw [← (Prod.mk.inj same).1]
  exact List.mem_range.1 inside

end Numbered

def Apart (image : Ident → Ident) (base graph : Graph) : Prop :=
  ∀ ident, graph.hasStatement ident = true → base.hasStatement (image ident) = false

theorem Apart.of_adds {after : Graph} (adds : graph.Adds after) (apart : Apart image base after) :
    Apart image base graph :=
  fun ident known => apart ident (adds.known ident known)

theorem Atop.empty (base : Graph) : Atop image base Graph.empty base where
  triples := (List.append_nil _).symm
  statements := rfl
  groups := rfl
  entities := rfl
  minted := (List.append_nil _).symm
  known _ := ⟨.inr, fun known => known.resolve_left nofun⟩

/-- A label that is used in both would be there twice. -/
theorem Atop.apart (atop : Atop image base graph whole) (below : base.Numbered)
    (above : graph.Numbered) (distinct : (whole.triples.map (·.ident)).Nodup) :
    Apart image base graph := by
  intro ident known
  rw [atop.triples, List.map_append, List.nodup_append] at distinct
  rw [← Bool.not_eq_true, below.hasStatement_iff]
  intro inside
  rcases List.mem_map.1 ((above.hasStatement_iff ident).1 known) with ⟨triple, made, rfl⟩
  have also : image triple.ident ∈ (graph.triples.map (Triple.mapped image)).map (·.ident) :=
    List.mem_map.2 ⟨_, List.mem_map_of_mem made, rfl⟩
  exact distinct.2.2 _ inside _ also rfl

theorem Apart.symm {first second : Graph} (numbered : second.Numbered)
    (apart : Apart (.raised first.nextStatement first.nextGroup) first second) :
    Apart (.raised second.nextStatement second.nextGroup) second first := by
  intro ident known
  rw [← Bool.not_eq_true]
  intro also
  cases ident with
  | statement number => exact absurd (numbered.lt_of_statement also) (by omega)
  | part group role => exact absurd (numbered.lt_of_part also) (by omega)
  | _ => exact absurd (known.symm.trans (apart _ also)) nofun

end Graph

end FactGraph
