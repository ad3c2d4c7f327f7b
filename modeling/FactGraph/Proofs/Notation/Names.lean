import FactGraph.Proofs.Graph.Operation
import FactGraph.Proofs.Notation.Evaluation

namespace FactGraph.Notation

open Token

/-- A name without markers, which stands for the same entity wherever it is written. -/
structure PlainName where
  name : EntityName
  unmarked : hasMarker name.text = false

/-- The tree means these entities, wherever it is written and whatever has been built. -/
def Tree.Names (citation : Nat) {level : Level} (tree : Tree level) (idents : List Ident) : Prop :=
  ∀ mark builder, ∃ place, tree.eval citation mark builder = (.ok (.entities idents place), builder)

namespace PlainName

variable (name : PlainName)

def text : List Char := name.name.text

def source : String := String.ofList name.text

def ident : Ident := .user (String.ofList name.text)

def atom : Tree .atom := .identifier name.name

def statement : Tree .statement := .ofDescription (.ofLabelled (.ofProperty (.ofAtom name.atom)))

theorem atom_names (citation : Nat) : name.atom.Names citation [name.ident] := by
  intro mark builder
  have unmarked : hasMarker (String.ofList name.name.text).toList = false := by
    rw [String.toList_ofList]
    exact name.unmarked
  refine ⟨mark.span (Text.width name.name.text), ?_⟩
  rw [atom, Tree.eval, Evaluation.identifier, Attempt.bind_apply, Builder.onGraph, Attempt.change,
    Graph.allocate_plain _ unmarked]
  rfl

end PlainName

structure NameList where
  first : PlainName
  others : List (Pause × PlainName)

namespace NameList

variable (names : NameList)

def text : List Char :=
  names.first.text ++ names.others.flatMap fun other => other.1.text ++ other.2.text

def source : String := String.ofList names.text

def idents : List Ident := names.first.ident :: names.others.map fun other => other.2.ident

end NameList

def Tree.goingOn (earlier : Tree .sequence) (others : List (Pause × PlainName)) : Tree .sequence :=
  others.foldl (fun earlier other => .more earlier other.1 other.2.statement) earlier

namespace Tree

theorem text_goingOn (earlier : Tree .sequence) (others : List (Pause × PlainName)) :
    (earlier.goingOn others).text = earlier.text ++ others.flatMap fun other => other.1.text ++
      other.2.text := by
  induction others generalizing earlier with
  | nil => exact (List.append_nil _).symm
  | cons other others ih =>
    rw [goingOn, List.foldl_cons, ← goingOn, ih, List.flatMap_cons, Tree.text, List.append_assoc]
    rfl

theorem depth_goingOn_le {earlier : Tree .sequence} (shallow : earlier.depth ≤ 2)
    (others : List (Pause × PlainName)) :
    (earlier.goingOn others).depth ≤ 2 := by
  induction others generalizing earlier with
  | nil => exact shallow
  | cons other others ih => exact ih (Nat.max_le.2 ⟨shallow, Nat.le_refl 2⟩)

theorem goingOn_names {citation : Nat} {earlier : Tree .sequence} {idents : List Ident}
    (before : earlier.Names citation idents) (others : List (Pause × PlainName)) :
    (earlier.goingOn others).Names citation (idents ++ others.map fun other => other.2.ident) := by
  induction others generalizing earlier idents with
  | nil => simpa [goingOn] using before
  | cons other others ih =>
    have next : (earlier.more other.1 other.2.statement).Names citation
        (idents ++ [other.2.ident]) := by
      intro mark builder
      rcases before mark builder with ⟨place, named⟩
      rcases other.2.atom_names citation (mark.past (earlier.text ++ other.1.text)) builder
        with ⟨_, last⟩
      refine ⟨place, ?_⟩
      rw [Tree.eval, Evaluation.sequence, Attempt.bind_ok named]
      exact Attempt.bind_ok last
    have rest := ih next
    rwa [List.append_assoc] at rest

end Tree

namespace NameList

variable (names : NameList)

def sequence : Tree .sequence := (Tree.single names.first.statement).goingOn names.others

def group : Tree .atom := .group .none names.sequence .none

theorem text_group : names.group.text = '(' :: (names.text ++ [')']) := by
  rw [group, Tree.text, sequence, Tree.text_goingOn]
  rfl

theorem depth_group_le : names.group.depth ≤ 3 := by
  have first : (Tree.single names.first.statement).depth ≤ 2 := Nat.le_succ 1
  exact Nat.succ_le_succ (Tree.depth_goingOn_le first names.others)

theorem group_names (citation : Nat) : names.group.Names citation names.idents := by
  have first : (Tree.single names.first.statement).Names citation [names.first.ident] :=
    names.first.atom_names citation
  intro mark builder
  exact Tree.goingOn_names first names.others (mark.past ['(']) builder

end NameList

end FactGraph.Notation
