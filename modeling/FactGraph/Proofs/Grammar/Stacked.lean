import FactGraph.Proofs.Grammar.Corresponding
import FactGraph.Proofs.Graph.Raised
import FactGraph.Proofs.Notation.Plain
import FactGraph.Proofs.Seam

/-! A run on top of what has been built before, and the same run on its own. Up to the numbers that
have been drawn below, they state the same, unless a label is used that is known below. -/

namespace FactGraph

open Precedence Token

/-- Where an identifier is found behind all that the base has drawn. -/
abbrev Graph.above (base : Graph) : Ident → Ident := .raised base.nextStatement base.nextGroup

namespace Grammar

variable {base : Graph} {alone : Fault → Prop} {citation : Nat}

def SameName (value other : Option String) : Prop :=
  ∃ text, value = some text ∧ other = some text ∧ hasMarker text.toList = false

/-- The run on its own, and the run on top of the base. -/
def onTop (base : Graph) (alone : Fault → Prop) : Correspondence where
  ident := Ident.Stands base.above
  text := SameName
  naming _ _ := False
  graph := Graph.Atop base.above base
  bindings _ _ := True
  quote _ := ""
  alone := alone

def offTop (base : Graph) (alone : Fault → Prop) : Correspondence where
  ident := flip (Ident.Stands base.above)
  text := SameName
  naming _ _ := False
  graph := flip (Graph.Atop base.above base)
  bindings _ _ := True
  quote _ := ""
  alone := alone

theorem allocate_sameName {value other : Option String} {graph whole : Graph}
    (same : SameName value other) (atop : Graph.Atop base.above base graph whole) :
    Ident.Stands base.above (graph.allocate value).1 (whole.allocate other).1 ∧
      Graph.Atop base.above base (graph.allocate value).2 (whole.allocate other).2 := by
  rcases same with ⟨text, rfl, rfl, plain⟩
  rw [Graph.allocate_plain graph plain, Graph.allocate_plain whole plain]
  exact ⟨rfl, atop⟩

/-- As long as what is stated on its own is apart from the base, it can be stated on top of this. -/
theorem onTop_carried (strays : alone straying) :
    (onTop base alone).Carried citation (Graph.Apart base.above base) where
  quoted := .inl fun _ _ => rfl
  strayed := .inr strays
  allocated := allocate_sameName
  attached span span' subjects related atop apart := by
    have lifted : Graph.Lifted _ _ (Property.attachEach citation span _ _ _) _ :=
      Property.attachEach_lifted (Ident.image_raised _ _) span span' subjects related atop
    revert lifted apart
    generalize Property.attachEach citation span _ _ _ = ending
    generalize Property.attachEach citation span' _ _ _ = ending'
    intro apart lifted
    cases lifted with
    | answered atop => exact .answered rfl atop
    | failed atop faults => exact .failed (faults _ fun _ _ => rfl) atop
    | taken made known => exact absurd (known.symm.trans (apart _ made)) nofun
  resolved := False.elim
  defined := False.elim

/-- What can be stated on top of the base can be stated on its own. Only a label may be refused
there and not here. -/
theorem offTop_carried (takes : ∀ text place, alone (.statementTaken text place)) :
    (offTop base alone).Carried citation fun _ => True where
  quoted := .inl fun _ _ => rfl
  strayed := .inl fun _ => trivial
  allocated same atop := by
    rcases same with ⟨text, first, second, plain⟩
    exact allocate_sameName ⟨text, second, first, plain⟩ atop
  attached span span' subjects related atop _ := by
    have properties :=
      related.flip.imp fun property property' => (Property.corresponds_flip property' property).2
    have lifted : Graph.Lifted _ _ (Property.attachEach citation span' _ _ _) _ :=
      Property.attachEach_lifted (Ident.image_raised _ _) span' span subjects.flip properties atop
    revert lifted
    generalize Property.attachEach citation span _ _ _ = ending
    generalize Property.attachEach citation span' _ _ _ = ending'
    intro lifted
    cases lifted with
    | answered atop => exact .answered rfl atop
    | failed atop faults => exact .failed (faults _ fun _ _ => rfl).symm atop
    | taken => exact .alone (takes _ _)
  resolved := False.elim
  defined := False.elim

theorem quoting_unplaced (fault : Fault) (quote : String → String) :
    fault.unplaced.quoting quote = fault.quoting quote := by
  cases fault <;> rfl

theorem forall₂_due_of_plain {c : Correspondence}
    (texts : ∀ value other, SameName value other → c.text value other)
    {first second : List (Except Fault Token)} (plain : ∀ token, .ok token ∈ first → token.Plain)
    (same : first.map outlined = second.map outlined) :
    List.Forall₂ (Reader.Due c.likeness) first second := by
  have plains : ∀ outcome ∈ first, ∀ token, outcome = .ok token → token.Plain := by
    rintro _ inside token rfl
    exact plain token inside
  refine ((List.forall₂_and_left _ _).2 ⟨plains, forall₂_due_of_outlined_eq same⟩).imp ?_
  rintro _ _ ⟨plain, same | same⟩
  · rename_i token other
    have plain := plain token rfl
    rcases Prod.mk.inj same with ⟨kind, value⟩
    refine .token ⟨kind, fun named => ?_, fun named => absurd named ?_, fun _ => value⟩
    · rcases plain.named named with ⟨text, found, unmarked⟩
      exact texts _ _ ⟨text, found, value ▸ found, unmarked⟩
    · exact not_or.2 ⟨plain.target, plain.reference⟩
  · refine .fault ?_
    have quoted := congrArg (Fault.quoting c.quote) same
    rwa [quoting_unplaced, quoting_unplaced] at quoted

theorem tokens_of_plainText {c : Correspondence}
    (texts : ∀ value other, SameName value other → c.text value other) {source : String}
    (plain : PlainText source.toList) : c.Tokens source := by
  intro first second own others
  have left : PlainText (unpaused source) :=
    fun c inside => plain c (List.dropWhile_subset _ inside)
  refine forall₂_due_of_plain texts (fun token inside => ?_) (own.trans others.symm)
  rcases exists_token_of_outlined own inside with ⟨other, read, same⟩
  exact ((Cursor.tokens_scanned [] (unpaused source)).plain left other read).of_outline same

end Grammar

end FactGraph
