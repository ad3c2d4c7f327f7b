import FactGraph.Proofs.Bindings
import FactGraph.Proofs.Notation.Evaluation

namespace FactGraph.Notation

open Attempt

def Stated : Meaning → Prop
  | .target _ _ => False
  | _ => True

namespace Evaluation

variable {left right : Step}

abbrev Settles (step : Step) : Prop := Keeps (Builder.Bound Stated) step Stated

theorem entities_keeps (context : String) (settles : Settles left) :
    Keeps (Builder.Bound Stated) (left >>= needEntities context) fun _ => True := by
  apply settles.bind
  intro meaning _
  cases meaning with
  | entities => exact .pure trivial
  | descriptor | assignment | target => exact .refuse

theorem properties_keeps (context : String) (settles : Settles left) :
    Keeps (Builder.Bound Stated) (left >>= needProperties context) fun _ => True := by
  apply settles.bind
  intro meaning _
  cases meaning with
  | descriptor => exact .pure trivial
  | entities | assignment | target => exact .refuse

theorem needValue_keeps (meaning : Meaning) : Settles (needValue meaning) := by
  cases meaning with
  | entities | descriptor => exact .pure trivial
  | assignment | target => exact .refuse

theorem identifier_settles (name : EntityName) (place : Span) :
    Settles (identifier name place) := by
  apply (Builder.onGraph_keeps_bound _).bind
  intro ident _
  exact .pure trivial

theorem reference_settles (name : VariableName) (place : Span) :
    Settles (reference name place) := by
  intro builder bound
  constructor
  · exact bound
  · intro meaning found
    exact bound _ (Bindings.mem_of_resolve found)

theorem property_settles (first : Settles left) (second : Settles right) :
    Settles (property left right) := by
  apply (entities_keeps _ first).bind
  intro predicates _
  apply (entities_keeps _ second).bind
  intro objects _
  exact .pure trivial

theorem label_settles {sign : Span} (first : Settles left) (second : Settles right) :
    Settles (label sign left right) := by
  apply first.bind
  intro meaning _
  split
  · apply (entities_keeps _ second).bind
    intro names _
    dsimp only
    split
    · exact .pure trivial
    · exact .refuse
  · exact .refuse
  · exact .refuse

theorem description_settles {citation : Nat} {sign : Span} (first : Settles left)
    (second : Settles right) : Settles (description citation sign left right) := by
  apply first.bind
  intro meaning _
  split
  · apply (properties_keeps _ second).bind
    intro properties _
    apply (Builder.onGraph_keeps_bound _).bind
    intro _ _
    exact .pure trivial
  · apply (properties_keeps _ second).bind
    intro citations _
    exact .pure trivial
  · exact .refuse

theorem assignment_settles {name : VariableName} {place sign : Span} (value : Settles right) :
    Settles (assignment name place sign right) := by
  apply Keeps.state.bind
  intro builder _
  split
  · exact .refuse
  · have valued : Settles (right >>= needValue) := by
      apply value.bind
      intro meaning _
      exact needValue_keeps meaning
    apply valued.bind
    intro meaning stated
    apply (Bindings.define_keeps stated).bind
    intro _ _
    exact .pure trivial

theorem join_settles {first second : Meaning} (stated : Stated second) :
    Settles (join first second) := by
  unfold join
  split
  · exact .pure trivial
  · exact .pure trivial
  · exact .pure trivial
  · exact .pure stated
  · exact .refuse

end Evaluation

theorem Tree.eval_settles (citation : Nat) {level : Level} (tree : Tree level) (mark : Token.Mark) :
    Evaluation.Settles (tree.eval citation mark) := by
  induction tree generalizing mark with
  | identifier name => exact Evaluation.identifier_settles name _
  | reference name => exact Evaluation.reference_settles name _
  | group opening inner closing ih => exact ih _
  | colon left gap right ihLeft ihRight => exact Evaluation.property_settles (ihLeft _) (ihRight _)
  | bang left gap right ihLeft ihRight => exact Evaluation.label_settles (ihLeft _) (ihRight _)
  | arrow left gap right ihLeft ihRight =>
    exact Evaluation.description_settles (ihLeft _) (ihRight _)
  | assign name gap right ih => exact Evaluation.assignment_settles (ih _)
  | more earlier between last ihEarlier ihLast =>
    apply (ihEarlier _).bind
    intro left _
    apply (ihLast _).bind
    intro right stated
    exact Evaluation.join_settles stated
  | ofAtom tree ih => exact ih mark
  | ofProperty tree ih => exact ih mark
  | ofLabelled tree ih => exact ih mark
  | ofDescription tree ih => exact ih mark
  | single tree ih => exact ih mark

end FactGraph.Notation
