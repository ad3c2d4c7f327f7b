import FactGraph.Grammar
import FactGraph.Proofs.Precedence.Contract

namespace FactGraph.Grammar

open Precedence

variable {citation : Nat} {token : Token} {left : Option Meaning}

theorem identifier_asks : (identifier token).Asks false := .perform _ fun _ => .give

theorem reference_asks : (reference token).Asks false := by
  refine .read fun builder => ?_
  rw [Action.bind]
  split
  · exact .give
  · exact .refuse

theorem join_asks (span : Span) (left right : Option Meaning) :
    (join span left right).Asks false := by
  unfold join
  split <;> first | exact .give | exact .refuse

theorem terminator_asks : (terminator token left).Asks true := by
  have read (left : Option Meaning) :
      (Action.expression Power.terminator >>= join token.span left).Asks true :=
    .operand fun right => join_asks token.span left right
  refine .atEnd .give ?_
  rcases left with _ | _ | _ | _ | _
  case some.target => exact .refuse
  all_goals exact read _

theorem assignment_asks : (assignment token left).Asks true := by
  rcases left with _ | _ | _ | _ | ⟨name, place⟩
  case some.target =>
    refine .read fun builder => ?_
    rw [Action.bind]
    split
    · exact .refuse
    · refine .operand fun right => ?_
      rcases right with _ | _ | _ | _ | _
      case some.entities | some.descriptor => exact .perform _ fun _ => .give
      all_goals exact .refuse
  all_goals exact .refuse

theorem property_asks : (property token left).Asks true := by
  rcases left with _ | _ | _ | _ | _
  case some.entities =>
    refine .operand fun right => ?_
    rcases right with _ | _ | _ | _ | _
    case some.entities => exact .give
    all_goals exact .refuse
  all_goals exact .refuse

theorem description_asks : (description citation token left).Asks true := by
  rcases left with _ | _ | _ | _ | _
  case some.entities =>
    refine .operand fun right => ?_
    rcases right with _ | _ | _ | _ | _
    case some.descriptor => exact .perform _ fun _ => .give
    all_goals exact .refuse
  case some.descriptor =>
    refine .operand fun right => ?_
    rcases right with _ | _ | _ | _ | _
    case some.descriptor => exact .give
    all_goals exact .refuse
  all_goals exact .refuse

theorem label_asks : (label token left).Asks true := by
  rcases left with _ | _ | ⟨_ | ⟨property, _ | _⟩, _⟩ | _ | _
  case some.descriptor.cons.nil =>
    refine .operand fun right => ?_
    rcases right with _ | ⟨_ | ⟨name, _ | _⟩, _⟩ | _ | _ | _
    case some.entities.cons.nil => exact .give
    all_goals exact .refuse
  all_goals exact .refuse

theorem symbols_asks (citation : Nat) : (symbols citation).Asks where
  opening {token rule} found := by
    rcases kind : token.kind
    all_goals
      simp only [Symbols.opening?, symbols, kind, Option.bind_some, Option.some.injEq,
        reduceCtorEq] at found
    · exact found ▸ .give
    · exact found ▸ reference_asks
    · exact found ▸ identifier_asks
    · exact found ▸ .operand fun _ => .close .give
    · exact found ▸ .atEnd .give (.operand fun _ => .give)
  following {token left rule} found := by
    rcases kind : token.kind
    all_goals
      simp only [Symbols.following?, symbols, kind, Option.bind_some, Option.some.injEq,
        reduceCtorEq] at found
    · exact found ▸ assignment_asks
    · exact found ▸ description_asks
    · exact found ▸ property_asks
    · exact found ▸ label_asks
    · exact found ▸ terminator_asks

end FactGraph.Grammar
