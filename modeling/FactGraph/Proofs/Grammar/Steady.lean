import FactGraph.Grammar
import FactGraph.Proofs.Graph.Embedded
import FactGraph.Proofs.Precedence.Guarded

/-! Rules that do not come back. Statements are only added, so that no rule comes from a graph with
too many of them to one that is kept. -/

namespace FactGraph.Grammar

open Precedence

def Lasting (kept : Graph → Prop) : Prop :=
  ∀ graph after : Graph, graph.Adds after → kept after → kept graph

/-- Rules that write no graph which is kept after one that is not. -/
abbrev Steady {α : Type} (kept : Graph → Prop) (action : Step α) : Prop :=
  action.Steady fun builder => kept builder.graph

section Rules

variable {α β : Type} {kept : Graph → Prop} {left : Option Meaning} {token : Token}
  {next : α → Step β}

theorem expression_steady {next : Option Meaning → Step β} (power : Nat)
    (rest : ∀ value, Steady kept (next value)) :
    Steady kept (Action.expression power >>= next) := .operand rest

theorem state_steady {next : Builder → Step β} (rest : ∀ builder, Steady kept (next builder)) :
    Steady kept (Action.state >>= next) := .read rest

theorem needEntities_steady {next : List Ident × Span → Step β} (context : String) (span : Span)
    (rest : ∀ found, Steady kept (next found)) :
    Steady kept (needEntities context span left >>= next) := by
  rcases left with _ | _ | _ | _ | _
  case some.entities => exact rest _
  all_goals exact .refuse

theorem needProperties_steady {next : List Property → Step β} (context : String) (span : Span)
    (rest : ∀ found, Steady kept (next found)) :
    Steady kept (needProperties context span left >>= next) := by
  rcases left with _ | _ | _ | _ | _
  case some.descriptor => exact rest _
  all_goals exact .refuse

theorem needValue_steady {next : Meaning → Step β} (span : Span)
    (rest : ∀ found, Steady kept (next found)) :
    Steady kept (needValue span left >>= next) := by
  rcases left with _ | _ | _ | _ | _
  case some.entities | some.descriptor => exact rest _
  all_goals exact .refuse

theorem onGraph_steady (lasting : Lasting kept) {step : Attempt Graph α} (answer : α → β)
    (adds : ∀ graph : Graph, graph.Adds (step graph).2) :
    Steady kept (Action.perform (Builder.onGraph step) >>= fun value => pure (answer value)) :=
  .perform answer fun builder inside => lasting _ _ (adds builder.graph) inside

theorem identifier_steady (lasting : Lasting kept) : Steady kept (identifier token) :=
  onGraph_steady lasting _ fun graph => .allocate graph token.value

theorem reference_steady : Steady kept (reference token) := by
  refine state_steady fun builder => ?_
  split
  · exact .give
  · exact .refuse

theorem join_steady (span : Span) (right : Option Meaning) :
    Steady kept (join span left right) := by
  unfold join
  split <;> first | exact .give | exact .refuse

theorem terminator_steady : Steady kept (terminator token left) := by
  refine .atEnd fun ended => ?_
  cases ended with
  | true => exact .give
  | false =>
    rcases left with _ | _ | _ | _ | _
    case some.target => exact .refuse
    all_goals exact expression_steady _ fun right => join_steady _ right

theorem assignment_steady : Steady kept (assignment token left) := by
  rcases left with _ | _ | _ | _ | ⟨name, place⟩
  case some.target =>
    refine state_steady fun builder => ?_
    split
    · exact .refuse
    · refine expression_steady _ fun right => needValue_steady _ fun value => ?_
      exact .perform _ fun builder inside => inside
  all_goals exact .refuse

theorem property_steady : Steady kept (Grammar.property token left) :=
  needEntities_steady _ _ fun _ => expression_steady _ fun _ =>
  needEntities_steady _ _ fun _ => .give

theorem description_steady (lasting : Lasting kept) (citation : Nat) :
    Steady kept (description citation token left) := by
  rcases left with _ | _ | _ | _ | _
  case some.entities =>
    refine expression_steady _ fun right => needProperties_steady _ _ fun properties => ?_
    exact onGraph_steady lasting _ fun graph => .attachPairs citation token.span _ graph
  case some.descriptor =>
    exact expression_steady _ fun right => needProperties_steady _ _ fun citations => .give
  all_goals exact .refuse

theorem label_steady : Steady kept (label token left) := by
  rcases left with _ | _ | ⟨_ | ⟨property, _ | ⟨other, more⟩⟩, place⟩ | _ | _
  case some.descriptor.cons.nil =>
    refine expression_steady _ fun right => needEntities_steady _ _ fun found => ?_
    rcases found with ⟨_ | ⟨name, _ | ⟨other, more⟩⟩, place⟩ <;> first | exact .give | exact .refuse
  all_goals exact .refuse

end Rules

theorem symbols_steady {kept : Graph → Prop} (lasting : Lasting kept) (citation : Nat) :
    (symbols citation).Steady fun builder => kept builder.graph where
  opening {kind} rule token found := by
    cases kind with
    | target =>
      obtain rfl := Option.some.inj found
      exact .give
    | reference =>
      obtain rfl := Option.some.inj found
      exact reference_steady
    | identifier =>
      obtain rfl := Option.some.inj found
      exact identifier_steady lasting
    | leftParen =>
      obtain rfl := Option.some.inj found
      exact .operand fun value => .close .give
    | terminator =>
      obtain rfl := Option.some.inj found
      refine .atEnd fun ended => ?_
      cases ended with
      | true => exact .give
      | false => exact .operand fun value => .give
    | _ => cases found
  following {kind} rule token left found := by
    cases kind with
    | assign =>
      obtain rfl := Option.some.inj found
      exact assignment_steady
    | arrow =>
      obtain rfl := Option.some.inj found
      exact description_steady lasting citation
    | colon =>
      obtain rfl := Option.some.inj found
      exact property_steady
    | bang =>
      obtain rfl := Option.some.inj found
      exact label_steady
    | terminator =>
      obtain rfl := Option.some.inj found
      exact terminator_steady
    | _ => cases found

end FactGraph.Grammar
