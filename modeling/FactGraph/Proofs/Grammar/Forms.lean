import FactGraph.Grammar
import FactGraph.Proofs.Precedence.Abreast

/-! The forms of the rules of the notation: which operand a rule reads, whether it looks for the end
of the construct before, and whether it leaves the graph as it is afterwards. -/

namespace FactGraph.Grammar

open Precedence
open Token (Kind)

/-- The action takes no token. A calm one leaves the graph as it is. -/
def Settles {α : Type} (calm : Bool) (doing : Step α) : Prop :=
  ∃ step, doing.Does step ∧ (calm = true → ∀ builder, (step builder).2.graph = builder.graph)

namespace Settles

variable {α β : Type} {calm : Bool}

theorem pure (value : α) : Settles calm (Pure.pure value) := ⟨_, .pure value, fun _ _ => rfl⟩

theorem refuse (fault : Fault) : Settles calm (.refuse fault : Step α) :=
  ⟨_, .refuse fault, fun _ _ => rfl⟩

theorem state : Settles calm Action.state := ⟨_, .state, fun _ _ => rfl⟩

theorem perform (step : Attempt Builder α) : Settles false (Action.perform step) :=
  ⟨step, .perform step, nofun⟩

theorem onBindings (step : Attempt Bindings α) :
    Settles calm (Action.perform (Builder.onBindings step)) :=
  ⟨_, .perform _, fun _ _ => rfl⟩

theorem bind {doing : Step α} {next : α → Step β} (first : Settles calm doing)
    (second : ∀ value, Settles calm (next value)) : Settles calm (doing >>= next) := by
  rcases first with ⟨step, does, still⟩
  choose rest does_rest still_rest using second
  refine ⟨step >>= rest, does.bind does_rest, ?_⟩
  intro quiet builder
  have before := still quiet builder
  rcases run : step builder with ⟨fault | value, middle⟩
  · rw [run] at before
    rw [Attempt.bind_error run]
    exact before
  · rw [run] at before
    rw [Attempt.bind_ok run]
    exact (still_rest value quiet middle).trans before

end Settles

inductive Form where
  | leaf
  | group
  /-- One operand, whose operators bind tighter than `power`, and what is done with it. A rule that
  asks looks first whether the construct is over. -/
  | operand (power : Nat) (calm asks : Bool)

def Form.Asks : Form → Prop
  | operand _ _ asks => asks = true
  | _ => False

def Describes (citation : Nat) (doing : Step (Option Meaning)) : Prop :=
  ∃ token idents place, doing = description citation token (some (.entities idents place))

/-- The action reads at most what its form says. If it is not calm, it is that of a `=>` with
entities on its left. -/
inductive Fits (citation : Nat) : Form → Step (Option Meaning) → Prop
  | alone {form : Form} {doing : Step (Option Meaning)} (open_ : form ≠ .group)
      (settles : Settles false doing) :
      Fits citation form doing
  | group {power : Nat} :
      Fits citation .group (.operand power fun value => .close .rightParen (.give value))
  | read {power : Nat} {calm asks : Bool} {next : Builder → Step (Option Meaning)}
      (rest : ∀ builder, Fits citation (.operand power calm asks) (next builder)) :
      Fits citation (.operand power calm asks) (.read next)
  | asks {power : Nat} {calm : Bool} {next : Bool → Step (Option Meaning)} {value : Option Meaning}
      (given : next true = .give value)
      (rest : Fits citation (.operand power calm false) (next false)) :
      Fits citation (.operand power calm true) (.atEnd next)
  | operand {power : Nat} {calm : Bool} {next : Option Meaning → Step (Option Meaning)}
      (rest : ∀ value, Settles calm (next value))
      (describes : calm = false → Describes citation (.operand power next)) :
      Fits citation (.operand power calm false) (.operand power next)

def openingForm : Kind → Form
  | .leftParen => .group
  | .terminator => .operand 0 true true
  | _ => .leaf

/-- What is read by the rules for tokens that follow an expression. Only a `=>` may change the
graph. -/
def followingForm (calm : Bool) : Kind → Form
  | .terminator => .operand Power.terminator true true
  | .assign => .operand Power.assignment true false
  | .arrow => .operand Power.describing calm false
  | .bang => .operand Power.label true false
  | .colon => .operand Power.property true false
  | _ => .leaf

section Rules

variable {calm : Bool}

theorem needEntities_settles (context : String) (span : Span) (value : Option Meaning) :
    Settles calm (needEntities context span value) := by
  unfold needEntities
  split
  · exact .pure _
  · exact .refuse _

theorem needProperties_settles (context : String) (span : Span) (value : Option Meaning) :
    Settles calm (needProperties context span value) := by
  unfold needProperties
  split
  · exact .pure _
  · exact .refuse _

theorem needValue_settles (span : Span) (value : Option Meaning) :
    Settles calm (needValue span value) := by
  unfold needValue
  split
  · exact .pure _
  · exact .pure _
  · exact .refuse _

theorem join_settles (span : Span) (left right : Option Meaning) :
    Settles calm (join span left right) := by
  unfold join
  split <;> first | exact .pure _ | exact .refuse _

end Rules

variable {token : Token} {left : Option Meaning} {citation : Nat} {calm : Bool}

namespace Fits

variable {citation power : Nat} {calm asks : Bool}

theorem refuse (fault : Fault) : Fits citation (.operand power calm asks) (.refuse fault) :=
  .alone nofun (.refuse fault)

theorem ofEnded {next : Bool → Step (Option Meaning)} {value : Option Meaning}
    (given : next true = pure value)
    (rest : Fits citation (.operand power calm false) (next false)) :
    Fits citation (.operand power calm true) (Action.ended >>= next) := .asks given rest

theorem ofState {next : Builder → Step (Option Meaning)}
    (rest : ∀ builder, Fits citation (.operand power calm asks) (next builder)) :
    Fits citation (.operand power calm asks) (Action.state >>= next) := .read rest

theorem ofExpression {next : Option Meaning → Step (Option Meaning)}
    (rest : ∀ value, Settles true (next value)) :
    Fits citation (.operand power true false) (Action.expression power >>= next) :=
  .operand rest nofun

theorem ofEntities {context : String} {span : Span} {value : Option Meaning}
    {next : List Ident × Span → Step (Option Meaning)}
    (rest : ∀ found, Fits citation (.operand power calm asks) (next found)) :
    Fits citation (.operand power calm asks) (needEntities context span value >>= next) := by
  unfold needEntities
  split
  · exact rest _
  · exact refuse _

end Fits

theorem terminator_fits :
    Fits citation (followingForm calm .terminator) (terminator token left) := by
  apply Fits.ofEnded rfl
  split
  · contradiction
  · split
    · exact .refuse _
    · exact .ofExpression fun right => join_settles _ _ _

theorem assignment_fits : Fits citation (followingForm calm .assign) (assignment token left) := by
  unfold assignment
  split
  · apply Fits.ofState
    intro builder
    split
    · exact .refuse _
    · apply Fits.ofExpression
      intro right
      apply (needValue_settles _ right).bind
      intro value
      exact (Settles.onBindings _).bind fun _ => .pure _
  · exact .refuse _

theorem property_fits : Fits citation (followingForm calm .colon) (property token left) := by
  apply Fits.ofEntities
  intro predicates
  apply Fits.ofExpression
  intro right
  exact (needEntities_settles _ _ right).bind fun _ => .pure _

theorem description_fits :
    ∃ calm, Fits citation (followingForm calm .arrow) (description citation token left) := by
  unfold description
  split
  · next idents place =>
    refine ⟨false, .operand ?_ fun _ => ⟨token, idents, place, rfl⟩⟩
    intro right
    apply (needProperties_settles _ _ right).bind
    intro properties
    exact (Settles.perform _).bind fun _ => .pure _
  · refine ⟨true, .ofExpression ?_⟩
    intro right
    exact (needProperties_settles _ _ right).bind fun _ => .pure _
  · exact ⟨true, .refuse _⟩

theorem label_fits : Fits citation (followingForm calm .bang) (label token left) := by
  unfold label
  split
  · apply Fits.ofExpression
    intro right
    apply (needEntities_settles _ _ right).bind
    rintro ⟨names, place⟩
    dsimp only
    split
    · exact .pure _
    · exact .refuse _
  · exact .refuse _
  · exact .refuse _

theorem reference_settles : Settles false (reference token) := by
  apply Settles.state.bind
  intro builder
  split
  · exact .pure _
  · exact .refuse _

theorem fits_opening {rule : Opening Builder Meaning}
    (found : (symbols citation).opening? token.kind = some rule) :
    Fits citation (openingForm token.kind) (rule token) := by
  rcases kind : token.kind
  all_goals
    simp only [Symbols.opening?, symbols, kind, Option.bind_some, Option.some.injEq,
      reduceCtorEq] at found
  · exact found ▸ .alone nofun (.pure _)
  · exact found ▸ .alone nofun reference_settles
  · exact found ▸ .alone nofun ((Settles.perform _).bind fun _ => .pure _)
  · exact found ▸ .group
  · exact found ▸ .ofEnded rfl (.ofExpression fun _ => .pure _)

theorem fits_following {rule : Following Builder Meaning}
    (found : (symbols citation).following? token.kind = some rule) :
    ∃ calm, Fits citation (followingForm calm token.kind) (rule token left) := by
  rcases kind : token.kind
  all_goals
    simp only [Symbols.following?, symbols, kind, Option.bind_some, Option.some.injEq,
      reduceCtorEq] at found
  · exact ⟨true, found ▸ assignment_fits⟩
  · exact found ▸ description_fits
  · exact ⟨true, found ▸ property_fits⟩
  · exact ⟨true, found ▸ label_fits⟩
  · exact ⟨true, found ▸ terminator_fits⟩

end FactGraph.Grammar
