import FactGraph.Proofs.Grammar.Standing

/-! Operands that a terminator begins. Outside of parentheses such an operand is not ended by any
later terminator, but goes on up to the end of the source, or to an operand directly behind another
one, which begins a new expression. -/

namespace FactGraph

def Token.Kind.asksOperand : Token.Kind → Bool
  | .assign | .arrow | .colon | .bang | .terminator => true
  | _ => false

namespace Grammar

open Precedence
open Token (Kind)

/-- What is known at a point of a source: how many parentheses are open, whether an operand is due
or has just ended, and whether one that a terminator has begun outside of parentheses is still being
read. -/
structure Trail where
  depth : Nat
  due : Bool
  operand : Bool
  held : Bool
  deriving DecidableEq, Repr

namespace Trail

def start : Trail := ⟨0, false, false, false⟩

def past (trail : Trail) (kind : Kind) : Trail where
  depth :=
    match kind with
    | .leftParen => trail.depth + 1
    | .rightParen => trail.depth - 1
    | _ => trail.depth
  due := kind.asksOperand
  operand := kind.carriesName || kind == .rightParen
  held :=
    if trail.depth = 0 then
      if kind = .terminator then trail.held || trail.due else trail.held &&
        !(kind.carriesName && trail.operand)
    else trail.held

def along (trail : Trail) (kinds : List Kind) : Trail := kinds.foldl past trail

theorem along_cons (trail : Trail) (kind : Kind) (kinds : List Kind) :
    trail.along (kind :: kinds) = (trail.past kind).along kinds := rfl

theorem along_append (trail : Trail) (first second : List Kind) :
    trail.along (first ++ second) = (trail.along first).along second := List.foldl_append

/-- What reading an expression does not change, if it is read from a `fresh` start. -/
structure Keeps (fresh : Prop) (trail after : Trail) : Prop where
  depth : after.depth = trail.depth
  inside : trail.depth ≠ 0 → after.held = trail.held
  held : fresh → trail.held = true → after.held = true

namespace Keeps

variable {fresh : Prop} {trail middle after : Trail}

theorem refl (trail : Trail) : trail.Keeps fresh trail := ⟨rfl, fun _ => rfl, fun _ => id⟩

theorem trans (first : trail.Keeps fresh middle) (second : middle.Keeps True after) :
    trail.Keeps fresh after where
  depth := second.depth.trans first.depth
  inside deeper := (second.inside (first.depth ▸ deeper)).trans (first.inside deeper)
  held clear before := second.held trivial (first.held clear before)

theorem imp {clear : Prop} (keeps : trail.Keeps fresh after) (implies : clear → fresh) :
    trail.Keeps clear after :=
  ⟨keeps.depth, keeps.inside, fun fresh => keeps.held (implies fresh)⟩

end Keeps

variable {fresh clear : Prop} {trail inner : Trail} {kind : Kind}

theorem held_past (trail : Trail) (kind : Kind) : (trail.past kind).held =
    if trail.depth = 0 then
      if kind = .terminator then trail.held || trail.due else trail.held &&
        !(kind.carriesName && trail.operand)
    else trail.held := rfl

theorem keeps_past (opens : kind ≠ .leftParen) (closes : kind ≠ .rightParen)
    (apart : fresh → kind.carriesName = true → trail.operand = false) :
    trail.Keeps fresh (trail.past kind) where
  depth := by cases kind <;> first | rfl | contradiction
  inside deeper := if_neg deeper
  held clear before := by
    rw [held_past, before]
    cases named : kind.carriesName with
    | false => simp
    | true => simp [apart clear named]

theorem held_past_terminator (outside : trail.depth = 0) (due : trail.due = true) :
    (trail.past .terminator).held = true := by
  simp [held_past, outside, due]

theorem keeps_group (keeps : (trail.past .leftParen).Keeps clear inner) :
    trail.Keeps fresh (inner.past .rightParen) := by
  have depth : inner.depth = trail.depth + 1 := keeps.depth
  have inside : inner.held = (trail.past .leftParen).held := keeps.inside (Nat.succ_ne_zero _)
  have same : (inner.past .rightParen).held = trail.held := by
    rw [held_past, depth, if_neg (Nat.succ_ne_zero _), inside, held_past]
    simp [Kind.carriesName]
  exact ⟨by simp [past, depth], fun _ => same, fun _ before => same.trans before⟩

def Enters (fresh : Prop) (trail after : Trail) : Form → Prop
  | .leaf => trail.Keeps fresh after
  | .group => after = trail.past .leftParen
  | .operand power _ _ =>
    trail.Keeps fresh after ∧ 0 < power ∧ after.due = true ∧ after.operand = false

variable {citation : Nat}

theorem enters_opening {rule : Opening Builder Meaning}
    (found : (symbols citation).opening? kind = some rule) (other : kind ≠ .terminator)
    (trail : Trail) :
    trail.Enters (trail.operand = false) (trail.past kind) (openingForm kind) := by
  cases kind with
  | target | reference | identifier => exact keeps_past (by decide) (by decide) fun fresh _ => fresh
  | leftParen => rfl
  | terminator => contradiction
  | _ => simp [Symbols.opening?, symbols] at found

theorem enters_following {rule : Following Builder Meaning}
    (found : (symbols citation).following? kind = some rule) (trail : Trail) (calm : Bool) :
    trail.Enters True (trail.past kind) (followingForm calm kind) := by
  cases kind with
  | assign | arrow | colon | bang | terminator =>
    exact ⟨keeps_past (by decide) (by decide) nofun, by decide, rfl, rfl⟩
  | _ => simp [Symbols.following?, symbols] at found

end Trail

def Trail.ofSource (source : String) : Trail :=
  Trail.start.along (kindsOf (Token.Cursor.ofSource source).tokens)

end Grammar

end FactGraph
