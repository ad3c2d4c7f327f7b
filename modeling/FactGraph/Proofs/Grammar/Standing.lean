import FactGraph.Proofs.Grammar.Forms
import FactGraph.Proofs.Token.Values

/-! Descriptions that are open at a point of a source. A terminator ends the right side of a `=>`,
unless it stands where an operand should: then it begins an expression of its own within the right
side, which later terminators do not end. -/

namespace FactGraph.Grammar

open Precedence
open Token (Kind)

/-- How it stands with the right sides of the `=>` outside of parentheses. -/
inductive Standing where
  /-- None is open. -/
  | idle
  /-- One is open, and the next terminator with an operand before it is its end. -/
  | describing
  /-- One is open, and later terminators belong to it. -/
  | extended
  deriving DecidableEq, Repr

/-- Behind a token of the kind, which an operand stands before or not. An operand directly behind
another one is the beginning of another expression. -/
def Standing.past (operand : Bool) : Standing → Kind → Standing
  | describing, .terminator => if operand then idle else extended
  | idle, .arrow => describing
  | standing, kind => if operand && kind.carriesName then idle else standing

namespace Standing

variable {operand : Bool} {standing : Standing} {kind : Kind}

theorem past_extended (names : kind.carriesName = false) :
    extended.past operand kind = extended := by
  simp [past, names]

theorem past_eq (joins : kind ≠ .terminator) (names : kind.carriesName = false)
    (known : standing ≠ idle) :
    standing.past operand kind = standing := by
  cases standing with
  | idle => contradiction
  | describing => cases kind <;> first | contradiction | simp [past, Kind.carriesName]
  | extended => exact past_extended names

theorem past_name_eq (names : kind.carriesName = true) : standing.past false kind = standing := by
  cases kind <;> first | contradiction | (cases standing <;> rfl)

theorem past_terminator (known : standing ≠ idle) : standing.past false .terminator = extended := by
  cases standing <;> first | contradiction | rfl

theorem past_endOfInput : standing.past operand .endOfInput = standing := by
  cases standing <;> simp [past, Kind.carriesName]

theorem past_arrow : standing.past operand .arrow ≠ idle := by
  cases standing <;> simp [past, Kind.carriesName]

end Standing

/-- What is known at a point of a source: how many parentheses are open, whether an operand has just
ended, and how it stands with the right sides. -/
structure Watch where
  depth : Nat
  operand : Bool
  standing : Standing
  deriving DecidableEq, Repr

namespace Watch

def start : Watch := ⟨0, false, .idle⟩

def past (watch : Watch) (kind : Kind) : Watch where
  depth :=
    match kind with
    | .leftParen => watch.depth + 1
    | .rightParen => watch.depth - 1
    | _ => watch.depth
  operand := kind.carriesName || kind == .rightParen
  standing := if watch.depth = 0 then watch.standing.past watch.operand kind else watch.standing

def along (watch : Watch) (kinds : List Kind) : Watch := kinds.foldl past watch

theorem along_cons (watch : Watch) (kind : Kind) (kinds : List Kind) :
    watch.along (kind :: kinds) = (watch.past kind).along kinds := rfl

theorem along_append (watch : Watch) (first second : List Kind) :
    watch.along (first ++ second) = (watch.along first).along second := List.foldl_append

/-- Some right side is open and stays open: no terminator ends it, or one would end it, but not what
is being read where it is `tight`. -/
def Waits (tight : Prop) (watch : Watch) : Prop :=
  watch.standing = .extended ∨ tight ∧ watch.standing ≠ .idle

/-- What reading an expression does not change. An expression is `tight` if terminators end it, and
it is read from a `fresh` start. -/
structure Keeps (fresh tight : Prop) (watch after : Watch) : Prop where
  depth : after.depth = watch.depth
  inside : watch.depth ≠ 0 → after.standing = watch.standing
  extended : fresh → watch.standing = .extended → after.standing = .extended
  open_ : fresh → tight → watch.standing ≠ .idle → after.standing ≠ .idle

namespace Keeps

variable {fresh tight : Prop} {watch middle after : Watch}

theorem refl (watch : Watch) : watch.Keeps fresh tight watch :=
  ⟨rfl, fun _ => rfl, fun _ => id, fun _ _ => id⟩

theorem trans (first : watch.Keeps fresh tight middle) (second : middle.Keeps True tight after) :
    watch.Keeps fresh tight after where
  depth := second.depth.trans first.depth
  inside deeper := (second.inside (first.depth ▸ deeper)).trans (first.inside deeper)
  extended clear standing := second.extended trivial (first.extended clear standing)
  open_ clear bound standing := second.open_ trivial bound (first.open_ clear bound standing)

theorem waits (keeps : watch.Keeps fresh tight after) (clear : fresh) (waits : watch.Waits tight) :
    after.Waits tight := by
  rcases waits with standing | ⟨bound, standing⟩
  · exact .inl (keeps.extended clear standing)
  · exact .inr ⟨bound, keeps.open_ clear bound standing⟩

end Keeps

structure Reads (fresh tight : Prop) (power : Nat) (calm : Bool) (watch after : Watch) : Prop where
  keeps : watch.Keeps fresh tight after
  operand : after.operand = false
  waits : watch.depth = 0 → fresh → watch.Waits tight → after.Waits (Power.terminator ≤ power)
  describes : watch.depth = 0 → calm = false → after.Waits (Power.terminator ≤ power)

def Enters (fresh tight : Prop) (watch after : Watch) : Form → Prop
  | .leaf => watch.Keeps fresh tight after
  | .group => after = { watch with depth := watch.depth + 1, operand := false }
  | .operand power calm _ => watch.Reads fresh tight power calm after

variable {citation power : Nat} {kind : Kind} {watch : Watch}

theorem standing_past (watch : Watch) (kind : Kind) :
    (watch.past kind).standing =
      if watch.depth = 0 then watch.standing.past watch.operand kind else watch.standing := rfl

theorem keeps_past {fresh tight : Prop} (opens : kind ≠ .leftParen) (closes : kind ≠ .rightParen)
    (extended : fresh → Standing.past watch.operand .extended kind = .extended)
    (open_ : fresh → tight → ∀ standing : Standing, standing ≠ .idle →
      standing.past watch.operand kind ≠ .idle) :
    watch.Keeps fresh tight (watch.past kind) where
  depth := by cases kind <;> first | rfl | contradiction
  inside deeper := if_neg deeper
  extended clear standing := by
    rw [standing_past, standing, extended clear, ite_self]
  open_ clear bound standing := by
    rw [standing_past]
    split
    · exact open_ clear bound _ standing
    · exact standing

theorem enters_opening {rule : Opening Builder Meaning}
    (found : (symbols citation).opening? kind = some rule) (watch : Watch) (tight : Prop) :
    watch.Enters (watch.operand = false) tight (watch.past kind) (openingForm kind) := by
  cases kind with
  | target | reference | identifier =>
    refine keeps_past (by decide) (by decide) ?_ ?_
    · intro clear
      rw [clear, Standing.past_name_eq rfl]
    · intro clear _ standing before
      rwa [clear, Standing.past_name_eq rfl]
  | leftParen =>
    have same : watch.standing.past watch.operand .leftParen = watch.standing := by
      cases watch.standing <;> simp [Standing.past, Kind.carriesName]
    simp [Enters, openingForm, past, same, Kind.carriesName]
  | terminator =>
    have keeps : watch.Keeps (watch.operand = false) tight (watch.past .terminator) := by
      refine keeps_past (by decide) (by decide) ?_ ?_
      · intro _
        exact Standing.past_extended rfl
      · intro clear _ standing before
        rw [clear, Standing.past_terminator before]
        exact nofun
    refine ⟨keeps, rfl, ?_, nofun⟩
    intro outside clear waits
    have before : watch.standing ≠ .idle := by
      rcases waits with standing | ⟨_, standing⟩
      · exact standing ▸ nofun
      · exact standing
    exact .inl (by rw [standing_past, if_pos outside, clear, Standing.past_terminator before])
  | _ => simp [Symbols.opening?, symbols] at found

theorem reads_operator {tight : Prop} {right : Nat} {calm : Bool} (opens : kind ≠ .leftParen)
    (closes : kind ≠ .rightParen) (joins : kind ≠ .terminator) (names : kind.carriesName = false)
    (ends : Power.terminator ≤ right) (describes : calm = false → kind = .arrow) :
    watch.Reads True tight right calm (watch.past kind) := by
  have keeps : watch.Keeps True tight (watch.past kind) := by
    apply keeps_past opens closes
    · intro _
      exact Standing.past_extended names
    · intro _ _ standing known
      rwa [Standing.past_eq joins names known]
  refine ⟨keeps, ?_, ?_, ?_⟩
  · cases kind <;> first | rfl | contradiction
  · intro _ _ waits
    rcases waits with standing | ⟨bound, standing⟩
    · exact .inl (keeps.extended trivial standing)
    · exact .inr ⟨ends, keeps.open_ trivial bound standing⟩
  · intro outside moves
    obtain rfl := describes moves
    refine .inr ⟨ends, ?_⟩
    rw [standing_past, if_pos outside]
    exact Standing.past_arrow

theorem enters_following {rule : Following Builder Meaning}
    (found : (symbols citation).following? kind = some rule)
    (tighter : power < (symbols citation).power kind) (watch : Watch) (calm : Bool) :
    watch.Enters True (Power.terminator ≤ power) (watch.past kind) (followingForm calm kind) := by
  cases kind with
  | terminator =>
    have loose : ¬ Power.terminator ≤ power := Nat.not_le.mpr tighter
    have keeps : watch.Keeps True (Power.terminator ≤ power) (watch.past .terminator) := by
      refine keeps_past (by decide) (by decide) ?_ ?_
      · intro _
        exact Standing.past_extended rfl
      · intro _ tight
        exact absurd tight loose
    refine ⟨keeps, rfl, ?_, nofun⟩
    rintro _ clear (standing | ⟨tight, _⟩)
    · exact .inl (keeps.extended clear standing)
    · exact absurd tight loose
  | arrow => exact reads_operator (by decide) (by decide) (by decide) rfl (by decide) fun _ => rfl
  | assign | colon | bang =>
    exact reads_operator (by decide) (by decide) (by decide) rfl (by decide) nofun
  | _ => simp [Symbols.following?, symbols] at found

end Watch

def kindsOf (outcomes : List (Except Fault Token)) : List Kind :=
  outcomes.filterMap fun outcome => outcome.toOption.map (·.kind)

def Standing.ofSource (source : String) : Standing :=
  (Watch.start.along (kindsOf (Token.Cursor.ofSource source).tokens)).standing

end FactGraph.Grammar
