import FactGraph.Compilation
import FactGraph.Proofs.Graph.Walk
import FactGraph.Proofs.Precedence.Parallel

/-! Limits only cut runs off. A run that does not come to its limits goes on in the same way under
any higher ones, to the same answer and the same fault. -/

namespace FactGraph

def Failing.atLimit : Failing := ⟨Eq, fun fault => fault.isLimit = true⟩

theorem Attempt.Parallel.refl {σ α : Type} (step : Attempt σ α) :
    Attempt.Parallel .atLimit Eq step step Eq := by
  rintro state _ rfl
  rcases step state with ⟨_ | value, reached⟩
  · exact .failed rfl rfl
  · exact .answered rfl rfl

namespace Property

variable {most most' : Nat}

/-- Under the lower limit, a property is refused for being too deep, or for the same reason as under
the higher one. -/
theorem obstacle?_within (within : most ≤ most') (depth : Nat) (span : Span) (property : Property)
    (graph : Graph) :
    property.obstacle? most depth span graph = some (.limit (.citation most)) ∨
      property.obstacle? most depth span graph = property.obstacle? most' depth span graph := by
  by_cases deep : most < depth
  · left
    rw [obstacle?, if_pos deep]
  · right
    have shallow : ¬ most' < depth := by omega
    rw [obstacle?, obstacle?, if_neg deep, if_neg shallow]

theorem walk_parallel (within : most ≤ most') (sites : List Site) :
    Attempt.Parallel .atLimit Eq (walk most sites) (walk most' sites) Eq := by
  induction sites with
  | nil => exact .refl _
  | cons site rest ih =>
    rintro graph _ rfl
    rcases obstacle?_within within site.depth site.span site.property graph with deep | agreed
    · rw [walk_of_obstacle deep]
      exact .alone rfl
    · cases met : site.property.obstacle? most site.depth site.span graph with
      | some fault =>
        have met' := agreed.symm.trans met
        rw [walk_of_obstacle met, walk_of_obstacle met']
        exact .failed rfl rfl
      | none =>
        have met' := agreed.symm.trans met
        rw [walk_of_clear met, walk_of_clear met']
        exact ih _ _ rfl

theorem attach_parallel (within : most ≤ most') (span : Span) (subject : Ident)
    (property : Property) :
    Attempt.Parallel .atLimit Eq (attach most span subject property)
      (attach most' span subject property) Eq := by
  rintro graph _ rfl
  have walked := walk_parallel within (property.sites graph.nextStatement 0 span subject)
  rw [attach, attach, attachAt_eq_walk, attachAt_eq_walk]
  exact walked.bind (fun _ _ _ => .pure rfl) graph graph rfl

theorem attachPairs_parallel (within : most ≤ most') (span : Span)
    (pairs : List (Ident × Property)) :
    Attempt.Parallel .atLimit Eq (attachPairs most span pairs)
      (attachPairs most' span pairs) Eq := by
  induction pairs with
  | nil => exact .refl _
  | cons pair rest ih => exact (attach_parallel within span pair.1 pair.2).bind fun _ _ _ => ih

end Property

theorem Builder.onGraph_parallel {α : Type} {step other : Attempt Graph α}
    (steps : Attempt.Parallel .atLimit Eq step other Eq) :
    Attempt.Parallel .atLimit Eq (onGraph step) (onGraph other) Eq := by
  rintro builder _ rfl
  have ending := steps builder.graph builder.graph rfl
  unfold onGraph
  revert ending
  generalize step builder.graph = outcome
  generalize other builder.graph = outcome'
  intro ending
  cases ending with
  | answered answers states =>
    subst answers states
    exact .answered rfl rfl
  | failed faults states =>
    subst states
    exact .failed faults rfl
  | alone stopped => exact .alone stopped

namespace Precedence

variable {σ ν α : Type}

namespace Likeness

def atLimit : Likeness σ ν := { Failing.atLimit with state := Eq, meaning := Eq, token := Eq }

theorem atLimit_fair : (atLimit : Likeness σ ν).Fair where
  kind := by
    rintro token _ rfl
    rfl
  pastEnd := by
    rintro token _ rfl
    rfl
  mismatch := by
    rintro expected token _ rfl
    rfl
  unexpected := by
    rintro context expected token _ rfl
    rfl
  internal _ := rfl

end Likeness

theorem Action.Parallel.refl {same : α → α → Prop} (reflexive : ∀ value, same value value)
    (action : Action σ ν α) : action.Parallel .atLimit same action := by
  induction action with
  | give value => exact .give (reflexive value)
  | refuse fault => exact .refuse rfl
  | operand power next ih =>
    apply Parallel.operand
    intro value other related
    obtain rfl := rel_eq_iff.mp related
    exact ih value
  | close kind next ih => exact .close ih
  | atEnd next ih => exact .atEnd ih
  | read next ih =>
    apply Parallel.read
    rintro state _ rfl
    exact ih state
  | write state next ih => exact .write rfl ih

theorem Symbol.Parallel.refl (kind : Token.Kind) (symbol : Symbol σ ν) :
    symbol.Parallel .atLimit kind symbol where
  power := rfl
  opening := by
    cases symbol.opening with
    | none => exact .none
    | some rule =>
      apply Option.Rel.some
      rintro token _ _ rfl
      exact .refl (fun _ => rel_eq_iff.mpr rfl) _
  following := by
    cases symbol.following with
    | none => exact .none
    | some rule =>
      apply Option.Rel.some
      rintro token _ left left' _ rfl lefts
      obtain rfl := rel_eq_iff.mp lefts
      exact .refl (fun _ => rel_eq_iff.mpr rfl) _

theorem Reader.Alike.refl (reader : Reader σ) : Alike (.atLimit : Likeness σ ν) reader reader where
  state := rfl
  current := rel_eq_iff.mpr rfl
  pending := by
    apply List.forall₂_same.mpr
    intro due _
    cases due with
    | ok token => exact .token rfl
    | error fault => exact .fault rfl

theorem Reader.Alike.eq_of_atLimit {reader other : Reader σ}
    (alike : Alike (.atLimit : Likeness σ ν) reader other) :
    reader = other := by
  rcases reader with ⟨pending, current, state⟩
  rcases other with ⟨pending', current', state'⟩
  have dues : List.Forall₂ Eq pending pending' := by
    refine alike.pending.imp ?_
    intro _ _ due
    cases due with
    | token same | fault same => exact congrArg _ same
  rw [List.forall₂_eq_eq_eq] at dues
  obtain rfl : state = state' := alike.state
  obtain rfl : current = current' := rel_eq_iff.1 alike.current
  rw [dues]

end Precedence

namespace Grammar

open Precedence

variable {citation citation' : Nat}

theorem Step.refl (step : Step (Option Meaning)) : step.Parallel .atLimit (Option.Rel Eq) step :=
  .refl (fun _ => rel_eq_iff.mpr rfl) step

theorem description_parallel (within : citation ≤ citation') (token : Token)
    (left : Option Meaning) :
    (description citation token left).Parallel .atLimit (Option.Rel Eq)
      (description citation' token left) := by
  rcases left with _ | ⟨idents, place⟩ | _ | _ | _
  case some.entities =>
    apply (Step.refl _).bind
    intro right _ rights
    obtain rfl := rel_eq_iff.mp rights
    apply (Action.Parallel.refl (fun _ => rfl) (needProperties _ _ right)).bind
    rintro properties _ rfl
    have attached := Property.attachPairs_parallel within token.span
      (idents.flatMap fun subject => properties.map (subject, ·))
    apply (Action.Parallel.perform (Builder.onGraph_parallel attached)).bind
    intro _ _ _
    exact Step.refl _
  all_goals exact Step.refl _

theorem symbols_parallel (within : citation ≤ citation') :
    (symbols citation).Parallel .atLimit (symbols citation') := by
  intro kind
  by_cases describes : kind = .arrow
  · subst describes
    simp only [symbols]
    refine .some ⟨rfl, .none, .some ?_⟩
    rintro token _ left left' _ rfl lefts
    obtain rfl := rel_eq_iff.mp lefts
    exact description_parallel within token left
  · have same : symbols citation kind = symbols citation' kind := by
      cases kind <;> first | contradiction | simp only [symbols]
    rw [same]
    cases symbols citation' kind with
    | none => exact .none
    | some symbol => exact .some (.refl kind symbol)

def Halted {α σ : Type} (ending : Except Fault α × σ) : Prop :=
  ∃ limit, ending.1 = .error (.limit limit)

theorem expressionWithin_within {room room' : Nat} (within : citation ≤ citation')
    (le : room ≤ room') (nesting nesting' power : Nat) (reader : Reader Builder) :
    Halted (Reader.expressionWithin (symbols citation) nesting room power reader) ∨
      Reader.expressionWithin (symbols citation) nesting room power reader =
        Reader.expressionWithin (symbols citation') nesting' room' power reader := by
  have read := Reader.expressionWithin_parallel Likeness.atLimit_fair (symbols_parallel within)
    (.less le rfl : Reader.Roomy _ nesting nesting' _ _) power reader reader (.refl reader)
  revert read
  generalize Reader.expressionWithin (symbols citation) nesting room power reader = outcome
  generalize Reader.expressionWithin (symbols citation') nesting' room' power reader = outcome'
  intro read
  cases read with
  | answered answers readers =>
    obtain rfl := readers.eq_of_atLimit
    exact .inr (by rw [rel_eq_iff.1 answers])
  | failed faults readers =>
    obtain rfl := readers.eq_of_atLimit
    exact .inr (congrArg (fun fault => (Except.error fault, _)) faults)
  | @alone fault _ _ stopped =>
    left
    cases fault with
    | limit reached => exact ⟨reached, rfl⟩
    | _ => contradiction

theorem expressionWithin_settled {nesting room power : Nat} {reader after : Reader Builder}
    {value : Option Meaning}
    (read : Reader.expressionWithin (symbols citation) nesting room power reader =
      (.ok value, after))
    (citation' nesting' room' : Nat) :
    Halted (Reader.expressionWithin (symbols citation') nesting' room' power reader) ∨
      Reader.expressionWithin (symbols citation') nesting' room' power reader =
        (.ok value, after) := by
  have upward : Reader.expressionWithin (symbols (max citation citation')) nesting (max room room')
      power reader = (.ok value, after) := by
    have within :=
      expressionWithin_within (Nat.le_max_left citation citation')
        (Nat.le_max_left room room') nesting
      nesting power reader
    rw [read] at within
    rcases within with ⟨limit, stopped⟩ | same
    · cases stopped
    · exact same.symm
  rw [← upward]
  exact expressionWithin_within (Nat.le_max_right citation citation') (Nat.le_max_right room room')
    _ _ power reader

end Grammar

namespace Compilation

open Precedence

variable {limits others : Limits}

/-- Under the lower limits a run stops at one of them, or it is the run under the higher ones, also
in what it has built when it fails. -/
theorem parseFrom_within (within : limits.Within others) (builder : Builder) (source : String) :
    (∃ reached, (parseFrom builder limits source).1 = .error (.limit reached)) ∨
      parseFrom builder limits source = parseFrom builder others source := by
  have parsed := Reader.parse_parallel Likeness.atLimit_fair (Grammar.symbols_parallel within.2)
    (.less within.1 rfl) (Reader.ofSource source builder) (Reader.ofSource source builder) (.refl _)
  unfold parseFrom
  revert parsed
  generalize Reader.parse (Grammar.symbols limits.citation) limits.nesting _ = outcome
  generalize Reader.parse (Grammar.symbols others.citation) others.nesting _ = outcome'
  intro parsed
  cases parsed with
  | answered answers readers =>
    right
    obtain rfl := List.forall₂_eq_eq_eq ▸ answers
    exact congrArg _ readers.state
  | failed faults readers =>
    right
    rw [faults]
    exact congrArg _ readers.state
  | @alone fault _ _ stopped =>
    left
    cases fault with
    | limit reached => exact ⟨reached, rfl⟩
    | _ => contradiction

theorem ofSource_of_error {source : String} {fault : Fault}
    (stopped : (parseFrom Builder.empty limits source).1 = .error fault) :
    ofSource source limits = .error fault := by
  rw [ofSource]
  split
  · next run =>
    rw [run] at stopped
    contradiction
  · next run =>
    rw [run] at stopped
    exact congrArg _ (Except.error.inj stopped)

theorem exists_of_isOk {source : String} (succeeds : (ofSource source limits).isOk = true) :
    (∃ compilation, ofSource source limits = .ok compilation) ∧
    ∀ limit, ofSource source limits ≠ .error (.limit limit) := by
  cases compiled : ofSource source limits with
  | ok compilation => exact ⟨⟨compilation, rfl⟩, nofun⟩
  | error fault =>
    rw [compiled] at succeeds
    contradiction

/-- Under higher limits, a source comes to the same compilation or the same fault as under lower
ones, unless it has been stopped by these. What compiles under the lower limits compiles under the
higher. -/
theorem ofSource_within (source : String) (within : limits.Within others) :
    ((∀ reached, ofSource source limits ≠ .error (.limit reached)) →
        ofSource source others = ofSource source limits) ∧
      ∀ compilation, ofSource source limits = .ok compilation →
      ofSource source others = .ok compilation := by
  have goes_on : (∀ reached, ofSource source limits ≠ .error (.limit reached)) →
      ofSource source others = ofSource source limits := by
    intro free
    rcases parseFrom_within within Builder.empty source with ⟨reached, stopped⟩ | same
    · exact absurd (ofSource_of_error stopped) (free reached)
    · rw [ofSource, ofSource, same]
  refine ⟨goes_on, ?_⟩
  intro compilation compiled
  have free (reached : Limit) : ofSource source limits ≠ .error (.limit reached) := by
    rw [compiled]
    exact nofun
  rw [goes_on free, compiled]

/-- Four expressions within each other, and one citation: just enough is enough. -/
theorem ofSource_within_standard :
    Limits.Within ⟨4, 1⟩ .standard ∧
      ∃ compilation, ofSource "a => b : (c) => d : e" ⟨4, 1⟩ = .ok compilation ∧
        ofSource "a => b : (c) => d : e" .standard = .ok compilation := by
  have within : Limits.Within ⟨4, 1⟩ .standard := ⟨by decide, by decide⟩
  have succeeds : (ofSource "a => b : (c) => d : e" ⟨4, 1⟩).isOk = true := by decide +kernel
  cases compiled : ofSource "a => b : (c) => d : e" ⟨4, 1⟩ with
  | error fault =>
    rw [compiled] at succeeds
    contradiction
  | ok compilation =>
    exact ⟨within, compilation, rfl, (ofSource_within _ within).2 compilation compiled⟩

end Compilation

end FactGraph
