import FactGraph.Proofs.Precedence.Contract
import FactGraph.Proofs.Precedence.Course
import FactGraph.Proofs.Precedence.Parallel
import FactGraph.Proofs.Precedence.Running

/-! Two runs over like tokens, where a row of tokens may stand in the first for one token of the
other. It may do so only where an operand is asked for, so that no rule ever sees the row from
inside an expression. -/

namespace FactGraph.Precedence

variable {σ ν α β γ δ : Type} {like : Likeness σ ν} {stands : List Token → Token → Prop}
  {asked : Bool}

/-- What two readers find before them. Rows stand for tokens only where an operand is `asked`
for. -/
inductive Spelt (like : Likeness σ ν) (stands : List Token → Token → Prop) :
    (asked : Bool) → List (Except Fault Token) → List (Except Fault Token) → Prop
  | nil {asked : Bool} : Spelt like stands asked [] []
  | fault {asked : Bool} {fault other : Fault} {rest later : List (Except Fault Token)}
      (faults : like.together fault other) :
      Spelt like stands asked (.error fault :: rest) (.error other :: later)
  | token {asked : Bool} {token other : Token} {rest later : List (Except Fault Token)}
      (tokens : like.token token other) (behind : Spelt like stands token.kind.asks rest later) :
      Spelt like stands asked (.ok token :: rest) (.ok other :: later)
  | row {first : Token} {row : List Token} {other : Token} {rest later : List (Except Fault Token)}
      (stand : stands (first :: row) other) (behind : Spelt like stands false rest later) :
      Spelt like stands true (.ok first :: (row.map .ok ++ rest)) (.ok other :: later)

namespace Reader

inductive Aligned (like : Likeness σ ν) (stands : List Token → Token → Prop) :
    (asked : Bool) → Reader σ → Reader σ → Prop
  | token {asked : Bool} {token other : Token} {rest later : List (Except Fault Token)}
      {state state' : σ} (states : like.state state state') (tokens : like.token token other)
      (behind : Spelt like stands token.kind.asks rest later) :
      Aligned like stands asked ⟨rest, some token, state⟩ ⟨later, some other, state'⟩
  | row {first : Token} {row : List Token} {other : Token} {rest later : List (Except Fault Token)}
      {state state' : σ} (states : like.state state state') (stand : stands (first :: row) other)
      (behind : Spelt like stands false rest later) :
      Aligned like stands true ⟨row.map .ok ++ rest, some first, state⟩ ⟨later, some other, state'⟩

/-- How two steps of readers have ended. Nothing is said of the readers where there is a fault. -/
inductive Ends (like : Likeness σ ν) (reached : Reader σ → Reader σ → Prop) (same : α → β → Prop) :
    Except Fault α × Reader σ → Except Fault β × Reader σ → Prop
  | answered {value : α} {other : β} {reader reader' : Reader σ} (answers : same value other)
      (readers : reached reader reader') :
      Ends like reached same (.ok value, reader) (.ok other, reader')
  | failed {fault other : Fault} {reader reader' : Reader σ} (faults : like.together fault other) :
      Ends like reached same (.error fault, reader) (.error other, reader')
  | alone {fault : Fault} {reader : Reader σ} {ending : Except Fault β × Reader σ}
      (stopped : like.alone fault) :
      Ends like reached same (.error fault, reader) ending

variable {reached further : Reader σ → Reader σ → Prop} {same : α → β → Prop} {next : γ → δ → Prop}
  {reader other : Reader σ}

theorem Ends.of_alone {ending : Except Fault α × Reader σ} {ending' : Except Fault β × Reader σ}
    {fault : Fault} (failed : ending.1 = .error fault) (stopped : like.alone fault) :
    Ends like reached same ending ending' := by
  rcases ending with ⟨_, after⟩
  obtain rfl : _ = _ := failed
  exact .alone stopped

theorem Ends.of_failed {ending : Except Fault α × Reader σ} {ending' : Except Fault β × Reader σ}
    {fault fault' : Fault} (failed : ending.1 = .error fault) (failed' : ending'.1 = .error fault')
    (faults : like.together fault fault') :
    Ends like reached same ending ending' := by
  rcases ending with ⟨_, after⟩
  rcases ending' with ⟨_, after'⟩
  obtain rfl : _ = _ := failed
  obtain rfl : _ = _ := failed'
  exact .failed faults

/-- The steps that follow may use which answer the first run has come to, and where. -/
theorem Ends.bind {step : Attempt (Reader σ) α} {step' : Attempt (Reader σ) β}
    {rest : α → Attempt (Reader σ) γ} {rest' : β → Attempt (Reader σ) δ}
    (first : Ends like reached same (step reader) (step' other))
    (second : ∀ value value' after after', step reader = (.ok value, after) → same value value' →
      reached after after' → Ends like further next (rest value after) (rest' value' after')) :
    Ends like further next ((step >>= rest) reader) ((step' >>= rest') other) := by
  rw [Attempt.bind_apply, Attempt.bind_apply]
  revert first second
  generalize step reader = outcome
  generalize step' other = outcome'
  intro first second
  cases first with
  | answered answers readers => exact second _ _ _ _ rfl answers readers
  | failed faults => exact .failed faults
  | alone stopped => exact .alone stopped

namespace Aligned

theorem state (aligned : Aligned like stands asked reader other) :
    like.state reader.state other.state := by
  cases aligned <;> assumption

theorem with_state {state state' : σ} (aligned : Aligned like stands asked reader other)
    (states : like.state state state') :
    Aligned like stands asked { reader with state } { other with state := state' } := by
  cases aligned with
  | token _ tokens behind => exact .token states tokens behind
  | row _ stand behind => exact .row states stand behind

theorem asks (aligned : Aligned like stands false reader other) :
    Aligned like stands true reader other := by
  cases aligned with
  | token states tokens behind => exact .token states tokens behind

end Aligned

theorem forall₂_toList {value value' : Option ν} (values : like.operand value value') :
    List.Forall₂ like.meaning value.toList value'.toList := by
  cases values with
  | none => exact .nil
  | some meanings => exact .cons meanings .nil

abbrev EndsAlike (like : Likeness σ ν) :
    Except Fault (List ν) × Reader σ → Except Fault (List ν) × Reader σ → Prop :=
  Ends like (fun after after' => like.state after.state after'.state) (List.Forall₂ like.meaning)

def sequel (symbols : Symbols σ ν) (nesting : Nat) (step : Attempt (Reader σ) (Option ν)) :
    Attempt (Reader σ) (List ν) := do
  let value ← step
  let values ← sequence symbols nesting
  return value.toList ++ values

theorem sequel_ends_of {symbols others : Symbols σ ν} {nesting : Nat}
    {step step' : Attempt (Reader σ) (Option ν)}
    (first : Ends like (Aligned like stands false) like.operand (step reader) (step' other))
    (later : ∀ value after after', step reader = (.ok value, after) →
      Aligned like stands false after after' →
      EndsAlike like (sequence symbols nesting after) (sequence others nesting after')) :
    EndsAlike like (sequel symbols nesting step reader) (sequel others nesting step' other) := by
  apply first.bind
  intro value _ _ _ read answers aligned
  apply (later value _ _ read aligned).bind
  intro _ _ _ _ _ values states
  exact .answered (List.rel_append (forall₂_toList answers) values) states

theorem advance_of_free {symbols : Symbols σ ν} {expected : Option Token.Kind}
    (complete : Complete symbols) (free : reader.obstacle? expected = none) :
    advance symbols expected reader =
      match reader.pending with
      | [] => (.error (.internal "token stream ended without end of input"), reader)
      | .error fault :: rest => (.error fault, { reader with pending := rest })
      | .ok token :: rest => (.ok token, ⟨rest, some token, reader.state⟩) := by
  rcases reader with ⟨_ | ⟨_ | _, _⟩, _, _⟩ <;> simp only [advance, free, complete _, if_true]

theorem advance_ends_of_free {symbols others : Symbols σ ν} {expected expected' : Option Token.Kind}
    {token first : Token} {rest later : List (Except Fault Token)} {state state' : σ}
    {same : Token → Token → Prop} (fair : like.Fair) (complete : Complete symbols)
    (complete' : Complete others) (free : obstacle? expected ⟨rest, some token, state⟩ = none)
    (free' : obstacle? expected' ⟨later, some first, state'⟩ = none)
    (states : like.state state state') (behind : Spelt like stands asked rest later)
    (fine : ∀ next next', same next next') :
    Ends like (Aligned like stands asked) same (advance symbols expected ⟨rest, some token, state⟩)
      (advance others expected' ⟨later, some first, state'⟩) := by
  rw [advance_of_free complete free, advance_of_free complete' free']
  cases behind with
  | nil => exact .failed (fair.internal _)
  | fault faults => exact .failed faults
  | token tokens behind => exact .answered (fine _ _) (.token states tokens behind)
  | row stand behind => exact .answered (fine _ _) (.row states stand behind)

def primary (symbols : Symbols σ ν) (nesting room : Nat) : Attempt (Reader σ) (Option ν) :=
  takeOpening symbols >>= fun found =>
  run symbols (expressionWithin symbols nesting room) (found.2 found.1)

theorem expressionWithin_eq_primary (symbols : Symbols σ ν) (nesting room power : Nat) :
    expressionWithin symbols nesting (room + 1) power =
      primary symbols nesting room >>=
      follow symbols (expressionWithin symbols nesting room) power := by
  rw [expressionWithin_succ, primary, bind_assoc]

/-- What makes it right that rows stand for tokens: read on its own, a row comes to what the token
comes to. -/
structure Replaces (like : Likeness σ ν) (stands : List Token → Token → Prop)
    (symbols others : Symbols σ ν) (nesting : Nat) : Prop where
  fair : like.Fair
  tables : symbols.Parallel like others
  asks : symbols.Asks
  complete : Complete symbols
  limits : like.together (.limit (.nesting nesting)) (.limit (.nesting nesting))
  goes_on {first : Token} {row : List Token} {other : Token} : stands (first :: row) other →
    first.kind.endsConstruct = false ∧ other.kind.endsConstruct = false
  reads {first : Token} {row : List Token} {other : Token} {rest later : List (Except Fault Token)}
      {state state' : σ}
    (room : Nat) :
      stands (first :: row) other → like.state state state' → Spelt like stands false rest later →
    Ends like (Aligned like stands false) like.operand
      (primary symbols nesting room ⟨row.map .ok ++ rest, some first, state⟩)
      (primary others nesting room ⟨later, some other, state'⟩)

namespace Replaces

variable {symbols others : Symbols σ ν} {nesting : Nat}

section Steps

variable (replaces : Replaces like stands symbols others nesting)

include replaces

theorem complete' : Complete others :=
  fun kind => (replaces.tables.defines kind).symm.trans (replaces.complete kind)

theorem advance_ends (expected : Option Token.Kind) {token first : Token}
    {rest later : List (Except Fault Token)} {state state' : σ} (states : like.state state state')
    (tokens : like.token token first) (behind : Spelt like stands asked rest later) :
    Ends like (Aligned like stands asked) (fun _ _ => ∀ kind ∈ expected, token.kind = kind)
      (advance symbols expected ⟨rest, some token, state⟩)
      (advance others expected ⟨later, some first, state'⟩) := by
  have holding : Alike like ⟨[], some token, state⟩ ⟨[], some first, state'⟩ :=
    ⟨states, .some tokens, .nil⟩
  have obstacle (pending : List (Except Fault Token)) (token : Token) (state : σ) :
      obstacle? expected ⟨pending, some token, state⟩ =
        obstacle? expected ⟨[], some token, state⟩ := rfl
  rcases rel_cases (holding.obstacle replaces.fair expected) with
    ⟨free, free'⟩ | ⟨fault, fault', stopped, stopped', faults⟩
  · have expects : ∀ kind ∈ expected, token.kind = kind := by
      rintro kind rfl
      by_contra other
      simp only [obstacle?, other, if_false] at free
      split at free <;> contradiction
    exact advance_ends_of_free replaces.fair replaces.complete replaces.complete' free free' states
      behind fun _ _ => expects
  · unfold advance
    rw [obstacle rest, obstacle later, stopped, stopped']
    exact .failed faults

theorem take_ends {token first : Token} {rest later : List (Except Fault Token)} {state state' : σ}
    (states : like.state state state') (tokens : like.token token first)
    (behind : Spelt like stands asked rest later) :
    Ends like (Aligned like stands asked) (fun held held' => held = token ∧ held' = first)
      (take symbols ⟨rest, some token, state⟩) (take others ⟨later, some first, state'⟩) := by
  apply (replaces.advance_ends none states tokens behind).bind
  intro _ _ _ _ _ _ aligned
  exact .answered ⟨rfl, rfl⟩ aligned

theorem atConstructEnd_eq (aligned : Aligned like stands asked reader other) :
    reader.atConstructEnd = other.atConstructEnd := by
  cases aligned with
  | token _ tokens => exact congrArg Token.Kind.endsConstruct (replaces.fair.kind tokens)
  | row _ stand =>
    rcases replaces.goes_on stand with ⟨own, also⟩
    exact own.trans also.symm

theorem aligned_of_atConstructEnd (aligned : Aligned like stands asked reader other)
    (ended : reader.atConstructEnd = true) : Aligned like stands false reader other := by
  cases aligned with
  | token states tokens behind => exact .token states tokens behind
  | row _ stand => exact absurd ((replaces.goes_on stand).1.symm.trans ended) Bool.false_ne_true

theorem run_ends {operand operand' : Nat → Attempt (Reader σ) (Option ν)}
    (operands : ∀ power reader other, Aligned like stands true reader other →
      Ends like (Aligned like stands false) like.operand (operand power reader)
      (operand' power other))
    {action : Action σ ν α} {action' : Action σ ν β} (actions : action.Parallel like same action')
    (asks : action.Asks asked) (aligned : Aligned like stands asked reader other) :
    Ends like (Aligned like stands false) same (run symbols operand action reader)
      (run others operand' action' other) := by
  induction actions generalizing asked reader other with
  | give answers =>
    cases asks
    exact .answered answers aligned
  | refuse faults => exact .failed faults
  | @operand power _ _ _ ih =>
    cases asks with
    | operand asks =>
      apply (operands power _ _ aligned).bind
      intro value value' _ _ _ answers aligned
      exact ih value value' answers (asks value) aligned
  | close _ ih =>
    cases asks with
    | close asks =>
      cases aligned with
      | token states tokens behind =>
        apply (replaces.advance_ends _ states tokens behind).bind
        intro _ _ _ _ _ closes aligned
        rw [closes _ rfl] at aligned
        exact ih asks aligned
  | @atEnd following following' _ ih =>
    cases asks with
    | atEnd ended goes_on =>
      change Ends _ _ _ (run symbols operand (following reader.atConstructEnd) reader)
        (run others operand' (following' other.atConstructEnd) other)
      rw [← replaces.atConstructEnd_eq aligned]
      cases ends : reader.atConstructEnd with
      | true => exact ih true ended (replaces.aligned_of_atConstructEnd aligned ends)
      | false => exact ih false goes_on aligned
  | read _ ih =>
    cases asks with
    | read asks => exact ih _ _ aligned.state (asks _) aligned
  | write states _ ih =>
    cases asks with
    | write asks => exact ih asks (aligned.with_state states)
  | alone stopped => exact .alone stopped

variable {room : Nat}

theorem follow_ends
    (operands : ∀ power reader other, Aligned like stands true reader other →
      Ends like (Aligned like stands false) like.operand
        (expressionWithin symbols nesting room power reader)
        (expressionWithin others nesting room power other))
    (power : Nat) {left left' : Option ν} (lefts : like.operand left left')
    (aligned : Aligned like stands false reader other) :
    Ends like (Aligned like stands false) like.operand
      (follow symbols (expressionWithin symbols nesting room) power left reader)
      (follow others (expressionWithin others nesting room) power left' other) := by
  -- By induction on the pending tokens of the first reader: every operator takes one of them.
  induction length : reader.pending.length
    using Nat.strongRecOn generalizing reader other left left' with
  | ind bound ih =>
    cases aligned with
    | @token _ token first rest later state state' states tokens behind =>
      have kind := replaces.fair.kind tokens
      have powers : power < Reader.power symbols ⟨rest, some token, state⟩ ↔
          power < Reader.power others ⟨later, some first, state'⟩ := by
        simp only [Reader.power, replaces.tables.power, kind]
      by_cases tighter : power < Reader.power symbols ⟨rest, some token, state⟩
      · rw [follow_of_tighter tighter, follow_of_tighter (powers.1 tighter), takeFollowing,
          takeFollowing, bind_assoc, bind_assoc]
        apply (replaces.take_ends states tokens behind).bind
        rintro token first after after' taken ⟨rfl, rfl⟩ aligned
        have shorter := length_pending_lt_of_take taken
        unfold followingOf
        rw [← replaces.tables.followingNames_eq, ← kind]
        rcases rel_cases (replaces.tables.following token.kind) with
          ⟨missing, missing'⟩ | ⟨rule, rule', found, found', rules⟩
        · rw [missing, missing']
          exact .failed (replaces.fair.unexpected _ _ tokens)
        · rw [found, found']
          apply (replaces.run_ends operands (rules _ _ _ _ rfl tokens lefts)
            (replaces.asks.following found) aligned).bind
          intro value value' reached reached' ran answers aligned
          have consumed :=
            run_consumes symbols (expressionWithin_consumes symbols nesting room)
              (rule token left) after
          rw [ran] at consumed
          have fewer : reached.pending.length < bound :=
            Nat.lt_of_le_of_lt consumed.length_le (Nat.lt_of_lt_of_eq shorter length)
          exact ih _ fewer answers aligned rfl
      · have loose := Nat.le_of_not_lt tighter
        have loose' := Nat.le_of_not_lt (mt powers.2 tighter)
        rw [follow_of_looser loose, follow_of_looser loose']
        exact .answered lefts (.token states tokens behind)

theorem primary_ends
    (operands : ∀ power reader other, Aligned like stands true reader other →
      Ends like (Aligned like stands false) like.operand
        (expressionWithin symbols nesting room power reader)
        (expressionWithin others nesting room power other))
    (aligned : Aligned like stands true reader other) :
    Ends like (Aligned like stands false) like.operand (primary symbols nesting room reader)
      (primary others nesting room other) := by
  cases aligned with
  | @token _ token first _ _ _ _ states tokens behind =>
    have kind := replaces.fair.kind tokens
    rw [primary, primary, takeOpening, takeOpening, bind_assoc, bind_assoc]
    apply (replaces.take_ends states tokens behind).bind
    rintro token first _ _ _ ⟨rfl, rfl⟩ aligned
    unfold openingOf
    rw [← replaces.tables.openingNames_eq, ← kind]
    rcases rel_cases (replaces.tables.opening token.kind) with
      ⟨missing, missing'⟩ | ⟨rule, rule', found, found', rules⟩
    · rw [missing, missing']
      exact .failed (replaces.fair.unexpected _ _ tokens)
    · rw [found, found']
      exact replaces.run_ends operands (rules _ _ rfl tokens) (replaces.asks.opening found) aligned
  | row states stand behind => exact replaces.reads room stand states behind

/-- From where an operand is asked for, both runs read like expressions. -/
theorem expression_ends (room power : Nat) (aligned : Aligned like stands true reader other) :
    Ends like (Aligned like stands false) like.operand
      (expressionWithin symbols nesting room power reader)
      (expressionWithin others nesting room power other) := by
  induction room generalizing power reader other with
  | zero => exact .failed replaces.limits
  | succ room ih =>
    have operands (power : Nat) (reader other : Reader σ) := @ih reader other power
    rw [expressionWithin_eq_primary, expressionWithin_eq_primary]
    apply (replaces.primary_ends operands aligned).bind
    intro _ _ _ _ _ answers aligned
    exact replaces.follow_ends operands power answers aligned

theorem sequence_ends (aligned : Aligned like stands false reader other) :
    EndsAlike like (sequence symbols nesting reader) (sequence others nesting other) := by
  induction length : reader.pending.length using Nat.strongRecOn generalizing reader other with
  | ind bound ih =>
    have same_end : reader.atEndOfInput = other.atEndOfInput := by
      cases aligned with
      | token _ tokens => exact congrArg (· == Token.Kind.endOfInput) (replaces.fair.kind tokens)
    cases ended : reader.atEndOfInput with
    | true =>
      rw [sequence_eq, sequence_eq, ← same_end, if_pos ended, if_pos ended]
      exact .answered .nil aligned.state
    | false =>
      rw [sequence_of_goes_on ended, sequence_of_goes_on (same_end.symm.trans ended)]
      refine sequel_ends_of (replaces.expression_ends nesting 0 aligned.asks) ?_
      intro value after after' read aligned
      have shorter := length_pending_lt_of_expressionWithin read
      exact ih _ (Nat.lt_of_lt_of_eq shorter length) aligned rfl

theorem sequel_ends {step step' : Attempt (Reader σ) (Option ν)}
    (first : Ends like (Aligned like stands false) like.operand (step reader) (step' other)) :
    EndsAlike like (sequel symbols nesting step reader) (sequel others nesting step' other) :=
  sequel_ends_of first fun _ _ _ _ aligned => replaces.sequence_ends aligned

end Steps

end Replaces

end Reader

end FactGraph.Precedence
