import FactGraph.Precedence.Reader

/-! Reading only ever gives up pending tokens, and each operator gives up at least one. So the
bounds of the reader are never met, and following is the plain loop: as long as the token at hand
binds tighter, take it and apply its rule. -/

namespace FactGraph.Precedence.Reader

variable {σ ν α β : Type}

/-- After the step, whatever its answer is, the pending tokens are a rest of those before. -/
def Consumes (step : Attempt (Reader σ) α) : Prop :=
  ∀ reader, (step reader).2.pending <:+ reader.pending

namespace Consumes

theorem pure (value : α) : Consumes (Pure.pure value : Attempt (Reader σ) α) :=
  fun _ => List.suffix_refl _

theorem refuse (fault : Fault) : Consumes (Attempt.refuse fault : Attempt (Reader σ) α) :=
  fun _ => List.suffix_refl _

theorem state : Consumes (Attempt.state : Attempt (Reader σ) (Reader σ)) :=
  fun _ => List.suffix_refl _

theorem bind {step : Attempt (Reader σ) α} {next : α → Attempt (Reader σ) β}
    (first : Consumes step) (second : ∀ value, Consumes (next value)) :
    Consumes (step >>= next) := by
  intro reader
  have rest := first reader
  rw [Attempt.bind_apply]
  split
  · next value reached run =>
    rw [run] at rest
    exact (second value reached).trans rest
  · next fault reached run =>
    rw [run] at rest
    exact rest

theorem ite {condition : Prop} [Decidable condition] {first second : Attempt (Reader σ) α}
    (yes : Consumes first) (no : Consumes second) :
    Consumes (if condition then first else second) := by
  split
  · exact yes
  · exact no

end Consumes

theorem advance_consumes (symbols : Symbols σ ν) (expected : Option Token.Kind) :
    Consumes (advance symbols expected : Attempt (Reader σ) Token) := by
  intro reader
  unfold advance
  split
  · exact List.suffix_refl _
  · split
    · exact List.suffix_refl _
    · next rest pending => simp [pending]
    · next token rest pending => split <;> simp [pending]

theorem hold_consumes (symbols : Symbols σ ν) :
    Consumes (hold symbols : Attempt (Reader σ) Token) := by
  intro reader
  unfold hold
  split
  · exact List.suffix_refl _
  · exact advance_consumes symbols none reader

theorem take_consumes (symbols : Symbols σ ν) :
    Consumes (take symbols : Attempt (Reader σ) Token) :=
  (hold_consumes symbols).bind fun _ => (advance_consumes symbols none).bind fun _ => .pure _

theorem length_pending_lt_of_advance {symbols : Symbols σ ν} {expected : Option Token.Kind}
    {reader after : Reader σ} {token : Token}
    (passed : advance symbols expected reader = (.ok token, after)) :
    after.pending.length < reader.pending.length := by
  unfold advance at passed
  split at passed
  · simp at passed
  · split at passed
    · simp at passed
    · simp at passed
    · next next rest pending =>
      split at passed
      · simp only [Prod.mk.injEq, Except.ok.injEq] at passed
        obtain ⟨_, rfl⟩ := passed
        simp [pending]
      · simp at passed

theorem length_pending_lt_of_take {symbols : Symbols σ ν} {reader after : Reader σ} {token : Token}
    (taken : take symbols reader = (.ok token, after)) :
    after.pending.length < reader.pending.length := by
  have held := (hold_consumes symbols reader).length_le
  unfold take at taken
  rw [Attempt.bind_apply] at taken
  split at taken
  · next value reached hold =>
    rw [hold] at held
    rw [Attempt.bind_apply] at taken
    split at taken
    · next passed reached' advanced =>
      simp only [Attempt.pure_apply, Prod.mk.injEq, Except.ok.injEq] at taken
      obtain ⟨_, rfl⟩ := taken
      exact Nat.lt_of_lt_of_le (length_pending_lt_of_advance advanced) held
    · simp at taken
  · simp at taken

theorem run_consumes (symbols : Symbols σ ν) {operand : Nat → Attempt (Reader σ) (Option ν)}
    (operands : ∀ power, Consumes (operand power)) (action : Action σ ν α) :
    Consumes (run symbols operand action) := by
  induction action with
  | give value => exact .pure value
  | refuse fault => exact .refuse fault
  | operand power next ih => exact (operands power).bind ih
  | close kind next ih => exact (advance_consumes symbols (some kind)).bind fun _ => ih
  | atEnd next ih => exact Consumes.state.bind fun reader => ih reader.atConstructEnd
  | read next ih => exact Consumes.state.bind fun reader => ih reader.state
  | write state next ih =>
    exact Consumes.bind (fun _ => List.suffix_refl _) fun _ => ih

theorem openingOf_consumes (symbols : Symbols σ ν) (token : Token) :
    Consumes (openingOf symbols token : Attempt (Reader σ) (Opening σ ν)) := by
  unfold openingOf
  split
  · exact .pure _
  · exact .refuse _

theorem followingOf_consumes (symbols : Symbols σ ν) (token : Token) :
    Consumes (followingOf symbols token : Attempt (Reader σ) (Following σ ν)) := by
  unfold followingOf
  split
  · exact .pure _
  · exact .refuse _

theorem followWithin_consumes (symbols : Symbols σ ν)
    {operand : Nat → Attempt (Reader σ) (Option ν)} (operands : ∀ power, Consumes (operand power))
    (power bound : Nat) (left : Option ν) :
    Consumes (followWithin symbols operand power bound left) := by
  induction bound generalizing left with
  | zero =>
    exact Consumes.state.bind fun _ =>
      .ite ((take_consumes symbols).bind fun _ => .pure _) (.pure _)
  | succ bound ih =>
    exact Consumes.state.bind fun _ => .ite
      ((take_consumes symbols).bind fun token => (followingOf_consumes symbols token).bind
        fun rule => (run_consumes symbols operands (rule token left)).bind fun value => ih value)
      (.pure _)

theorem follow_consumes (symbols : Symbols σ ν) {operand : Nat → Attempt (Reader σ) (Option ν)}
    (operands : ∀ power, Consumes (operand power)) (power : Nat) (left : Option ν) :
    Consumes (follow symbols operand power left) := fun reader =>
  followWithin_consumes symbols operands power reader.pending.length left reader

theorem expressionWithin_consumes (symbols : Symbols σ ν) (nesting room power : Nat) :
    Consumes (expressionWithin symbols nesting room power) := by
  induction room generalizing power with
  | zero => exact .refuse _
  | succ room ih =>
    exact (take_consumes symbols).bind fun token => (openingOf_consumes symbols token).bind
      fun rule => (run_consumes symbols ih (rule token)).bind
        fun left => follow_consumes symbols ih power left

theorem followed_congr {symbols : Symbols σ ν} {operand : Nat → Attempt (Reader σ) (Option ν)}
    (operands : ∀ power, Consumes (operand power)) {left : Option ν} {reader : Reader σ}
    {next other : Option ν → Attempt (Reader σ) (Option ν)}
    (same : ∀ value reached, reached.pending.length < reader.pending.length →
      next value reached = other value reached) :
    (do
      let token ← take symbols
      let rule ← followingOf symbols token
      let value ← run symbols operand (rule token left)
      next value) reader =
    (do
      let token ← take symbols
      let rule ← followingOf symbols token
      let value ← run symbols operand (rule token left)
      other value) reader := by
  refine Attempt.bind_congr fun token after taken => Attempt.bind_congr fun rule ready found =>
    Attempt.bind_congr fun value reached done => same value reached ?_
  have kept := (followingOf_consumes symbols token after).length_le
  have ran := (run_consumes symbols operands (rule token left) ready).length_le
  rw [found] at kept
  rw [done] at ran
  calc reached.pending.length
      _ ≤ ready.pending.length := ran
      _ ≤ after.pending.length := kept
      _ < reader.pending.length := length_pending_lt_of_take taken

/-- Beyond the number of pending tokens the bound does not matter. -/
theorem followWithin_eq (symbols : Symbols σ ν) {operand : Nat → Attempt (Reader σ) (Option ν)}
    (operands : ∀ power, Consumes (operand power)) (power : Nat) {bound other : Nat}
    (left : Option ν) (reader : Reader σ) (enough : reader.pending.length ≤ bound)
    (also : reader.pending.length ≤ other) :
    followWithin symbols operand power bound left reader =
      followWithin symbols operand power other left reader := by
  -- Without anything pending, nothing is taken, and it does not matter what either would do then.
  induction bound generalizing other left reader with
  | zero =>
    cases other with
    | zero => rfl
    | succ other =>
      simp only [followWithin, Attempt.bind_apply, Attempt.state_apply]
      split
      · exact Attempt.bind_congr fun _ _ taken =>
          absurd (length_pending_lt_of_take taken) (by omega)
      · rfl
  | succ bound ih =>
    cases other with
    | zero =>
      simp only [followWithin, Attempt.bind_apply, Attempt.state_apply]
      split
      · exact Attempt.bind_congr fun _ _ taken =>
          absurd (length_pending_lt_of_take taken) (by omega)
      · rfl
    | succ other =>
      simp only [followWithin, Attempt.bind_apply, Attempt.state_apply]
      split
      · exact followed_congr operands fun value reached fewer =>
          ih value reached (by omega) (by omega)
      · rfl

theorem follow_eq {symbols : Symbols σ ν} {operand : Nat → Attempt (Reader σ) (Option ν)}
    (operands : ∀ power, Consumes (operand power)) (power : Nat) (left : Option ν)
    (reader : Reader σ) :
    follow symbols operand power left reader =
      if power < reader.power symbols then
        (do
          let token ← take symbols
          let rule ← followingOf symbols token
          let value ← run symbols operand (rule token left)
          follow symbols operand power value) reader
      else (.ok left, reader) := by
  have loose := followWithin_eq symbols operands power left reader (Nat.le_refl _)
    (Nat.le_succ reader.pending.length)
  rw [follow, loose]
  simp only [followWithin, Attempt.bind_apply, Attempt.state_apply]
  split
  · exact followed_congr operands fun value reached fewer =>
      followWithin_eq symbols operands power value reached (Nat.le_of_lt fewer) (Nat.le_refl _)
  · rfl

/-- An expression that is read takes at least one token. -/
theorem length_pending_lt_of_expressionWithin {symbols : Symbols σ ν} {nesting room power : Nat}
    {reader after : Reader σ} {value : Option ν}
    (read : expressionWithin symbols nesting room power reader = (.ok value, after)) :
    after.pending.length < reader.pending.length := by
  cases room with
  | zero => simp [expressionWithin] at read
  | succ room =>
    rw [expressionWithin] at read
    rcases taken : take symbols reader with ⟨_ | token, reached⟩
    · simp [Attempt.bind_error taken] at read
    · have shorter := length_pending_lt_of_take taken
      rw [Attempt.bind_ok taken] at read
      have kept := (openingOf_consumes symbols token).bind (fun rule =>
        (run_consumes symbols (expressionWithin_consumes symbols nesting room) (rule token)).bind
          fun left => follow_consumes symbols (expressionWithin_consumes symbols nesting room)
            power left) reached
      rw [read] at kept
      exact Nat.lt_of_le_of_lt kept.length_le shorter

theorem sequenceWithin_eq (symbols : Symbols σ ν) (nesting : Nat) {bound other : Nat}
    (reader : Reader σ)
    (enough : reader.pending.length ≤ bound) (also : reader.pending.length ≤ other) :
    (sequenceWithin symbols nesting bound : Attempt (Reader σ) (List ν)) reader =
      sequenceWithin symbols nesting other reader := by
  induction bound generalizing other reader with
  | zero =>
    cases other with
    | zero => rfl
    | succ other =>
      simp only [sequenceWithin, Attempt.bind_apply, Attempt.state_apply]
      split
      · rfl
      · exact Attempt.bind_congr fun _ _ done =>
          absurd (length_pending_lt_of_expressionWithin done) (by omega)
  | succ bound ih =>
    cases other with
    | zero =>
      simp only [sequenceWithin, Attempt.bind_apply, Attempt.state_apply]
      split
      · rfl
      · exact Attempt.bind_congr fun _ _ done =>
          absurd (length_pending_lt_of_expressionWithin done) (by omega)
    | succ other =>
      simp only [sequenceWithin, Attempt.bind_apply, Attempt.state_apply]
      split
      · rfl
      · refine Attempt.bind_congr fun value reached done => ?_
        have fewer := length_pending_lt_of_expressionWithin done
        have below : reached.pending.length ≤ other := by omega
        simp only [Attempt.bind_apply]
        rw [ih reached (by omega) below]

theorem sequence_eq {symbols : Symbols σ ν} {nesting : Nat} (reader : Reader σ) :
    (sequence symbols nesting : Attempt (Reader σ) (List ν)) reader =
      if reader.atEndOfInput then (.ok [], reader)
      else
        (do
          let value ← expression symbols nesting 0
          let values ← sequence symbols nesting
          return value.toList ++ values) reader := by
  rw [sequence, sequenceWithin_eq symbols nesting reader (Nat.le_refl _)
    (Nat.le_succ reader.pending.length)]
  simp only [sequenceWithin, Attempt.bind_apply, Attempt.state_apply]
  split
  · rfl
  · refine Attempt.bind_congr fun value reached done => ?_
    have fewer := Nat.le_of_lt (length_pending_lt_of_expressionWithin done)
    simp only [Attempt.bind_apply, sequence]
    rw [sequenceWithin_eq symbols nesting reached fewer (Nat.le_refl _)]

end FactGraph.Precedence.Reader
