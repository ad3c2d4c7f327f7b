import FactGraph.Proofs.Grammar.Resuming
import FactGraph.Proofs.Precedence.Contract

/-! What has been read up to the end of the input is read in the same way up to the end of a group.
A terminator in front of the end of the input makes no difference to it. -/

namespace FactGraph

open Precedence
open Token (Kind)

namespace Grammar

variable {beyond : List (Except Fault Token)} {close : Token} {asked : Bool}

/-- Tokens up to the end of the input, and the same tokens in front of one that closes a group. Only
the first may have a terminator behind them, where no operand is `asked` for. -/
inductive Enclosed (beyond : List (Except Fault Token)) (close : Token) :
    (asked : Bool) → List (Except Fault Token) → List (Except Fault Token) → Prop
  | ended {asked : Bool} {last : Token} (ends : last.kind = .endOfInput) :
      Enclosed beyond close asked [.ok last] (.ok close :: beyond)
  | paused {pause last : Token} (stops : pause.kind = .terminator) (ends : last.kind =
        .endOfInput) :
      Enclosed beyond close false [.ok pause, .ok last] (.ok close :: beyond)
  | token {asked : Bool} {token : Token} {rest later : List (Except Fault Token)}
      (inside : token.kind ≠ .endOfInput)
      (behind : Enclosed beyond close token.kind.asks rest later) :
      Enclosed beyond close asked (.ok token :: rest) (.ok token :: later)

inductive Encloses (beyond : List (Except Fault Token)) (close : Token) (asked : Bool) :
    Reader Builder → Reader Builder → Prop
  | holding {token first : Token} {pending later : List (Except Fault Token)} {state : Builder}
      (tokens : Enclosed beyond close asked (.ok token :: pending) (.ok first :: later)) :
      Encloses beyond close asked ⟨pending, some token, state⟩ ⟨later, some first, state⟩

namespace Encloses

variable {reader other after : Reader Builder}

theorem of_enclosed {rest later : List (Except Fault Token)}
    (tokens : Enclosed beyond close asked rest later) (state : Builder) :
    ∃ token pending first behind, rest = .ok token :: pending ∧ later = .ok first :: behind ∧
      Encloses beyond close asked ⟨pending, some token, state⟩ ⟨behind, some first, state⟩ := by
  have whole := tokens
  cases tokens <;> exact ⟨_, _, _, _, rfl, rfl, .holding whole⟩

theorem state_eq (encloses : Encloses beyond close asked reader other) :
    reader.state = other.state := by
  cases encloses
  rfl

theorem with_state (encloses : Encloses beyond close asked reader other) (state : Builder) :
    Encloses beyond close asked { reader with state } { other with state } := by
  cases encloses with
  | holding tokens => exact .holding tokens

theorem cases_of_read (encloses : Encloses beyond close false reader other) :
    (∃ last, reader.current = some last ∧ last.kind = .endOfInput ∧
        other = ⟨beyond, some close, reader.state⟩) ∨
      (∃ pause, reader.current = some pause ∧ pause.kind = .terminator ∧
        other = ⟨beyond, some close, reader.state⟩) ∨
      ∃ token, reader.current = some token ∧ token.kind ≠ .endOfInput ∧
        other.current = some token := by
  cases encloses with
  | holding tokens =>
    cases tokens with
    | ended ends => exact .inl ⟨_, rfl, ends, rfl⟩
    | paused stops => exact .inr (.inl ⟨_, rfl, stops, rfl⟩)
    | token inside => exact .inr (.inr ⟨_, rfl, inside, rfl⟩)

theorem atConstructEnd_eq (closes : close.kind = .rightParen)
    (encloses : Encloses beyond close true reader other) :
    reader.atConstructEnd = other.atConstructEnd := by
  cases encloses with
  | holding tokens =>
    cases tokens with
    | ended ends => simp [Reader.atConstructEnd, ends, closes, Kind.endsConstruct]
    | token => rfl

theorem of_asked (encloses : Encloses beyond close true reader other) :
    Encloses beyond close false reader other := by
  cases encloses with
  | holding tokens =>
    cases tokens with
    | ended ends => exact .holding (.ended ends)
    | token inside behind => exact .holding (.token inside behind)

variable {table : Symbols Builder Meaning} {pending later : List (Except Fault Token)}
  {state : Builder} {expected : Option Kind} {token next : Token}

theorem advance_eq (complete : Reader.Complete table)
    (tokens : Enclosed beyond close asked pending later)
    (passed : Reader.advance table expected ⟨pending, some token, state⟩ = (.ok next, after)) :
    ∃ further reached, Reader.advance table expected ⟨later, some token, state⟩ =
      (.ok further, reached) ∧
      Encloses beyond close asked after reached := by
  rcases of_enclosed tokens state with ⟨first, pending, second, behind, rfl, rfl, encloses⟩
  rcases Reader.exists_of_advance passed with ⟨_, split, rfl⟩
  obtain ⟨same, rfl⟩ := List.cons.inj split
  obtain rfl := Except.ok.inj same
  exact ⟨second, _, Reader.advance_of_passed complete passed second behind, encloses⟩

theorem take_eq (complete : Reader.Complete table) {first : Token}
    (tokens : Enclosed beyond close asked pending later)
    (taken : Reader.take table ⟨pending, some token, state⟩ = (.ok first, after)) :
    first = token ∧ ∃ reached, Reader.take table ⟨later, some token, state⟩ = (.ok token, reached) ∧
      Encloses beyond close asked after reached := by
  rcases Reader.exists_of_take taken with ⟨rfl, next, passed⟩
  rcases advance_eq complete tokens passed with ⟨further, reached, also, encloses⟩
  exact ⟨rfl, reached, Reader.take_of_advance also, encloses⟩

theorem take_asked (complete : Reader.Complete table)
    (encloses : Encloses beyond close true reader other)
    (taken : Reader.take table reader = (.ok token, after)) :
    ∃ reached, Reader.take table other = (.ok token, reached) ∧
    Encloses beyond close token.kind.asks after reached := by
  cases encloses with
  | holding tokens =>
    cases tokens with
    | ended ends => exact absurd taken (Reader.Ended.not_take ⟨_, rfl, ends⟩)
    | token inside behind =>
      rcases take_eq complete behind taken with ⟨rfl, reached, also, encloses⟩
      exact ⟨reached, also, encloses⟩

theorem power_le (separates : Separates table) (closes : close.kind = .rightParen)
    (encloses : Encloses beyond close false reader other) {power : Nat}
    (looser : reader.power table ≤ power) :
    other.power table ≤ power := by
  have shut : table.power close.kind = 0 := separates.ends close.kind (closes ▸ rfl)
  cases encloses with
  | holding tokens =>
    cases tokens with
    | ended | paused => exact Nat.le_trans (Nat.le_of_eq shut) (Nat.zero_le _)
    | token => exact looser

theorem take_operator (complete : Reader.Complete table)
    (encloses : Encloses beyond close false reader other) {power : Nat}
    (tighter : power < reader.power table) (taken : Reader.take table reader = (.ok token, after)) :
    (power < other.power table ∧ ∃ reached, Reader.take table other = (.ok token, reached) ∧
        Encloses beyond close token.kind.asks after reached) ∨
      token.kind = .terminator ∧ after.atConstructEnd = true ∧ Encloses beyond close false
        after other := by
  cases encloses with
  | holding tokens =>
    cases tokens with
    | ended ends => exact absurd taken (Reader.Ended.not_take ⟨_, rfl, ends⟩)
    | @paused pause last stops ends =>
      rcases Reader.exists_of_take taken with ⟨rfl, next, passed⟩
      rcases Reader.exists_of_advance passed with ⟨_, split, rfl⟩
      obtain ⟨same, rfl⟩ := List.cons.inj split
      obtain rfl := Except.ok.inj same
      exact .inr ⟨stops, by simp [Reader.atConstructEnd, ends, Kind.endsConstruct],
        .holding (.ended ends)⟩
    | token inside behind =>
      rcases take_eq complete behind taken with ⟨rfl, reached, also, encloses⟩
      exact .inl ⟨tighter, reached, also, encloses⟩

theorem advance_close (complete : Reader.Complete table)
    (encloses : Encloses beyond close false reader other) (held : reader.current = some token)
    (passed : Reader.advance table (some .rightParen) reader = (.ok next, after)) :
    ∃ further reached, Reader.advance table (some .rightParen) other = (.ok further, reached) ∧
      Encloses beyond close false after reached := by
  have kind := Reader.kind_of_advance held passed
  cases encloses with
  | holding tokens =>
    obtain rfl := Option.some.inj held
    cases tokens with
    | ended ends => exact absurd (ends.symm.trans kind) nofun
    | paused stops => exact absurd (stops.symm.trans kind) nofun
    | token inside behind =>
      rw [kind] at behind
      exact advance_eq complete behind passed

end Encloses

def Asking (asked : Bool) : Task Builder Meaning → Prop
  | .expression _ _ => asked = true
  | .action _ doing => doing.Asks asked
  | .follow _ _ _ => asked = false

variable {table : Symbols Builder Meaning} {nesting : Nat} {task : Task Builder Meaning}
  {reader other after : Reader Builder} {calls : List Call} {value : Option Meaning}

/-- What a task comes to in front of the end of the input, it comes to in front of the end of a
group. -/
theorem step_of_encloses (separates : Separates table) (asks : table.Asks)
    (complete : Reader.Complete table) (closes : close.kind = .rightParen)
    (course : Course table nesting task reader calls (.ok value, after))
    (asking : Asking asked task) (encloses : Encloses beyond close asked reader other) :
    ∃ reached, task.step table nesting other = (.ok value, reached) ∧
    Encloses beyond close false after reached := by
  generalize ending : (Except.ok value, after) = result at course
  induction course generalizing asked value after other with
  | limit | unopened | openingFailed | unfollowed | followingFailed | refuse
  | operandFailed | unclosed =>
    cases ending
  | opened taken _ _ ran follows =>
    cases ending
    obtain rfl : asked = true := asking
    rcases Reader.takeOpening_eq_ok taken with ⟨took, found⟩
    rcases encloses.take_asked complete took with ⟨middle, also, encloses⟩
    rcases ran (asks.opening found) encloses rfl with ⟨further, did, encloses⟩
    rcases follows rfl encloses rfl with ⟨reached, did', encloses⟩
    refine ⟨reached, ?_, encloses⟩
    rw [Task.step_of_takeOpening (Reader.takeOpening_of_take also found), Attempt.bind_ok did, did']
  | loose looser =>
    cases ending
    obtain rfl : asked = false := asking
    exact ⟨other, Task.follow_of_looser (encloses.power_le separates closes looser), encloses⟩
  | followed tighter taken action _ ran follows =>
    cases ending
    obtain rfl : asked = false := asking
    rcases Reader.takeFollowing_eq_ok taken with ⟨took, found⟩
    rcases encloses.take_operator complete tighter took with
      ⟨tighter, middle, also, encloses⟩ | ⟨pause, ended, encloses⟩
    · rcases ran (asks.following found) encloses rfl with ⟨further, did, encloses⟩
      rcases follows rfl encloses rfl with ⟨reached, did', encloses⟩
      refine ⟨reached, ?_, encloses⟩
      rw [Task.step_of_takeFollowing tighter (Reader.takeFollowing_of_take also found),
        Attempt.bind_ok did, did']
    · rw [pause, separates.following, Option.some.injEq] at found
      subst found
      rcases terminator_cases action.step_eq with ⟨_, rfl, rfl⟩ | ⟨goes_on, _⟩
      · exact follows rfl encloses rfl
      · exact absurd (ended.symm.trans goes_on) nofun
  | give =>
    cases ending
    cases asking
    exact ⟨other, rfl, encloses⟩
  | operand _ _ read rest =>
    cases asking with
    | operand asking =>
      rcases read rfl encloses rfl with ⟨middle, did, encloses⟩
      rcases rest (asking _) encloses ending with ⟨reached, did', encloses⟩
      exact ⟨reached, (Attempt.bind_ok did).trans did', encloses⟩
  | close held passed _ rest =>
    cases asking with
    | close asking =>
      rcases encloses.advance_close complete held passed with ⟨further, middle, also, encloses⟩
      rcases rest asking encloses ending with ⟨reached, did, encloses⟩
      exact ⟨reached, (Attempt.bind_ok also).trans did, encloses⟩
  | @atEnd room next reader _ _ _ rest =>
    cases asking with
    | atEnd ended goes_on =>
      have same := encloses.atConstructEnd_eq closes
      have step : (Task.action room (.atEnd next)).step table nesting other =
          (Task.action room (next reader.atConstructEnd)).step table nesting other := by
        rw [same]; rfl
      rw [step]
      cases ends : reader.atConstructEnd with
      | true =>
        rw [ends] at rest
        exact rest ended encloses.of_asked ending
      | false =>
        rw [ends] at rest
        exact rest goes_on encloses ending
  | @read room next reader _ _ _ rest =>
    cases asking with
    | read asking =>
      have step : (Task.action room (.read next)).step table nesting other =
          (Task.action room (next reader.state)).step table nesting other := by
        rw [encloses.state_eq]; rfl
      rw [step]
      exact rest (asking _) encloses ending
  | write _ rest =>
    cases asking with
    | write asking => exact rest asking (encloses.with_state _) ending

end Grammar

end FactGraph
