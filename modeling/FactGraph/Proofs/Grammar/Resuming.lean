import FactGraph.Proofs.Notation.Reading
import FactGraph.Proofs.Notation.Widening
import FactGraph.Proofs.Precedence.Abreast
import FactGraph.Proofs.Precedence.Guarded
import FactGraph.Proofs.Precedence.Splitting

namespace FactGraph

open Precedence
open Token (Kind)

namespace Grammar

variable {citation : Nat} {kept : Builder → Prop}

theorem guarded_join (span : Span) (left right : Option Meaning) :
    (join span left right).guarded kept = join span left right := by
  unfold join
  split <;> rfl

theorem guarded_skip (power : Nat) (token : Token) :
    (Form.skip power token : Step (Option Meaning)).guarded kept = Form.skip power token := by
  unfold Form.skip
  rw [Action.guarded_bind]
  refine congrArg (Action.ended >>= ·) (funext fun ended => ?_)
  cases ended <;> rfl

theorem guarded_terminator (token : Token) (left : Option Meaning) :
    (terminator token left).guarded kept = terminator token left := by
  unfold terminator
  rw [Action.guarded_bind]
  refine congrArg (Action.ended >>= ·) (funext fun ended => ?_)
  cases ended with
  | true => rfl
  | false =>
    have read : (Action.expression Power.terminator >>= join token.span left).guarded kept =
        Action.expression Power.terminator >>= join token.span left := by
      rw [Action.guarded_bind]
      simp only [guarded_join]
      rfl
    rcases left with _ | _ | _ | _ | _ <;> first | exact read | rfl

/-- Terminators separate statements and bind more loosely than everything else. -/
structure Separates (table : Symbols Builder Meaning) : Prop where
  opening : table.opening? .terminator = some (Form.skip 0)
  following : table.following? .terminator = some terminator
  power : table.power .terminator = Power.terminator
  ends (kind : Kind) : kind.endsConstruct = true → table.power kind = 0
  only (kind : Kind) :
      0 < table.power kind → table.power kind ≤ Power.terminator → kind = .terminator
  /-- No expression begins with what takes blanks in front of it. -/
  begins (kind : Kind) : kind ∈ Notation.leadingKinds → table.opening? kind = none

theorem separates (citation : Nat) : Separates (symbols citation) where
  opening := rfl
  following := rfl
  power := rfl
  ends kind ends := by cases kind <;> first | rfl | contradiction
  only kind binds loose := by
    cases kind <;> simp [Symbols.power, symbols, Power.terminator, Power.assignment,
      Power.description, Power.property, Power.label, Power.group] at binds loose ⊢
  begins kind leads := by cases kind <;> first | rfl | simp [Notation.leadingKinds] at leads

theorem separates_guarded (citation : Nat) : Separates ((symbols citation).guarded kept) where
  opening := by
    rw [Symbols.opening?_guarded, (separates citation).opening, Option.map_some]
    exact congrArg some (funext fun token => guarded_skip 0 token)
  following := by
    rw [Symbols.following?_guarded, (separates citation).following, Option.map_some]
    exact congrArg some (funext fun token => funext fun left => guarded_terminator token left)
  power := by
    rw [Symbols.power_guarded]
    exact (separates citation).power
  ends kind := by
    rw [Symbols.power_guarded]
    exact (separates citation).ends kind
  only kind := by
    rw [Symbols.power_guarded]
    exact (separates citation).only kind
  begins kind leads := by
    rw [Symbols.opening?_guarded, (separates citation).begins kind leads]
    rfl

def resume (table : Symbols Builder Meaning) (nesting room upper : Nat) (pause : Token)
    (left : Option Meaning) :
    Attempt (Reader Builder) (Option Meaning) :=
  (Task.action room (terminator pause left)).step table nesting >>= fun value =>
    (Task.follow upper 0 value).step table nesting

variable {table : Symbols Builder Meaning} {nesting room upper : Nat} {pause : Token}
  {left : Option Meaning} {reader behind : Reader Builder}

theorem resume_bind_follow (other power : Nat) :
    (resume table nesting room upper pause left >>= fun value =>
      (Task.follow other power value).step table nesting) =
      resume table nesting room upper pause left := by
  simp only [resume, bind_assoc, Task.follow_bind_looser (Nat.zero_le power)]

theorem asked {next : Bool → Step (Option Meaning)} :
    (Task.action room (Action.ended >>= next)).step table nesting reader =
      (Task.action room (next reader.atConstructEnd)).step table nesting reader := rfl

theorem action_of_goes_on (goes_on : reader.atConstructEnd = false)
    (known : ∀ name place, left ≠ some (.target name place)) :
    (Task.action room (terminator pause left)).step table nesting reader =
      ((Task.expression room Power.terminator).step table nesting >>= fun right =>
        (Task.action room (join pause.span left right)).step table nesting) reader := by
  have joins : Reader.run table (Reader.expressionWithin table nesting room)
      (Action.expression Power.terminator >>= join pause.span left) =
      (Task.expression room Power.terminator).step table nesting >>= fun right =>
        (Task.action room (join pause.span left right)).step table nesting := by
    rw [Reader.run_bind, Reader.run_expression]
    rfl
  rw [← joins]
  refine asked.trans ?_
  rw [goes_on]
  rcases left with _ | _ | _ | _ | ⟨name, place⟩
  case some.target => exact absurd rfl (known name place)
  all_goals rfl

theorem join_cases (span : Span) (left right : Option Meaning) :
    (∃ value, join span left right = pure value) ∨
    ∃ fault, join span left right = .refuse fault := by
  unfold join
  split <;> first | exact .inl ⟨_, rfl⟩ | exact .inr ⟨_, rfl⟩

/-- What has been read where the rule for a terminator has come to an answer. -/
theorem terminator_cases {value : Option Meaning} {after : Reader Builder}
    (ran : (Task.action room (terminator pause left)).step table nesting reader =
      (.ok value, after)) :
    reader.atConstructEnd = true ∧ value = left ∧ after = reader ∨
      reader.atConstructEnd = false ∧ (∀ name place, left ≠ some (.target name place)) ∧
        ∃ right, (Task.expression room Power.terminator).step table nesting reader =
          (.ok right, after) ∧
          join pause.span left right = pure value := by
  cases ended : reader.atConstructEnd with
  | true =>
    have given := asked.symm.trans ran
    rw [ended] at given
    obtain ⟨same, rfl⟩ := Prod.mk.inj given
    exact .inl ⟨rfl, (Except.ok.inj same).symm, rfl⟩
  | false =>
    have known : ∀ name place, left ≠ some (.target name place) := by
      rintro name place rfl
      have refused := asked.symm.trans ran
      rw [ended] at refused
      cases refused
    rw [action_of_goes_on ended known] at ran
    rcases read : (Task.expression room Power.terminator).step table nesting reader
      with ⟨fault | right, reached⟩
    · rw [Attempt.bind_error read] at ran
      cases ran
    · rw [Attempt.bind_ok read] at ran
      rcases join_cases pause.span left right with ⟨found, joined⟩ | ⟨fault, refused⟩
      · rw [joined] at ran
        obtain ⟨same, rfl⟩ := Prod.mk.inj ran
        exact .inr ⟨rfl, known, right, rfl, joined.trans (congrArg pure (Except.ok.inj same))⟩
      · rw [refused] at ran
        cases ran

theorem resume_none (goes_on : reader.atConstructEnd = false) :
    resume table nesting room (room - 1) pause none reader =
      (Task.expression room 0).step table nesting reader := by
  have read : (Task.action room (terminator pause none)).step table nesting reader =
      (Task.expression room Power.terminator).step table nesting reader := by
    rw [action_of_goes_on goes_on (by simp)]
    exact congrFun (bind_pure _) reader
  cases room with
  | zero => exact Attempt.bind_error read
  | succ room =>
    rw [resume, Attempt.bind_apply, read, ← Attempt.bind_apply]
    exact congrFun (Task.expression_bind_follow (Nat.zero_le _)) reader

namespace Separates

variable (separates : Separates table)

include separates

theorem power_of_ended (ended : reader.atConstructEnd = true) : reader.power table = 0 := by
  cases held : reader.current with
  | none => rw [Reader.power, held]
  | some token =>
    rw [Reader.atConstructEnd, held] at ended
    rw [Reader.power, held]
    exact separates.ends token.kind ended

theorem resume_of_ended (ended : reader.atConstructEnd = true) :
    resume table nesting room upper pause left reader = (.ok left, reader) := by
  have given : (Task.action room (terminator pause left)).step table nesting reader =
      (.ok left, reader) := by
    refine asked.trans ?_
    rw [ended]
    rfl
  rw [resume, Attempt.bind_ok given]
  exact Task.follow_of_looser (Nat.le_of_eq (separates.power_of_ended ended))

theorem skip_eq_resume {outer : Nat} :
    ((Task.action room (Form.skip 0 pause)).step table nesting >>= fun value =>
      (Task.follow outer 0 value).step table nesting) behind =
          resume table nesting room (room - 1) pause none behind := by
  have skipped : (Task.action room (Form.skip 0 pause)).step table nesting behind = _ := asked
  cases ended : behind.atConstructEnd with
  | true =>
    rw [ended] at skipped
    rw [separates.resume_of_ended ended, Attempt.bind_ok skipped]
    exact Task.follow_of_looser (Nat.le_of_eq (separates.power_of_ended ended))
  | false =>
    have read : (Task.action room (Form.skip 0 pause)).step table nesting behind =
        (Task.expression room 0).step table nesting behind := by
      rw [skipped, ended]
      exact congrFun (Reader.run_expression _ _ 0) behind
    rw [resume_none ended, Attempt.bind_apply, read, ← Attempt.bind_apply]
    exact congrFun (Task.expression_bind_looser (Nat.le_refl 0)) behind

theorem sequence_of_pause (taken : Reader.take table reader = (.ok pause, behind))
    (kind : pause.kind = .terminator) (goes_on : reader.atEndOfInput = false) :
    Reader.sequence table (room + 1) reader =
      (resume table (room + 1) room (room - 1) pause none >>= fun value =>
        Reader.sequence table (room + 1) >>= fun values =>
            pure (value.toList ++ values)) behind := by
  have opens : table.opening? pause.kind = some (Form.skip 0) := by
    rw [kind]
    exact separates.opening
  rw [Reader.sequence_of_goes_on goes_on, Attempt.bind_apply,
    Task.step_of_takeOpening (Reader.takeOpening_of_take taken opens), separates.skip_eq_resume,
      ← Attempt.bind_apply]

theorem sequence_of_start (holds : reader.current.isSome) (pause : Token) :
    Reader.sequence table nesting reader =
      (resume table nesting nesting (nesting - 1) pause none >>= fun value =>
        Reader.sequence table nesting >>= fun values => pure (value.toList ++ values)) reader := by
  cases ended : reader.atConstructEnd with
  | true =>
    rw [Attempt.bind_ok (separates.resume_of_ended ended)]
    exact (congrFun (bind_pure _) reader).symm
  | false =>
    have goes_on : reader.atEndOfInput = false := by
      rcases Option.isSome_iff_exists.1 holds with ⟨token, held⟩
      rw [Reader.atConstructEnd, held] at ended
      rw [Reader.atEndOfInput, held]
      cases kind : token.kind <;> simp_all [Kind.endsConstruct]
    rw [Reader.sequence_of_goes_on goes_on, Attempt.bind_apply, ← resume_none ended,
      ← Attempt.bind_apply]

end Separates

end Grammar

end FactGraph
