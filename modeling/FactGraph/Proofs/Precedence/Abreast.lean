import FactGraph.Proofs.Precedence.Course
import FactGraph.Proofs.Precedence.Running
import FactGraph.Proofs.Token.Continuing

/-! Two readers abreast of each other, of which one comes to the end of its tokens where the other
goes on behind a terminator. Up to there, what one of them can take the other can take, too. -/

namespace FactGraph.Precedence

open Token (Continues)

variable {σ ν α β : Type}

namespace Action

/-- To carry out the action is to take the step on the state, and takes no token. -/
def Does (doing : Action σ ν α) (step : Attempt σ α) : Prop :=
  ∀ (symbols : Symbols σ ν) (operand : Nat → Attempt (Reader σ) (Option ν)) (reader : Reader σ),
    Reader.run symbols operand doing reader =
      ((step reader.state).1, { reader with state := (step reader.state).2 })

namespace Does

theorem pure (value : α) : (Pure.pure value : Action σ ν α).Does (Pure.pure value) :=
  fun _ _ _ => rfl

theorem refuse (fault : Fault) : (Action.refuse fault : Action σ ν α).Does (Attempt.refuse fault) :=
  fun _ _ _ => rfl

theorem state : (Action.state : Action σ ν σ).Does Attempt.state := fun _ _ _ => rfl

theorem perform (step : Attempt σ α) : (Action.perform step : Action σ ν α).Does step :=
  fun symbols operand reader => Reader.run_perform_apply symbols operand step reader

theorem bind {action : Action σ ν α} {next : α → Action σ ν β} {step : Attempt σ α}
    {rest : α → Attempt σ β} (first : action.Does step)
    (second : ∀ value, (next value).Does (rest value)) :
    (action >>= next).Does (step >>= rest) := by
  intro symbols operand reader
  rw [Reader.run_bind, Attempt.bind_apply, first, Attempt.bind_apply]
  rcases step reader.state with ⟨fault | value, after⟩
  · rfl
  · exact second value symbols operand { reader with state := after }

end Does

end Action

namespace Reader

def Ended (reader : Reader σ) : Prop := ∃ last ∈ reader.current, last.kind = .endOfInput

/-- Both hold a token and have the same state, and the tokens of the first are continued by those of
the other. -/
inductive Abreast (beyond : List (Except Fault Token)) : Reader σ → Reader σ → Prop
  | holding {token first : Token} {pending later : List (Except Fault Token)} {state : σ}
      (tokens : Continues beyond (.ok token :: pending) (.ok first :: later)) :
      Abreast beyond ⟨pending, some token, state⟩ ⟨later, some first, state⟩

namespace Abreast

variable {beyond : List (Except Fault Token)} {reader other after : Reader σ}
  {symbols : Symbols σ ν} {token : Token}

theorem of_continues {outcomes longer : List (Except Fault Token)}
    (continues : Continues beyond outcomes longer) (state : σ) :
    ∃ token pending first later, outcomes = .ok token :: pending ∧ longer = .ok first :: later ∧
      Abreast beyond ⟨pending, some token, state⟩ ⟨later, some first, state⟩ := by
  have whole := continues
  cases continues <;> exact ⟨_, _, _, _, rfl, rfl, .holding whole⟩

theorem state_eq (abreast : reader.Abreast beyond other) : reader.state = other.state := by
  cases abreast
  rfl

theorem holds (abreast : reader.Abreast beyond other) :
    reader.current.isSome ∧ other.current.isSome := by
  cases abreast
  exact ⟨rfl, rfl⟩

theorem goes_on (abreast : reader.Abreast beyond other) : other.atEndOfInput = false := by
  cases abreast with
  | holding tokens =>
    cases tokens with
    | pause _ stops | merged _ _ stops => simp [atEndOfInput, stops]
    | next inside => simpa [atEndOfInput] using inside

theorem with_state (abreast : reader.Abreast beyond other) (state : σ) :
    Abreast beyond { reader with state } { other with state } := by
  cases abreast with
  | holding tokens => exact .holding tokens

theorem atConstructEnd_eq (abreast : reader.Abreast beyond other)
    (more : 1 < reader.remaining.length) :
    reader.atConstructEnd = other.atConstructEnd := by
  cases abreast with
  | holding tokens =>
    cases tokens with
    | pause => exact absurd more (by simp [remaining])
    | merged begins _ stops => simp [atConstructEnd, begins, stops]
    | next => rfl

theorem advance_eq (complete : Complete symbols)
    {pending later : List (Except Fault Token)} {state : σ} {expected : Option Token.Kind}
    {next : Token} (rest : Continues beyond pending later)
    (passed : advance symbols expected ⟨pending, some token, state⟩ = (.ok next, after)) :
    ∃ further reached, advance symbols expected ⟨later, some token, state⟩ =
      (.ok further, reached) ∧
      after.Abreast beyond reached ∧ after.remaining = pending := by
  rcases of_continues rest state with ⟨next', tokens, first, others, rfl, rfl, abreast⟩
  rcases exists_of_advance passed with ⟨_, split, rfl⟩
  obtain ⟨same, rfl⟩ := List.cons.inj split
  obtain rfl := Except.ok.inj same
  exact ⟨first, ⟨others, some first, state⟩,
    advance_of_passed complete passed first others, abreast, rfl⟩

end Abreast

theorem take_of_advance {pending : List (Except Fault Token)} {held next : Token} {state : σ}
    {after : Reader σ} {symbols : Symbols σ ν}
    (passed : advance symbols none ⟨pending, some held, state⟩ = (.ok next, after)) :
    take symbols ⟨pending, some held, state⟩ = (.ok held, after) := by
  have holding : hold symbols ⟨pending, some held, state⟩ =
      (.ok held, ⟨pending, some held, state⟩) := rfl
  rw [take, Attempt.bind_ok holding, Attempt.bind_ok passed]
  rfl

theorem exists_of_take {pending : List (Except Fault Token)} {held token : Token} {state : σ}
    {after : Reader σ} {symbols : Symbols σ ν}
    (taken : take symbols ⟨pending, some held, state⟩ = (.ok token, after)) :
    token = held ∧ ∃ next, advance symbols none ⟨pending, some held, state⟩ =
      (.ok next, after) := by
  rcases take_eq_ok taken with ⟨holding, next, here, passed⟩
  obtain ⟨same, rfl⟩ := Prod.mk.inj here
  exact ⟨(Except.ok.inj same).symm, next, passed⟩

theorem power_of_take {reader after : Reader σ} {symbols : Symbols σ ν} {token : Token}
    (holds : reader.current.isSome) (taken : take symbols reader = (.ok token, after)) :
    reader.power symbols = symbols.power token.kind := by
  rcases Option.isSome_iff_exists.mp holds with ⟨held, current⟩
  have first := (remaining_of_take taken).1
  simp only [remaining, current, Option.toList_some, List.map_cons, List.map_nil, List.cons_append,
    List.nil_append, List.cons.injEq, Except.ok.injEq] at first
  rw [power, current, first.1]

theorem takeOpening_of_take {reader after : Reader σ} {symbols : Symbols σ ν} {token : Token}
    {rule : Opening σ ν} (taken : take symbols reader = (.ok token, after))
    (found : symbols.opening? token.kind = some rule) :
    takeOpening symbols reader = (.ok (token, rule), after) := by
  rw [takeOpening, Attempt.bind_ok taken]
  simp [openingOf, found]

theorem takeFollowing_of_take {reader after : Reader σ} {symbols : Symbols σ ν} {token : Token}
    {rule : Following σ ν} (taken : take symbols reader = (.ok token, after))
    (found : symbols.following? token.kind = some rule) :
    takeFollowing symbols reader = (.ok (token, rule), after) := by
  rw [takeFollowing, Attempt.bind_ok taken]
  simp [followingOf, found]

namespace Abreast

variable {beyond : List (Except Fault Token)} {reader other after : Reader σ}
  {symbols : Symbols σ ν} {token : Token}

/-- A token can be taken from both readers, or it is the terminator at the end of the first. -/
theorem take_cases (complete : Complete symbols) (abreast : reader.Abreast beyond other)
    (taken : take symbols reader = (.ok token, after)) :
    (∃ reached, take symbols other = (.ok token, reached) ∧ after.Abreast beyond reached ∧
        (token.kind = .terminator → 1 < after.remaining.length)) ∨
      token.kind = .terminator ∧ after.Ended ∧
        ∃ pause, pause.kind = .terminator ∧ other = ⟨beyond, some pause, after.state⟩ := by
  cases abreast with
  | @holding held first pending later state tokens =>
    rcases exists_of_take taken with ⟨rfl, next, passed⟩
    cases tokens with
    | pause ends =>
      rcases exists_of_advance passed with ⟨_, impossible, _⟩
      contradiction
    | merged begins ends stops =>
      rcases exists_of_advance passed with ⟨_, split, rfl⟩
      obtain ⟨same, rfl⟩ := List.cons.inj split
      obtain rfl := Except.ok.inj same
      exact .inr ⟨begins, ⟨_, rfl, ends⟩, first, stops, rfl⟩
    | next inside behind rest =>
      rcases advance_eq complete rest passed with ⟨second, reached, also, abreast, left⟩
      exact .inl ⟨reached, take_of_advance also, abreast, left ▸ behind⟩

theorem close_eq (complete : Complete symbols) (abreast : reader.Abreast beyond other)
    {next : Token} (passed : advance symbols (some .rightParen) reader = (.ok next, after)) :
    ∃ further reached, advance symbols (some .rightParen) other = (.ok further, reached) ∧
    after.Abreast beyond reached := by
  cases abreast with
  | holding tokens =>
    have closes := kind_of_advance rfl passed
    cases tokens with
    | pause ends => exact absurd (ends.symm.trans closes) nofun
    | merged begins => exact absurd (begins.symm.trans closes) nofun
    | next inside behind rest =>
      rcases advance_eq complete rest passed with ⟨further, reached, also, abreast, _⟩
      exact ⟨further, reached, also, abreast⟩

end Abreast

theorem Ended.not_advance {reader after : Reader σ} {symbols : Symbols σ ν}
    {expected : Option Token.Kind} {token : Token} (ended : reader.Ended) :
    advance symbols expected reader ≠ (.ok token, after) := by
  rcases ended with ⟨last, held, ends⟩
  have stopped : reader.obstacle? expected = some (.pastEnd last.span.position) := by
    rw [obstacle?, Option.mem_def.1 held]
    simp [ends]
  simp [advance, stopped]

theorem Ended.not_take {reader after : Reader σ} {symbols : Symbols σ ν} {token : Token}
    (ended : reader.Ended) :
    take symbols reader ≠ (.ok token, after) := by
  rcases reader with ⟨pending, held, state⟩
  have ends := ended
  obtain ⟨last, rfl, _⟩ := ended
  intro taken
  rcases exists_of_take taken with ⟨_, next, passed⟩
  exact ends.not_advance passed

end Reader

end FactGraph.Precedence
