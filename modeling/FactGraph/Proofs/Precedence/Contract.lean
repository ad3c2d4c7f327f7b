import FactGraph.Precedence.Reader
import FactGraph.Proofs.Attempt

namespace FactGraph.Precedence

variable {σ ν α : Type} {inv : σ → Prop} {good : ν → Prop} {fine : Token → Prop} {ends : α → Prop}

abbrev Each (good : ν → Prop) (value : Option ν) : Prop := ∀ meaning ∈ value, good meaning

namespace Action

/-- Given operands with good meanings, the action only writes states with the invariant, and its
answer is as it should be. It may take the invariant for granted of what it reads. -/
inductive Keeps (inv : σ → Prop) (good : ν → Prop) (ends : α → Prop) : Action σ ν α → Prop
  | give {value : α} (holds : ends value) : Keeps inv good ends (give value)
  | refuse {fault : Fault} : Keeps inv good ends (refuse fault)
  | operand {power : Nat} {next : Option ν → Action σ ν α}
      (rest : ∀ value, Each good value → Keeps inv good ends (next value)) :
      Keeps inv good ends (operand power next)
  | close {kind : Token.Kind} {next : Action σ ν α} (rest : Keeps inv good ends next) :
      Keeps inv good ends (close kind next)
  | atEnd {next : Bool → Action σ ν α} (rest : ∀ answer, Keeps inv good ends (next answer)) :
      Keeps inv good ends (atEnd next)
  | read {next : σ → Action σ ν α} (rest : ∀ state, inv state → Keeps inv good ends (next state)) :
      Keeps inv good ends (read next)
  | write {state : σ} {next : Action σ ν α} (kept : inv state) (rest : Keeps inv good ends next) :
      Keeps inv good ends (write state next)

end Action

/-- The rules of all symbols keep the invariant, and give good meanings when they are given such, at
all tokens that may occur. -/
structure Symbols.Keep (symbols : Symbols σ ν) (inv : σ → Prop) (good : ν → Prop)
    (fine : Token → Prop) : Prop where
  opening (token : Token) (rule : Opening σ ν) :
      fine token → symbols.opening? token.kind = some rule →
    (rule token).Keeps inv good (Each good)
  following (token : Token) (rule : Following σ ν) (left : Option ν) : fine token →
    symbols.following? token.kind = some rule → Each good left →
    (rule token left).Keeps inv good (Each good)

namespace Reader

/-- The state has the invariant, and only tokens that may occur are at hand or pending. -/
structure Sound (inv : σ → Prop) (fine : Token → Prop) (reader : Reader σ) : Prop where
  state : inv reader.state
  current : ∀ token ∈ reader.current, fine token
  pending (token : Token) : .ok token ∈ reader.pending → fine token

variable (symbols : Symbols σ ν)

theorem advance_keeps (expected : Option Token.Kind) :
    Attempt.Keeps (Sound inv fine) (advance symbols expected : Attempt (Reader σ) Token) fine := by
  intro reader sound
  unfold advance
  split
  · exact Attempt.Keeps.refuse reader sound
  · split
    · exact Attempt.Keeps.refuse reader sound
    · next fault rest pending =>
      have later : ∀ token, .ok token ∈ rest → fine token := by
        intro token inside
        exact sound.pending token (pending ▸ List.mem_cons_of_mem _ inside)
      exact Attempt.Keeps.refuse _ ⟨sound.state, sound.current, later⟩
    · next token rest pending =>
      have first : fine token := sound.pending token (pending ▸ List.mem_cons_self)
      have later : ∀ token, .ok token ∈ rest → fine token := by
        intro token inside
        exact sound.pending token (pending ▸ List.mem_cons_of_mem _ inside)
      split
      · have held : ∀ other ∈ some token, fine other := by
          intro other same
          exact Option.some.inj same ▸ first
        constructor
        · exact ⟨sound.state, held, later⟩
        · intro other same
          exact Except.ok.inj same ▸ first
      · exact Attempt.Keeps.refuse _ ⟨sound.state, sound.current, later⟩

theorem hold_keeps :
    Attempt.Keeps (Sound inv fine) (hold symbols : Attempt (Reader σ) Token) fine := by
  intro reader sound
  unfold hold
  split
  · next token here =>
    constructor
    · exact sound
    · intro other same
      have held : token = other := Except.ok.inj same
      exact held ▸ sound.current token here
  · exact advance_keeps symbols none reader sound

theorem take_keeps :
    Attempt.Keeps (Sound inv fine) (take symbols : Attempt (Reader σ) Token) fine := by
  apply (hold_keeps symbols).bind
  intro token here
  apply (advance_keeps symbols none).bind
  intro _ _
  exact .pure here

variable {operand : Nat → Attempt (Reader σ) (Option ν)}

theorem run_keeps
    (operands : ∀ power, Attempt.Keeps (Sound inv fine) (operand power) (Each good))
    {action : Action σ ν α} (keeps : action.Keeps inv good ends) :
    Attempt.Keeps (Sound inv fine) (run symbols operand action) ends := by
  induction keeps with
  | give holds => exact .pure holds
  | refuse => exact .refuse
  | @operand power next _ ih => exact (operands power).bind ih
  | @close kind next _ ih =>
    apply (advance_keeps symbols (some kind)).bind
    intro _ _
    exact ih
  | atEnd _ ih =>
    apply Attempt.Keeps.state.bind
    intro reader _
    exact ih reader.atConstructEnd
  | read _ ih =>
    apply Attempt.Keeps.state.bind
    intro reader sound
    exact ih reader.state sound.state
  | @write state next kept _ ih =>
    have writing : Attempt.Keeps (Sound inv fine)
        (Attempt.change fun reader => ((), { reader with state })) fun _ => True := by
      intro reader sound
      constructor
      · exact ⟨kept, sound.current, sound.pending⟩
      · intro _ _
        trivial
    apply writing.bind
    intro _ _
    exact ih

variable {symbols}

theorem openingOf_keeps (token : Token) :
    Attempt.Keeps (Sound inv fine) (openingOf symbols token)
      fun rule => symbols.opening? token.kind = some rule := by
  unfold openingOf
  split
  · next found => exact .pure found
  · exact .refuse

theorem followingOf_keeps (token : Token) :
    Attempt.Keeps (Sound inv fine) (followingOf symbols token)
      fun rule => symbols.following? token.kind = some rule := by
  unfold followingOf
  split
  · next found => exact .pure found
  · exact .refuse

theorem followWithin_keeps (keep : symbols.Keep inv good fine)
    (operands : ∀ power, Attempt.Keeps (Sound inv fine) (operand power) (Each good))
    (power bound : Nat) (left : Option ν) (holds : Each good left) :
    Attempt.Keeps (Sound inv fine) (followWithin symbols operand power bound left) (Each good) := by
  induction bound generalizing left with
  | zero =>
    apply Attempt.Keeps.state.bind
    intro reader _
    split
    · apply (take_keeps symbols).bind
      intro _ _
      exact .pure holds
    · exact .pure holds
  | succ bound ih =>
    apply Attempt.Keeps.state.bind
    intro reader _
    split
    · apply (take_keeps symbols).bind
      intro token here
      apply (followingOf_keeps token).bind
      intro rule found
      have applied := run_keeps symbols operands (keep.following token rule left here found holds)
      exact applied.bind ih
    · exact .pure holds

theorem expressionWithin_keeps (keep : symbols.Keep inv good fine) (nesting room power : Nat) :
    Attempt.Keeps (Sound inv fine) (expressionWithin symbols nesting room power) (Each good) := by
  induction room generalizing power with
  | zero => exact .refuse
  | succ room ih =>
    apply (take_keeps symbols).bind
    intro token here
    apply (openingOf_keeps token).bind
    intro rule found
    apply (run_keeps symbols ih (keep.opening token rule here found)).bind
    intro left holds reader sound
    exact followWithin_keeps keep ih power reader.pending.length left holds reader sound

theorem sequenceWithin_keeps (keep : symbols.Keep inv good fine) (nesting bound : Nat) :
    Attempt.Keeps (Sound inv fine) (sequenceWithin symbols nesting bound)
      fun values => ∀ meaning ∈ values, good meaning := by
  induction bound with
  | zero =>
    apply Attempt.Keeps.state.bind
    intro reader _
    split
    · exact .pure (List.forall_mem_nil _)
    · apply (expressionWithin_keeps keep nesting nesting 0).bind
      intro value holds
      apply Attempt.Keeps.pure
      intro meaning inside
      exact holds meaning (Option.mem_toList.1 inside)
  | succ bound ih =>
    apply Attempt.Keeps.state.bind
    intro reader _
    split
    · exact .pure (List.forall_mem_nil _)
    · apply (expressionWithin_keeps keep nesting nesting 0).bind
      intro value holds
      apply ih.bind
      intro values others
      apply Attempt.Keeps.pure
      intro meaning inside
      rcases List.mem_append.1 inside with here | there
      · exact holds meaning (Option.mem_toList.1 here)
      · exact others meaning there

theorem parse_keeps (keep : symbols.Keep inv good fine) (nesting : Nat) :
    Attempt.Keeps (Sound inv fine) (parse symbols nesting)
      fun values => ∀ meaning ∈ values, good meaning := by
  apply (advance_keeps symbols none).bind
  intro _ _ reader sound
  exact sequenceWithin_keeps keep nesting reader.pending.length reader sound

end Reader

section Growth

variable {ahead : σ → σ → Prop}

structure Symbols.Grow (symbols : Symbols σ ν) (inv : σ → Prop) (ahead : σ → σ → Prop)
    (good : ν → Prop) (fine : Token → Prop) : Prop where
  refl (state : σ) : ahead state state
  trans (first second third : σ) : ahead first second → ahead second third → ahead first third
  keep (start : σ) : symbols.Keep (fun state => inv state ∧ ahead start state) good fine

namespace Reader

variable {reader : Reader σ}

theorem Sound.weaken {inv' : σ → Prop} (sound : Sound inv fine reader)
    (weaker : ∀ state, inv state → inv' state) :
    Sound inv' fine reader :=
  ⟨weaker _ sound.state, sound.current, sound.pending⟩

/-- What keeps the states ahead of any start ends ahead of where it has started. -/
theorem grows_of_keeps {step : Attempt (Reader σ) α} (refl : ahead reader.state reader.state)
    (keeps : Attempt.Keeps (Sound (fun state => inv state ∧ ahead reader.state state) fine) step
      ends)
    (sound : Sound inv fine reader) :
    ahead reader.state (step reader).2.state ∧ Sound inv fine (step reader).2 ∧
      ∀ value, (step reader).1 = .ok value → ends value := by
  have start : Sound (fun state => inv state ∧ ahead reader.state state) fine reader :=
    ⟨⟨sound.state, refl⟩, sound.current, sound.pending⟩
  rcases keeps reader start with ⟨reached, answer⟩
  exact ⟨reached.state.2, reached.weaken fun _ kept => kept.1, answer⟩

end Reader

end Growth

end FactGraph.Precedence

namespace FactGraph

def Token.Kind.asks : Token.Kind → Bool
  | .assign | .arrow | .colon | .bang | .leftParen | .terminator => true
  | _ => false

namespace Precedence

variable {σ ν α β : Type}

/-- If the action asks, it has an answer only behind an operand, or where it sees the end of the
construct. Behind the operand it asks for nothing, but it may close a group there. -/
inductive Action.Asks : Bool → Action σ ν α → Prop
  | give {value : α} : Asks false (.give value)
  | refuse {asks : Bool} {fault : Fault} : Asks asks (.refuse fault)
  | operand {power : Nat} {next : Option ν → Action σ ν α}
      (rest : ∀ value, Asks false (next value)) :
      Asks true (.operand power next)
  | close {next : Action σ ν α} (rest : Asks false next) : Asks false (.close .rightParen next)
  | atEnd {next : Bool → Action σ ν α} (ended : Asks false (next true))
      (goes_on : Asks true (next false)) :
      Asks true (.atEnd next)
  | read {asks : Bool} {next : σ → Action σ ν α} (rest : ∀ state, Asks asks (next state)) :
      Asks asks (.read next)
  | write {asks : Bool} {state : σ} {next : Action σ ν α} (rest : Asks asks next) :
      Asks asks (.write state next)

theorem Action.Asks.perform {next : β → Action σ ν α} (step : Attempt σ β)
    (rest : ∀ value, (next value).Asks false) :
    (Action.perform step >>= next).Asks false := by
  rw [bind_eq, Action.perform]
  refine .read fun state => ?_
  dsimp only
  rcases step state with ⟨_ | value, reached⟩
  · exact .write .refuse
  · exact .write (rest value)

structure Symbols.Asks (symbols : Symbols σ ν) : Prop where
  opening {token : Token} {rule : Opening σ ν} : symbols.opening? token.kind = some rule →
    (rule token).Asks token.kind.asks
  following {token : Token} {left : Option ν} {rule : Following σ ν} :
      symbols.following? token.kind = some rule →
    (rule token left).Asks token.kind.asks

end Precedence

end FactGraph
