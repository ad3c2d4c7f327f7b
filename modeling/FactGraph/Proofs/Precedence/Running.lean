import FactGraph.Precedence.Progress

namespace FactGraph.Precedence.Reader

variable {σ ν α β : Type} (symbols : Symbols σ ν) (operand : Nat → Attempt (Reader σ) (Option ν))

theorem run_bind (action : Action σ ν α) (next : α → Action σ ν β) :
    run symbols operand (action >>= next) =
      run symbols operand action >>= fun value => run symbols operand (next value) := by
  rw [Action.bind_eq]
  induction action with
  | give value => rfl
  | refuse fault => rfl
  | operand power rest ih => simp only [Action.bind, run, bind_assoc, ih]
  | close kind rest ih => simp only [Action.bind, run, bind_assoc, ih]
  | atEnd rest ih => simp only [Action.bind, run, bind_assoc, ih]
  | read rest ih => simp only [Action.bind, run, bind_assoc, ih]
  | write state rest ih => simp only [Action.bind, run, bind_assoc, ih]

theorem run_expression (power : Nat) :
    run symbols operand (Action.expression power) = operand power :=
  bind_pure (operand power)

theorem run_ended_apply (reader : Reader σ) :
    run symbols operand Action.ended reader = (.ok reader.atConstructEnd, reader) := rfl

theorem run_state_apply (reader : Reader σ) :
    run symbols operand Action.state reader = (.ok reader.state, reader) := rfl

theorem run_perform_apply (step : Attempt σ α) (reader : Reader σ) :
    run symbols operand (Action.perform step) reader =
      ((step reader.state).1, { reader with state := (step reader.state).2 }) := by
  rcases stepped : step reader.state with ⟨_ | _, _⟩ <;>
    simp [Action.perform, run, Attempt.bind_apply, Attempt.change, stepped]

def facing (tokens : List Token) (state : σ) : Reader σ :=
  ⟨tokens.tail.map .ok, tokens.head?, state⟩

variable {symbols operand}

def Knows (symbols : Symbols σ ν) (tokens : List Token) : Prop :=
  ∀ token ∈ tokens, symbols.defines token.kind = true

def Complete (symbols : Symbols σ ν) : Prop := ∀ kind, symbols.defines kind = true

theorem Complete.knows (complete : Complete symbols) (tokens : List Token) : Knows symbols tokens :=
  fun token _ => complete token.kind

theorem advance_of_passed (complete : Complete symbols) {expected : Option Token.Kind}
    {token next : Token} {pending : List (Except Fault Token)} {state : σ} {after : Reader σ}
    (passed : advance symbols expected ⟨pending, some token, state⟩ = (.ok next, after))
    (second : Token) (later : List (Except Fault Token)) :
    advance symbols expected ⟨.ok second :: later, some token, state⟩ =
      (.ok second, ⟨later, some second, state⟩) := by
  have free : obstacle? expected ⟨pending, some token, state⟩ = none := by
    unfold advance at passed
    split at passed
    · simp at passed
    · assumption
  have free_other : obstacle? expected ⟨.ok second :: later, some token, state⟩ = none := free
  simp only [advance, free_other, complete second.kind, if_true]

variable {token : Token} {rest : List Token} {state : σ}

theorem advance_facing (known : Knows symbols rest) (more : rest ≠ [])
    (inside : token.kind ≠ .endOfInput) {expected : Option Token.Kind}
    (fits : ∀ kind ∈ expected, token.kind = kind) :
    ∃ next, advance symbols expected (facing (token :: rest) state) =
      (.ok next, facing rest state) := by
  rcases List.exists_cons_of_ne_nil more with ⟨next, others, rfl⟩
  refine ⟨next, ?_⟩
  have free : (facing (token :: next :: others) state).obstacle? expected = none := by
    cases expected with
    | none => simp [obstacle?, facing, inside]
    | some kind =>
      have same : token.kind = kind := fits kind rfl
      simp [obstacle?, facing, same, same ▸ inside]
  have defined : symbols.defines next.kind = true := known next List.mem_cons_self
  simp only [advance, free]
  simp [facing, defined]

theorem take_facing (known : Knows symbols rest) (more : rest ≠ [])
    (inside : token.kind ≠ .endOfInput) :
    take symbols (facing (token :: rest) state) = (.ok token, facing rest state) := by
  have passes : ∃ next, advance symbols none (facing (token :: rest) state) =
      (.ok next, facing rest state) := advance_facing known more inside (by simp)
  rcases passes with ⟨next, passed⟩
  have held : hold symbols (facing (token :: rest) state) =
      (.ok token, facing (token :: rest) state) := rfl
  rw [take, Attempt.bind_ok held, Attempt.bind_ok passed]
  rfl

theorem expressionWithin_facing (known : Knows symbols rest) (more : rest ≠ [])
    (inside : token.kind ≠ .endOfInput) {rule : Opening σ ν}
    (opening : symbols.opening? token.kind = some rule) (nesting room power : Nat) :
    expressionWithin symbols nesting (room + 1) power (facing (token :: rest) state) =
      (do
        let left ← run symbols (expressionWithin symbols nesting room) (rule token)
        follow symbols (expressionWithin symbols nesting room) power left) (facing rest state) := by
  rw [expressionWithin, Attempt.bind_ok (take_facing known more inside), openingOf]
  simp only [opening]
  rfl

theorem follow_facing (known : Knows symbols rest) (more : rest ≠ [])
    (inside : token.kind ≠ .endOfInput) {rule : Following σ ν}
    (following : symbols.following? token.kind = some rule)
    (operands : ∀ power, Consumes (operand power)) {power : Nat}
    (tighter : power < symbols.power token.kind) (left : Option ν) :
    follow symbols operand power left (facing (token :: rest) state) =
      (do
        let value ← run symbols operand (rule token left)
        follow symbols operand power value) (facing rest state) := by
  have binds : power < (facing (token :: rest) state).power symbols := tighter
  rw [follow_eq operands, if_pos binds, Attempt.bind_ok (take_facing known more inside),
    followingOf]
  simp only [following]
  rfl

theorem follow_facing_of_le (operands : ∀ power, Consumes (operand power)) {power : Nat}
    (looser : symbols.power token.kind ≤ power) (left : Option ν) :
    follow symbols operand power left (facing (token :: rest) state) =
      (.ok left, facing (token :: rest) state) := by
  have loose : ¬ power < (facing (token :: rest) state).power symbols := Nat.not_lt.2 looser
  rw [follow_eq operands, if_neg loose]

theorem parse_eq_sequence_of_knows {tokens : List Token} (known : Knows symbols tokens)
    (more : tokens ≠ []) (nesting : Nat) :
    (parse symbols nesting : Attempt (Reader σ) (List ν)) ⟨tokens.map .ok, none, state⟩ =
      sequence symbols nesting (facing tokens state) := by
  rcases List.exists_cons_of_ne_nil more with ⟨first, others, rfl⟩
  have defined : symbols.defines first.kind = true := known first List.mem_cons_self
  have passed : advance symbols none ⟨(first :: others).map .ok, none, state⟩ =
      (.ok first, facing (first :: others) state) := by
    simp [advance, obstacle?, defined, facing]
  rw [parse, Attempt.bind_ok passed]

theorem parse_eq_sequence (complete : Complete symbols) {tokens : List Token} (more : tokens ≠ [])
    (nesting : Nat) :
    (parse symbols nesting : Attempt (Reader σ) (List ν)) ⟨tokens.map .ok, none, state⟩ =
      sequence symbols nesting (facing tokens state) :=
  parse_eq_sequence_of_knows (complete.knows tokens) more nesting

theorem atEndOfInput_facing (more : rest ≠ [])
    (goesOn : (facing rest state).atConstructEnd = false) :
    (facing rest state).atEndOfInput = false := by
  rcases List.exists_cons_of_ne_nil more with ⟨first, others, rfl⟩
  simp only [atConstructEnd, facing, List.head?_cons] at goesOn
  simp only [atEndOfInput, facing, List.head?_cons, beq_eq_false_iff_ne]
  intro ends
  rw [ends] at goesOn
  contradiction

end FactGraph.Precedence.Reader
