import FactGraph.Precedence.Reader

/-! The nesting of expressions, counted. A reader may keep a count of the expressions that are open,
which goes up where an expression begins and down again where it ends, with an answer or with a
fault. It does what a reader does that is given room, and the count it ends with is the one that it
began with. -/

namespace FactGraph.Precedence

variable {σ ν α β : Type}

/-- The action on a state with a count beside it, which it leaves alone. -/
def Action.counted : Action σ ν α → Action (σ × Nat) ν α
  | give value => give value
  | refuse fault => refuse fault
  | operand power next => operand power fun value => (next value).counted
  | close kind next => close kind next.counted
  | atEnd next => atEnd fun answer => (next answer).counted
  | read next => read fun current => (next current.1).counted
  | write state next => read fun current => write (state, current.2) next.counted

def Symbol.counted (symbol : Symbol σ ν) : Symbol (σ × Nat) ν where
  power := symbol.power
  opening := symbol.opening.map fun rule token => (rule token).counted
  following := symbol.following.map fun rule token left => (rule token left).counted

def Symbols.counted (symbols : Symbols σ ν) : Symbols (σ × Nat) ν := fun kind =>
  (symbols kind).map (·.counted)

theorem Symbols.power_counted (symbols : Symbols σ ν) (kind : Token.Kind) :
    symbols.counted.power kind = symbols.power kind := by
  simp only [power, counted]
  cases symbols kind <;> rfl

namespace Reader

def counted (reader : Reader σ) (depth : Nat) : Reader (σ × Nat) :=
  ⟨reader.pending, reader.current, (reader.state, depth)⟩

def recount (change : Nat → Nat) (reader : Reader (σ × Nat)) : Reader (σ × Nat) :=
  { reader with state := (reader.state.1, change reader.state.2) }

/-- An expression without regard to its nesting, whose operands are read in the given way. -/
def expressionBy (symbols : Symbols σ ν) (operand : Nat → Attempt (Reader σ) (Option ν))
    (power : Nat) :
    Attempt (Reader σ) (Option ν) := do
  let token ← take symbols
  let rule ← openingOf symbols token
  let left ← run symbols operand (rule token)
  follow symbols operand power left

def sequenceBy (expression : Attempt (Reader σ) (Option ν)) :
    (bound : Nat) → Attempt (Reader σ) (List ν)
  | 0 => do
      let reader ← Attempt.state
      if reader.atEndOfInput then return []
      else do
        let value ← expression
        return value.toList
  | bound + 1 => do
      let reader ← Attempt.state
      if reader.atEndOfInput then return []
      else do
        let value ← expression
        let values ← sequenceBy expression bound
        return value.toList ++ values

/-- Reads an expression, unless as many are open as may be. The count is taken back in any case. The
bound is on the calls within each other; at it, the count has come to the limit. -/
def expressionCounting (symbols : Symbols (σ × Nat) ν) (nesting : Nat) :
    (bound : Nat) → (power : Nat) → Attempt (Reader (σ × Nat)) (Option ν)
  | 0, _ => Attempt.refuse (.limit (.nesting nesting))
  | bound + 1, power => fun reader =>
      if nesting ≤ reader.state.2 then (.error (.limit (.nesting nesting)), reader)
      else
        let (answer, reached) :=
          expressionBy symbols (expressionCounting symbols nesting bound) power
            (reader.recount (· + 1))
        (answer, reached.recount (· - 1))

def parseCounting (symbols : Symbols (σ × Nat) ν) (nesting : Nat) :
    Attempt (Reader (σ × Nat)) (List ν) := do
  let _ ← advance symbols none
  fun reader => sequenceBy (expressionCounting symbols nesting nesting 0)
      reader.pending.length reader

/-- With so many expressions open, the second step is the first, and keeps the count. -/
def Counts (depth : Nat) (step : Attempt (Reader σ) α) (counting : Attempt (Reader (σ × Nat)) α) :
    Prop :=
  ∀ reader : Reader σ, counting (reader.counted depth) =
    ((step reader).1, (step reader).2.counted depth)

variable {symbols : Symbols σ ν} {depth : Nat}

namespace Counts

theorem pure (value : α) : Counts (σ := σ) depth (Pure.pure value) (Pure.pure value) := fun _ => rfl

theorem refuse (fault : Fault) :
    Counts (σ := σ) (α := α) depth (Attempt.refuse fault) (Attempt.refuse fault) :=
  fun _ => rfl

theorem bind {step : Attempt (Reader σ) α} {counting : Attempt (Reader (σ × Nat)) α}
    {next : α → Attempt (Reader σ) β} {nextCounting : α → Attempt (Reader (σ × Nat)) β}
    (first : Counts depth step counting)
    (rest : ∀ value, Counts depth (next value) (nextCounting value)) :
    Counts depth (step >>= next) (counting >>= nextCounting) := by
  intro reader
  have counted := first reader
  rcases run : step reader with ⟨fault | value, reached⟩
  · rw [run] at counted
    rw [Attempt.bind_error run, Attempt.bind_error counted]
  · rw [run] at counted
    rw [Attempt.bind_ok run, Attempt.bind_ok counted, rest value reached]

theorem look {next : Reader σ → Attempt (Reader σ) β}
    {nextCounting : Reader (σ × Nat) → Attempt (Reader (σ × Nat)) β}
    (rest : ∀ reader, Counts depth (next reader) (nextCounting (reader.counted depth))) :
    Counts depth (Attempt.state >>= next) (Attempt.state >>= nextCounting) := by
  intro reader
  exact rest reader reader

end Counts

theorem defines_counted (kind : Token.Kind) :
    symbols.counted.defines kind = symbols.defines kind := by
  simp only [Symbols.defines, Symbols.counted, Option.isSome_map]

theorem power_counted (reader : Reader σ) :
    (reader.counted depth).power symbols.counted = reader.power symbols := by
  unfold power counted
  cases reader.current with
  | none => rfl
  | some token => exact symbols.power_counted token.kind

theorem opening?_counted (kind : Token.Kind) :
    symbols.counted.opening? kind = (symbols.opening? kind).map fun rule token =>
    (rule token).counted := by
  simp only [Symbols.opening?, Symbols.counted]
  cases symbols kind <;> rfl

theorem following?_counted (kind : Token.Kind) :
    symbols.counted.following? kind =
      (symbols.following? kind).map fun rule token left => (rule token left).counted := by
  simp only [Symbols.following?, Symbols.counted]
  cases symbols kind <;> rfl

theorem openingNames_counted : symbols.counted.openingNames = symbols.openingNames := by
  simp only [Symbols.openingNames, opening?_counted, Option.isSome_map]

theorem followingNames_counted : symbols.counted.followingNames = symbols.followingNames := by
  simp only [Symbols.followingNames, following?_counted, Option.isSome_map]

theorem advance_counts (expected : Option Token.Kind) :
    Counts depth (advance symbols expected) (advance symbols.counted expected) := by
  intro reader
  have obstacle : (reader.counted depth).obstacle? expected = reader.obstacle? expected := rfl
  have pending : (reader.counted depth).pending = reader.pending := rfl
  unfold advance
  rw [obstacle, pending]
  split
  · rfl
  · split
    · rfl
    · rfl
    · rw [defines_counted]
      split <;> rfl

theorem hold_counts : Counts depth (hold symbols) (hold symbols.counted) := by
  intro reader
  have current : (reader.counted depth).current = reader.current := rfl
  unfold hold
  rw [current]
  split
  · rfl
  · exact advance_counts none reader

theorem take_counts : Counts depth (take symbols) (take symbols.counted) := by
  apply hold_counts.bind
  intro token
  apply (advance_counts none).bind
  intro _
  exact .pure token

variable {operand : Nat → Attempt (Reader σ) (Option ν)}
  {operandCounting : Nat → Attempt (Reader (σ × Nat)) (Option ν)}

theorem run_counts (operands : ∀ power, Counts depth (operand power) (operandCounting power))
    (action : Action σ ν α) :
    Counts depth (run symbols operand action)
      (run symbols.counted operandCounting action.counted) := by
  induction action with
  | give value => exact .pure value
  | refuse fault => exact .refuse fault
  | operand power next ih => exact (operands power).bind ih
  | close kind next ih =>
    apply (advance_counts (some kind)).bind
    intro _
    exact ih
  | atEnd next ih =>
    apply Counts.look
    intro reader
    exact ih reader.atConstructEnd
  | read next ih =>
    apply Counts.look
    intro reader
    exact ih reader.state
  | write state next ih =>
    intro reader
    exact ih { reader with state }

section

variable {next : Option ν → Attempt (Reader σ) β}
  {nextCounting : Option ν → Attempt (Reader (σ × Nat)) β}

theorem opened_counts (operands : ∀ power, Counts depth (operand power) (operandCounting power))
    (token : Token) (rest : ∀ value, Counts depth (next value) (nextCounting value)) :
    Counts depth (openingOf symbols token >>= fun rule => run symbols operand (rule token) >>= next)
      (openingOf symbols.counted token >>= fun rule =>
        run symbols.counted operandCounting (rule token) >>= nextCounting) := by
  unfold openingOf
  rw [opening?_counted, openingNames_counted]
  cases symbols.opening? token.kind with
  | none => exact fun _ => rfl
  | some rule => exact (run_counts operands (rule token)).bind rest

theorem followed_counts (operands : ∀ power, Counts depth (operand power) (operandCounting power))
    (token : Token) (left : Option ν)
    (rest : ∀ value, Counts depth (next value) (nextCounting value)) :
    Counts depth
      (followingOf symbols token >>= fun rule =>
        run symbols operand (rule token left) >>= next)
      (followingOf symbols.counted token >>= fun rule =>
        run symbols.counted operandCounting (rule token left) >>= nextCounting) := by
  unfold followingOf
  rw [following?_counted, followingNames_counted]
  cases symbols.following? token.kind with
  | none => exact fun _ => rfl
  | some rule => exact (run_counts operands (rule token left)).bind rest

end

theorem followWithin_counts
    (operands : ∀ power, Counts depth (operand power) (operandCounting power)) (power bound : Nat)
    (left : Option ν) :
    Counts depth (followWithin symbols operand power bound left)
      (followWithin symbols.counted operandCounting power bound left) := by
  induction bound generalizing left with
  | zero =>
    apply Counts.look
    intro reader
    rw [power_counted]
    split
    · exact take_counts.bind fun _ => .pure left
    · exact .pure left
  | succ bound ih =>
    apply Counts.look
    intro reader
    rw [power_counted]
    split
    · apply take_counts.bind
      intro token
      exact followed_counts operands token left ih
    · exact .pure left

theorem expressionBy_counts
    (operands : ∀ power, Counts depth (operand power) (operandCounting power)) (power : Nat) :
    Counts depth (expressionBy symbols operand power)
      (expressionBy symbols.counted operandCounting power) := by
  apply take_counts.bind
  intro token
  apply opened_counts operands token
  intro left reader
  exact followWithin_counts operands power reader.pending.length left reader

variable {nesting : Nat}

/-- Reading with so many expressions open is reading with room for the others. -/
theorem expressionCounting_counts {bound : Nat} (enough : nesting ≤ depth + bound) (power : Nat) :
    Counts depth (expressionWithin symbols nesting (nesting - depth) power)
      (expressionCounting symbols.counted nesting bound power) := by
  induction bound generalizing depth power with
  | zero =>
    have full : nesting - depth = 0 := by omega
    rw [full]
    exact .refuse _
  | succ bound ih =>
    intro reader
    have count : (reader.counted depth).state.2 = depth := rfl
    simp only [expressionCounting, count]
    by_cases limit : nesting ≤ depth
    · have full : nesting - depth = 0 := by omega
      rw [if_pos limit, full]
      rfl
    · have room : nesting - depth = nesting - (depth + 1) + 1 := by omega
      have deeper : nesting ≤ depth + 1 + bound := by omega
      have begun : (reader.counted depth).recount (· + 1) = reader.counted (depth + 1) := rfl
      have inner : expressionBy symbols.counted
          (expressionCounting symbols.counted nesting bound) power
          (reader.counted (depth + 1)) = _ := expressionBy_counts (ih deeper) power reader
      rw [if_neg limit, begun, inner, room]
      rfl

theorem sequenceBy_counts {expression : Attempt (Reader σ) (Option ν)}
    {expressionCounting : Attempt (Reader (σ × Nat)) (Option ν)}
    (counts : Counts depth expression expressionCounting) (bound : Nat) :
    Counts depth (sequenceBy expression bound) (sequenceBy expressionCounting bound) := by
  induction bound with
  | zero =>
    apply Counts.look
    intro reader
    have ended : (reader.counted depth).atEndOfInput = reader.atEndOfInput := rfl
    rw [ended]
    split
    · exact .pure []
    · exact counts.bind fun _ => .pure _
  | succ bound ih =>
    apply Counts.look
    intro reader
    have ended : (reader.counted depth).atEndOfInput = reader.atEndOfInput := rfl
    rw [ended]
    split
    · exact .pure []
    · exact counts.bind fun _ => ih.bind fun _ => .pure _

theorem sequenceWithin_eq_sequenceBy (bound : Nat) :
    sequenceWithin symbols nesting bound = sequenceBy (expression symbols nesting 0) bound := by
  induction bound with
  | zero => rfl
  | succ bound ih => simp only [sequenceWithin, sequenceBy, ih]

theorem parseCounting_counts :
    Counts 0 (parse symbols nesting) (parseCounting symbols.counted nesting) := by
  apply (advance_counts none).bind
  intro _ reader
  have counts : Counts 0 (expression symbols nesting 0)
      (expressionCounting symbols.counted nesting nesting 0) :=
    expressionCounting_counts (Nat.le_add_left nesting 0) 0
  rw [sequence, sequenceWithin_eq_sequenceBy]
  exact sequenceBy_counts counts reader.pending.length reader

end Reader

end FactGraph.Precedence
