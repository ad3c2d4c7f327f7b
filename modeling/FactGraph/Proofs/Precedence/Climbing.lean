import FactGraph.Precedence.Symbols
import FactGraph.Proofs.Attempt
import FactGraph.Proofs.Precedence.Registration
import FactGraph.Proofs.Precedence.Running
import Mathlib.Control.Monad.Basic

/-! Languages of binary operators. Whatever their powers are, also where those on the two sides of
an operator do not match, a run over operands joined by operators gives the one tree in which no
operator could have been taken earlier or later. -/

namespace FactGraph.Precedence

open Token (Kind)

inductive Tree where
  | leaf (token : Token)
  | node (left : Tree) (operator : Token) (right : Tree)
  deriving DecidableEq

namespace Tree

def join (left : Option Tree) (operator : Token) (right : Option Tree) : Option Tree := do
  return node (← left) operator (← right)

def reading : Tree → List Token
  | leaf token => [token]
  | node left operator right => left.reading ++ operator :: right.reading

def leftSpine : Tree → List Token
  | leaf _ => []
  | node left operator _ => operator :: left.leftSpine

def rightSpine : Tree → List Token
  | leaf _ => []
  | node _ operator right => operator :: right.rightSpine

/-- How many expressions are open at once when the tree is read: right operands are expressions of
their own. -/
def depth : Tree → Nat
  | leaf _ => 1
  | node left _ right => max left.depth (right.depth + 1)

/-- Every operator that begins a right operand binds tighter than asked for there, and none that
ends a left operand has left the next operator to it. -/
def Bound (left right : Kind → Nat) : Tree → Prop
  | leaf _ => True
  | node first operator second =>
      first.Bound left right ∧ second.Bound left right ∧
        (∀ other ∈ second.leftSpine, right operator.kind < left other.kind) ∧
        ∀ other ∈ first.rightSpine, left operator.kind ≤ right other.kind

def Over (kinds : List Kind) : Tree → Prop
  | leaf token => token.kind = .identifier
  | node first operator second => first.Over kinds ∧ operator.kind ∈ kinds ∧ second.Over kinds

theorem depth_pos (tree : Tree) : 0 < tree.depth := by
  cases tree with
  | leaf => exact Nat.one_pos
  | node first operator second => exact Nat.lt_of_lt_of_le (Nat.succ_pos _) (Nat.le_max_right _ _)

end Tree

inductive Joined (kinds : List Kind) : List Token → Prop
  | one {token : Token} (identifier : token.kind = .identifier) : Joined kinds [token]
  | more {earlier : List Token} {operator token : Token} (before : Joined kinds earlier)
      (joins : operator.kind ∈ kinds) (identifier : token.kind = .identifier) :
      Joined kinds (earlier ++ [operator, token])

namespace Tree

variable {kinds : List Kind} {left right : Kind → Nat}

theorem split_of_joined {tree : Tree} {earlier : List Token} {operator : Token}
    (joined : Joined kinds (earlier ++ operator :: tree.reading)) :
    Joined kinds earlier ∧ operator.kind ∈ kinds ∧ tree.Over kinds := by
  induction tree generalizing earlier operator with
  | leaf token =>
    generalize tokens_eq : earlier ++ operator :: (leaf token).reading = tokens at joined
    cases joined with
    | one identifier =>
      have lengths := congrArg List.length tokens_eq
      simp [reading] at lengths
    | more before joins identifier =>
      rw [reading] at tokens_eq
      rcases List.append_inj' tokens_eq rfl with ⟨rfl, same⟩
      simp only [List.cons.injEq, and_true] at same
      rcases same with ⟨rfl, rfl⟩
      exact ⟨before, joins, identifier⟩
  | node first middle second first_ih second_ih =>
    have regrouped : earlier ++ operator :: (node first middle second).reading =
        (earlier ++ operator :: first.reading) ++ middle :: second.reading := by simp [reading]
    rw [regrouped] at joined
    rcases second_ih joined with ⟨before, middle_joins, second_over⟩
    rcases first_ih before with ⟨earliest, joins, first_over⟩
    exact ⟨earliest, joins, first_over, middle_joins, second_over⟩

theorem over_of_joined {tree : Tree} (joined : Joined kinds tree.reading) : tree.Over kinds := by
  cases tree with
  | leaf token =>
    generalize tokens_eq : (leaf token).reading = tokens at joined
    cases joined with
    | one identifier =>
      rw [reading] at tokens_eq
      rwa [← List.singleton_inj.mp tokens_eq] at identifier
    | more before =>
      have lengths := congrArg List.length tokens_eq
      cases before <;> simp [reading] at lengths
  | node first operator second =>
    rcases split_of_joined joined with ⟨before, joins, second_over⟩
    exact ⟨over_of_joined before, joins, second_over⟩

theorem mem_of_mem_leftSpine {tree : Tree} {other : Token} (made : tree.Over kinds)
    (inside : other ∈ tree.leftSpine) : other.kind ∈ kinds := by
  induction tree with
  | leaf => contradiction
  | node first operator second first_ih _ =>
    rcases List.mem_cons.mp inside with rfl | below
    · exact made.2.1
    · exact first_ih made.1 below

theorem exists_reading_eq_cons {tree : Tree} (made : tree.Over kinds) :
    ∃ (token : Token) (rest : List Token), tree.reading = token :: rest ∧
    token.kind = .identifier := by
  induction tree with
  | leaf token => exact ⟨token, [], rfl, made⟩
  | node first operator second first_ih _ =>
    rcases first_ih made.1 with ⟨token, rest, begins, identifier⟩
    exact ⟨token, rest ++ operator :: second.reading, by rw [reading, begins, List.cons_append],
      identifier⟩

/-- The tree with an operator and an identifier after it: they go to the last operator of the right
spine from which all on the way bind looser than the new one does. -/
def extend (left right : Kind → Nat) (operator token : Token) : Tree → Tree
  | leaf first => node (leaf first) operator (leaf token)
  | node first middle second =>
      if ∀ other ∈ (node first middle second).rightSpine, left operator.kind ≤ right other.kind then
        node (node first middle second) operator (leaf token)
      else node first middle (extend left right operator token second)

variable {tree : Tree} {operator token : Token}

@[simp] theorem reading_extend : (tree.extend left right operator token).reading =
    tree.reading ++ [operator, token] := by
  induction tree with
  | leaf first => rfl
  | node first middle second _ ih =>
    rw [extend]
    split
    · rfl
    · rw [reading, ih, reading, List.append_assoc, List.cons_append]

/-- The left spine stays, or the new operator comes on top of it, if it binds no tighter than all on
the right spine ask for. -/
theorem leftSpine_extend (left right : Kind → Nat) (operator token : Token) (tree : Tree) :
    (tree.extend left right operator token).leftSpine = tree.leftSpine ∨
      (tree.extend left right operator token).leftSpine = operator :: tree.leftSpine ∧
        ∀ other ∈ tree.rightSpine, left operator.kind ≤ right other.kind := by
  cases tree with
  | leaf first => exact .inr ⟨rfl, nofun⟩
  | node first middle second =>
    rw [extend]
    split
    · next looser => exact .inr ⟨rfl, looser⟩
    · exact .inl rfl

theorem bound_extend (operator token : Token) (bound : tree.Bound left right) :
    (tree.extend left right operator token).Bound left right := by
  induction tree with
  | leaf first => exact ⟨trivial, trivial, nofun, nofun⟩
  | node first middle second _ ih =>
    rw [extend]
    split
    · next looser => exact ⟨bound, trivial, nofun, looser⟩
    · next tighter =>
      rcases bound with ⟨first_bound, second_bound, begins, ends⟩
      refine ⟨first_bound, ih second_bound, ?_, ends⟩
      rcases leftSpine_extend left right operator token second with stays | ⟨grows, looser⟩
      · rwa [stays]
      · -- No operator below has asked for more, so it is this one that the new operator binds
        -- tighter than.
        have taken : right middle.kind < left operator.kind := by
          apply Nat.lt_of_not_le
          intro loose
          apply tighter
          intro other inside
          rcases List.mem_cons.mp inside with rfl | below
          · exact loose
          · exact looser other below
        rw [grows]
        intro other inside
        rcases List.mem_cons.mp inside with rfl | below
        · exact taken
        · exact begins other below

theorem exists_bound {tokens : List Token} (joined : Joined kinds tokens) :
    ∃ tree : Tree, tree.reading = tokens ∧ tree.Bound left right := by
  induction joined with
  | @one token => exact ⟨leaf token, rfl, trivial⟩
  | @more earlier operator token _ _ _ ih =>
    rcases ih with ⟨tree, rfl, bound⟩
    exact ⟨tree.extend left right operator token, reading_extend, bound_extend operator token bound⟩

end Tree

/-- Operators of a language, and the registrations that make its table. -/
structure Operators (σ : Type) where
  kinds : List Kind
  signs : ∀ kind ∈ kinds, kind ∈ [Kind.assign, .arrow, .colon, .bang]
  /-- What each operator asks for on its right. -/
  right : Kind → Nat
  registrations : List (Registration σ Tree)
  binds : ∀ kind ∈ kinds, 1 ≤ Registration.highest registrations kind
  ruled : ∀ kind ∈ kinds, ∃ registration ∈ registrations,
    registration.kind = kind ∧ registration.following.isSome
  binary : ∀ registration ∈ registrations, registration.kind ∈ kinds →
    ∀ rule ∈ registration.following, rule = Form.binary (right registration.kind) Tree.join
  leaf :
      ∃ registration ∈ registrations, registration.kind = .identifier ∧ registration.opening.isSome
  leaves : ∀ registration ∈ registrations, registration.kind = .identifier →
    ∀ rule ∈ registration.opening, rule = Form.leaf fun token => some (.leaf token)
  ends : ∃ registration ∈ registrations, registration.kind = .endOfInput
  loose : Registration.highest registrations .endOfInput = 0

namespace Operators

open Reader

variable {σ : Type} (operators : Operators σ)

def symbols : Symbols σ Tree := Registration.table operators.registrations

def left : Kind → Nat := Registration.highest operators.registrations

variable {operators}

theorem power_symbols (kind : Kind) : operators.symbols.power kind = operators.left kind :=
  Registration.power_table

theorem following_operator {kind : Kind} (inside : kind ∈ operators.kinds) :
    operators.symbols.following? kind = some (Form.binary (operators.right kind) Tree.join) := by
  apply Registration.following?_table _ (operators.ruled kind inside)
  rintro registration registered rfl rule given
  exact operators.binary registration registered inside rule given

theorem opening_identifier :
    operators.symbols.opening? .identifier = some (Form.leaf fun token => some (.leaf token)) :=
  Registration.opening?_table operators.leaves operators.leaf

theorem knows_append {symbols : Symbols σ Tree} {first second : List Token} :
    Knows symbols (first ++ second) ↔ Knows symbols first ∧ Knows symbols second := by
  simp only [Knows, List.mem_append, or_imp, forall_and]

theorem knows_reading {tree : Tree} (made : tree.Over operators.kinds) :
    Knows operators.symbols tree.reading := by
  induction tree with
  | leaf token =>
    have identifier : token.kind = .identifier := made
    intro other inside
    rw [List.mem_singleton.mp inside, identifier]
    exact Symbols.defines_of_opening? opening_identifier
  | node first operator second first_ih second_ih =>
    rcases made with ⟨first_over, joins, second_over⟩
    refine knows_append.mpr ⟨first_ih first_over, ?_⟩
    intro other inside
    rcases List.mem_cons.mp inside with rfl | later
    · exact Symbols.defines_of_following? (following_operator joins)
    · exact second_ih second_over other later

theorem kind_ne_endOfInput {kind : Kind} (inside : kind ∈ operators.kinds) :
    kind ≠ .endOfInput := by
  rintro rfl
  simpa using operators.signs _ inside

section Reading

variable {first second tree : Tree} {operator next : Token} {after : List Token} {state : σ}
  {nesting room power : Nat}

theorem knows_operator (made : (Tree.node first operator second).Over operators.kinds)
    (known : Knows operators.symbols (next :: after)) :
    Knows operators.symbols (operator :: (second.reading ++ next :: after)) := by
  have inside := (knows_append.mp (knows_reading made)).2
  exact knows_append.mpr ⟨inside, known⟩

/-- Once the left operand has been read, the operator is given it, and reads its own right
operand. -/
theorem expressionWithin_node (made : (Tree.node first operator second).Over operators.kinds)
    (known : Knows operators.symbols (next :: after))
    (tighter : power < operators.left operator.kind)
    (read : expressionWithin operators.symbols nesting (room + 1) power
        (facing (first.reading ++ operator :: (second.reading ++ next :: after)) state) =
      follow operators.symbols (expressionWithin operators.symbols nesting room) power (some first)
        (facing (operator :: (second.reading ++ next :: after)) state)) :
    expressionWithin operators.symbols nesting (room + 1) power
        (facing ((Tree.node first operator second).reading ++ next :: after) state) =
      (do
        let right ← expressionWithin operators.symbols nesting room (operators.right operator.kind)
        follow operators.symbols (expressionWithin operators.symbols nesting room) power
          (Tree.join (some first) operator right))
          (facing (second.reading ++ next :: after) state) := by
  have joins : operator.kind ∈ operators.kinds := made.2.1
  have regrouped : (Tree.node first operator second).reading ++ next :: after =
      first.reading ++ operator :: (second.reading ++ next :: after) := by
    simp [Tree.reading]
  have known_rest : Knows operators.symbols (second.reading ++ next :: after) :=
    knows_append.mpr ⟨knows_reading made.2.2, known⟩
  have tighter_symbol : power < operators.symbols.power operator.kind := by rwa [power_symbols]
  rw [regrouped, read, follow_facing known_rest (by simp) (kind_ne_endOfInput joins)
    (following_operator joins) (expressionWithin_consumes _ nesting room) tighter_symbol,
    Form.binary, run_bind, run_expression, bind_assoc]
  rfl

/-- With enough room, a bound tree is read to its end, if its right spine leaves the next
operator. -/
theorem expressionWithin_reading (nesting : Nat) (state : σ)
    (bound : tree.Bound operators.left operators.right) (made : tree.Over operators.kinds)
    (enough : tree.depth ≤ room + 1) (known : Knows operators.symbols (next :: after))
    (begins : ∀ other ∈ tree.leftSpine, power < operators.left other.kind)
    (ends : ∀ other ∈ tree.rightSpine, operators.left next.kind ≤ operators.right other.kind) :
    expressionWithin operators.symbols nesting (room + 1) power
        (facing (tree.reading ++ next :: after) state) =
      follow operators.symbols (expressionWithin operators.symbols nesting room) power (some tree)
        (facing (next :: after) state) := by
  induction tree generalizing room power next after with
  | leaf token =>
    have identifier : token.kind = .identifier := made
    have inside : token.kind ≠ .endOfInput := by simp [identifier]
    exact expressionWithin_facing known (List.cons_ne_nil _ _) inside
      (identifier ▸ opening_identifier) _ _ _
  | node first operator second first_ih second_ih =>
    rcases bound with ⟨first_bound, second_bound, second_begins, first_ends⟩
    have tighter : power < operators.left operator.kind := begins operator List.mem_cons_self
    have first_fits : first.depth ≤ room + 1 := Nat.le_trans (Nat.le_max_left _ _) enough
    have first_read := first_ih first_bound made.1 first_fits (knows_operator made known)
      (fun other inside => begins other (List.mem_cons_of_mem _ inside)) first_ends
    rw [expressionWithin_node made known tighter first_read]
    -- The right operand is an expression of its own, so there is room for it within.
    obtain ⟨inner, rfl⟩ : ∃ inner, room = inner + 1 := by
      have positive := second.depth_pos
      have within : second.depth + 1 ≤ room + 1 := Nat.le_trans (Nat.le_max_right _ _) enough
      exact ⟨room - 1, by omega⟩
    have second_fits : second.depth ≤ inner + 1 :=
      Nat.le_of_succ_le_succ (Nat.le_trans (Nat.le_max_right _ _) enough)
    have leaves_next : operators.symbols.power next.kind ≤ operators.right operator.kind := by
      rw [power_symbols]
      exact ends operator List.mem_cons_self
    have second_read := second_ih second_bound made.2.2 second_fits known second_begins
      (fun other inside => ends other (List.mem_cons_of_mem _ inside))
    rw [follow_facing_of_le (expressionWithin_consumes _ nesting inner) leaves_next] at second_read
    rw [Attempt.bind_ok second_read]
    rfl

theorem expressionWithin_deep (bound : tree.Bound operators.left operators.right)
    (made : tree.Over operators.kinds) (deep : room < tree.depth)
    (known : Knows operators.symbols (next :: after))
    (begins : ∀ other ∈ tree.leftSpine, power < operators.left other.kind) :
    (expressionWithin operators.symbols nesting room power
      (facing (tree.reading ++ next :: after) state)).1 =
      .error (.limit (.nesting nesting)) := by
  induction tree generalizing room power next after with
  | leaf token =>
    obtain rfl : room = 0 := Nat.lt_one_iff.mp deep
    rfl
  | node first operator second first_ih second_ih =>
    rcases bound with ⟨first_bound, second_bound, second_begins, first_ends⟩
    have tighter : power < operators.left operator.kind := begins operator List.mem_cons_self
    have first_begins (other : Token) (inside : other ∈ first.leftSpine) : power <
        operators.left other.kind :=
      begins other (List.mem_cons_of_mem _ inside)
    have known_rest := knows_operator made known
    by_cases first_deep : room < first.depth
    · have stopped := first_ih first_bound made.1 first_deep known_rest first_begins
      simpa [Tree.reading] using stopped
    · obtain ⟨inner, rfl⟩ : ∃ inner, room = inner + 1 := by
        have positive := first.depth_pos
        exact ⟨room - 1, by omega⟩
      have first_read := expressionWithin_reading nesting state first_bound made.1
        (Nat.le_of_not_lt first_deep) known_rest first_begins first_ends
      have second_deep : inner < second.depth := by
        rw [Tree.depth] at deep
        omega
      have stopped := second_ih second_bound made.2.2 second_deep known second_begins
      rw [expressionWithin_node made known tighter first_read]
      exact Attempt.fst_bind_of_error stopped

end Reading

theorem parse_reading {ending : Token} (bound : tree.Bound operators.left operators.right)
    (made : tree.Over operators.kinds) (ends : ending.kind = .endOfInput)
    (nesting : Nat) (state : σ) :
    (parse operators.symbols nesting ⟨(tree.reading ++ [ending]).map .ok, none, state⟩).1 =
      if tree.depth ≤ nesting then .ok [tree] else .error (.limit (.nesting nesting)) := by
  have known_ending : Knows operators.symbols [ending] := by
    intro token inside
    rw [List.mem_singleton.mp inside, ends]
    exact Registration.defines_table operators.ends
  have known := knows_append.mpr ⟨knows_reading made, known_ending⟩
  have begins (other : Token) (inside : other ∈ tree.leftSpine) : 0 < operators.left other.kind :=
    operators.binds _ (Tree.mem_of_mem_leftSpine made inside)
  have loose : operators.left ending.kind = 0 := by
    rw [ends]
    exact operators.loose
  have goes_on : ¬ (facing (tree.reading ++ [ending]) state).atEndOfInput = true := by
    rcases Tree.exists_reading_eq_cons made with ⟨token, rest, first, identifier⟩
    simp [atEndOfInput, facing, first, identifier]
  have finished : sequence operators.symbols nesting (facing [ending] state) =
      (.ok [], facing [ending] state) := by
    have at_end : (facing [ending] state).atEndOfInput = true := by
      simp [atEndOfInput, facing, ends]
    rw [sequence_eq, if_pos at_end]
  rw [parse_eq_sequence_of_knows known (by simp), sequence_eq, if_neg goes_on]
  -- Behind the tree only the end of the input is left, which ends the sequence.
  split
  · next enough =>
    obtain ⟨room, rfl⟩ : ∃ room, nesting = room + 1 := by
      have positive := tree.depth_pos
      exact ⟨nesting - 1, by omega⟩
    have stops : operators.symbols.power ending.kind ≤ 0 :=
      Nat.le_of_eq ((power_symbols _).trans loose)
    have read := expressionWithin_reading (room + 1) state bound made enough known_ending begins
      (fun other _ => loose ▸ Nat.zero_le _)
    rw [follow_facing_of_le (expressionWithin_consumes _ _ room) stops] at read
    rw [expression, Attempt.bind_ok read, Attempt.bind_ok finished]
    rfl
  · next deep =>
    exact Attempt.fst_bind_of_error
      (expressionWithin_deep bound made (Nat.lt_of_not_le deep) known_ending begins)

/-- For identifiers joined by operators there is one tree in which no operator could have been taken
earlier or later, and it is what every run gives, unless the tree is deeper than expressions may
nest. -/
theorem parse_climbs (operators : Operators σ) (source : String) (state : σ) {tokens : List Token}
    {ending : Token} (joined : Joined operators.kinds tokens) (ends : ending.kind = .endOfInput)
    (stream : (Token.Cursor.ofSource source).tokens = (tokens ++ [ending]).map .ok) :
    ∃ tree : Tree, tree.reading = tokens ∧ tree.Bound operators.left operators.right ∧
      (∀ other : Tree, other.reading = tokens → other.Bound operators.left operators.right →
        other = tree) ∧
      ∀ nesting, (parse operators.symbols nesting (Reader.ofSource source state)).1 =
        if tree.depth ≤ nesting then .ok [tree] else .error (.limit (.nesting nesting)) := by
  rcases Tree.exists_bound joined with ⟨tree, rfl, bound⟩
  have made := Tree.over_of_joined joined
  refine ⟨tree, rfl, bound, ?_, ?_⟩
  · intro other same other_bound
    have other_over : other.Over operators.kinds := Tree.over_of_joined (same ▸ joined)
    -- The run under a limit that suffices for both trees gives each of them.
    have gives := parse_reading bound made ends (max tree.depth other.depth) state
    have gives_other := parse_reading other_bound other_over ends (max tree.depth other.depth) state
    rw [if_pos (Nat.le_max_left _ _)] at gives
    rw [if_pos (Nat.le_max_right _ _), same, gives] at gives_other
    simpa using gives_other.symm
  · intro nesting
    rw [Reader.ofSource, stream]
    exact parse_reading bound made ends nesting state

/-- A property sign that groups to the right, registered in two steps, and an arrow that groups to
the left and binds tighter. -/
def brackets : Operators Unit where
  kinds := [.colon, .arrow]
  signs := by decide
  right
    | .colon => 9
    | _ => 20
  registrations := [
    { kind := .endOfInput, power := 0 },
    { kind := .identifier, power := 0, opening :=
    some (Form.leaf fun token => some (.leaf token)) },
    { kind := .colon, power := 4 },
    { kind := .colon, power := 10, following := some (Form.binary 9 Tree.join) },
    { kind := .arrow, power := 20, following := some (Form.binary 20 Tree.join) }]
  binds := by decide
  ruled := by simp
  binary := by simp
  leaf := by simp
  leaves := by simp
  ends := by simp
  loose := by decide

/-- The tree of a chain of the two, with the tighter operator below. -/
theorem parse_climbs_brackets :
    ∃ tree : Tree, tree.Bound brackets.left brackets.right ∧
      ∀ nesting, (parse brackets.symbols nesting (Reader.ofSource "a:b=>c" ())).1 =
        if tree.depth ≤ nesting then .ok [tree] else .error (.limit (.nesting nesting)) := by
  let tokens : List Token :=
    [⟨.identifier, "a", some "a", ⟨0, 1, 1, 1⟩⟩, ⟨.colon, ":", none, ⟨1, 2, 1, 2⟩⟩,
    ⟨.identifier, "b", some "b", ⟨2, 3, 1, 3⟩⟩, ⟨.arrow, "=>", none, ⟨3, 5, 1, 4⟩⟩,
    ⟨.identifier, "c", some "c", ⟨5, 6, 1, 6⟩⟩]
  have stream : (Token.Cursor.ofSource "a:b=>c").tokens =
      (tokens ++ [Token.endOfInput ⟨6, 6, 1, 7⟩]).map .ok := by decide +kernel
  have joined : Joined brackets.kinds tokens :=
    .more (.more (.one rfl) (by decide) rfl) (by decide) rfl
  rcases parse_climbs brackets "a:b=>c" () joined rfl stream with ⟨tree, _, bound, _, gives⟩
  exact ⟨tree, bound, gives⟩

end Operators

end FactGraph.Precedence
