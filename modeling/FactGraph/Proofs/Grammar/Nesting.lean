import FactGraph.Compilation
import FactGraph.Proofs.Precedence.Course
import FactGraph.Proofs.Token.Covering

/-! Parentheses. A rule that is called for an opening parenthesis closes it with the next token that
is not taken within it, and no other rule takes a parenthesis. So those that a run takes are
properly nested. -/

namespace FactGraph

open Token (Kind)

/-- Every parenthesis that is opened is closed behind what is inside of it. -/
inductive Nested : List Kind → Prop
  | nil : Nested []
  | other {kind : Kind} {rest : List Kind} (opens : kind ≠ .leftParen) (closes : kind ≠ .rightParen)
      (later : Nested rest) : Nested (kind :: rest)
  | group {inner rest : List Kind} (inside : Nested inner) (later : Nested rest) :
      Nested (.leftParen :: (inner ++ .rightParen :: rest))

theorem Nested.append {first second : List Kind} (before : Nested first) (after : Nested second) :
    Nested (first ++ second) := by
  induction before with
  | nil => exact after
  | other opens closes _ ih => exact .other opens closes ih
  | @group inner rest inside _ _ ih =>
    rw [List.cons_append, List.append_assoc, List.cons_append]
    exact .group inside ih

def Parted : (closings kinds : List Kind) → Prop
  | [], kinds => Nested kinds
  | closing :: closings, kinds =>
      ∃ inner rest, kinds = inner ++ closing :: rest ∧ Nested inner ∧ Parted closings rest

theorem Parted.append {closings first second : List Kind} (before : Nested first)
    (after : Parted closings second) :
    Parted closings (first ++ second) := by
  cases closings with
  | nil => exact before.append after
  | cons closing closings =>
    rcases after with ⟨inner, rest, rfl, inside, later⟩
    exact ⟨first ++ inner, rest, (List.append_assoc _ _ _).symm, before.append inside, later⟩

namespace Precedence

variable {σ ν α β : Type}

def Action.Closes : List Kind → Action σ ν α → Prop
  | closings, .give _ => closings = []
  | _, .refuse _ => True
  | closings, .operand _ next => ∀ value, (next value).Closes closings
  | closings, .close kind next => ∃ later, closings = kind :: later ∧ next.Closes later
  | closings, .atEnd next => ∀ answer, (next answer).Closes closings
  | closings, .read next => ∀ state, (next state).Closes closings
  | closings, .write _ next => next.Closes closings

namespace Action.Closes

theorem bind {action : Action σ ν α} {next : α → Action σ ν β} {closings later : List Kind}
    (first : action.Closes closings) (second : ∀ value, (next value).Closes later) :
    (action >>= next).Closes (closings ++ later) := by
  rw [bind_eq]
  induction action generalizing closings with
  | give value =>
    obtain rfl : closings = [] := first
    exact second value
  | refuse fault => trivial
  | operand power rest ih => exact fun value => ih value (first value)
  | close kind rest ih =>
    rcases first with ⟨more, rfl, closes⟩
    exact ⟨more ++ later, rfl, ih closes⟩
  | atEnd rest ih => exact fun answer => ih answer (first answer)
  | read rest ih => exact fun state => ih state (first state)
  | write state rest ih => exact ih first

theorem pure (value : α) : (Pure.pure value : Action σ ν α).Closes [] := rfl

theorem refuse (fault : Fault) (closings : List Kind) :
    (Action.refuse fault : Action σ ν α).Closes closings :=
  trivial

theorem expression (power : Nat) : (Action.expression power : Action σ ν (Option ν)).Closes [] :=
  fun _ => rfl

theorem pass (kind : Kind) : (Action.pass kind : Action σ ν Unit).Closes [kind] := ⟨[], rfl, rfl⟩

theorem ended : (Action.ended : Action σ ν Bool).Closes [] := fun _ => rfl

theorem state : (Action.state : Action σ ν σ).Closes [] := fun _ => rfl

theorem perform (step : Attempt σ α) : (Action.perform step : Action σ ν α).Closes [] := by
  intro current
  dsimp only
  split
  · rfl
  · trivial

end Action.Closes

/-- The rule for an opening parenthesis closes it, and the other rules neither begin with a
parenthesis nor close with anything. -/
structure Symbols.Pairs (symbols : Symbols σ ν) : Prop where
  group {rule : Opening σ ν} : symbols.opening? .leftParen = some rule →
    ∀ token, (rule token).Closes [.rightParen]
  opening {kind : Kind} {rule : Opening σ ν} :
      kind ≠ .leftParen → symbols.opening? kind = some rule →
    kind ≠ .rightParen ∧ ∀ token, (rule token).Closes []
  following {kind : Kind} {rule : Following σ ν} : symbols.following? kind = some rule →
    kind ≠ .leftParen ∧ kind ≠ .rightParen ∧ ∀ token left, (rule token left).Closes []

def Call.kinds (calls : List Call) : List Kind := calls.map (·.token.kind)

theorem Call.kinds_cons (call : Call) (calls : List Call) :
    kinds (call :: calls) = call.token.kind :: kinds calls := rfl

theorem Call.kinds_append (first second : List Call) :
    kinds (first ++ second) = kinds first ++ kinds second :=
  List.map_append

variable {symbols : Symbols σ ν} {nesting : Nat} {task : Task σ ν} {reader : Reader σ}
  {calls : List Call} {ending : Except Fault (Option ν) × Reader σ}

/-- What the tokens are that a task takes: an action closes with those that it is known to close
with. -/
def Task.Orders (kinds : List Kind) : Task σ ν → Prop
  | .expression _ _ => Nested kinds
  | .action _ doing => ∀ closings, doing.Closes closings → Parted closings kinds
  | .follow _ _ _ => Nested kinds

theorem Course.orders (pairs : symbols.Pairs)
    (course : Course symbols nesting task reader calls ending)
    (answered : ∃ value, ending.1 = .ok value) : task.Orders (Call.kinds calls) := by
  induction course with
  | limit | unopened | openingFailed | unfollowed | followingFailed | refuse
  | operandFailed | unclosed =>
    rcases answered with ⟨value, impossible⟩
    contradiction
  | loose => exact .nil
  | give =>
    rintro closings rfl
    exact .nil
  | @opened _ _ token _ _ _ _ _ _ _ _ taken _ _ ran follows =>
    have opening := (Reader.takeOpening_eq_ok taken).2
    have inside := ran ⟨_, rfl⟩
    have later : Nested _ := follows answered
    rw [Task.Orders, Call.kinds_cons, Call.kinds_append, Call.token]
    by_cases group : token.kind = .leftParen
    · -- The rule has closed exactly one group, and this is the one that the token opens.
      rw [group] at opening ⊢
      rcases inside _ (pairs.group opening token) with ⟨inner, rest, split, nested, nested_rest⟩
      rw [split, List.append_assoc, List.cons_append]
      exact .group nested (Nested.append nested_rest later)
    · rcases pairs.opening group opening with ⟨closes, no_closing⟩
      exact .other group closes (Nested.append (inside _ (no_closing token)) later)
  | followed _ taken _ _ ran follows =>
    have following := (Reader.takeFollowing_eq_ok taken).2
    rcases pairs.following following with ⟨opens, closes, no_closing⟩
    have inside := ran ⟨_, rfl⟩ _ (no_closing _ _)
    have later : Nested _ := follows answered
    rw [Task.Orders, Call.kinds_cons, Call.kinds_append, Call.token]
    exact .other opens closes (Nested.append inside later)
  | operand _ _ read rest =>
    intro closings closes
    rw [Call.kinds_append]
    have inside : Nested _ := read ⟨_, rfl⟩
    exact Parted.append inside (rest answered closings (closes _))
  | close current passed _ ih =>
    rintro closings ⟨later, rfl, closes⟩
    have kind := Reader.kind_of_advance current passed
    exact ⟨[], _, by rw [Call.kinds_cons, Call.token, kind]; rfl, .nil, ih answered later closes⟩
  | atEnd _ ih => exact fun closings closes => ih answered closings (closes _)
  | read _ ih => exact fun closings closes => ih answered closings (closes _)
  | write _ ih => exact fun closings closes => ih answered closings closes

theorem Courses.nested (pairs : symbols.Pairs) {ending : Except Fault (List ν) × Reader σ}
    (courses : Courses symbols nesting reader calls ending)
    (answered : ∃ values, ending.1 = .ok values) :
    Nested (Call.kinds calls) := by
  induction courses with
  | failed | laterFailed =>
    rcases answered with ⟨values, impossible⟩
    contradiction
  | finished => exact .nil
  | more _ read _ ih =>
    have first : Nested _ := read.orders pairs ⟨_, rfl⟩
    rw [Call.kinds_append]
    exact first.append (ih ⟨_, rfl⟩)

theorem WholeCourse.nested (pairs : symbols.Pairs) {ending : Except Fault (List ν) × Reader σ}
    (course : WholeCourse symbols nesting reader calls ending)
    (answered : ∃ values, ending.1 = .ok values) :
    Nested (Call.kinds calls) := by
  cases course with
  | unbegun =>
    rcases answered with ⟨values, impossible⟩
    contradiction
  | begun _ rest => exact rest.nested pairs answered

end Precedence

namespace Grammar

open Precedence Action

variable {citation : Nat}

theorem needEntities_closes (context : String) (span : Span) (value : Option Meaning) :
    (needEntities context span value).Closes [] := by
  unfold needEntities
  split
  · exact .pure _
  · exact .refuse _ _

theorem needProperties_closes (context : String) (span : Span) (value : Option Meaning) :
    (needProperties context span value).Closes [] := by
  unfold needProperties
  split
  · exact .pure _
  · exact .refuse _ _

theorem needValue_closes (span : Span) (value : Option Meaning) :
    (needValue span value).Closes [] := by
  unfold needValue
  split
  · exact .pure _
  · exact .pure _
  · exact .refuse _ _

theorem terminator_closes (token : Token) (left : Option Meaning) :
    (terminator token left).Closes [] := by
  apply Closes.ended.bind
  intro ended
  split
  · exact .pure _
  · split
    · exact .refuse _ _
    · apply (Closes.expression _).bind
      intro right
      unfold join
      split <;> first | exact .pure _ | exact .refuse _ _

theorem assignment_closes (token : Token) (left : Option Meaning) :
    (assignment token left).Closes [] := by
  unfold assignment
  split
  · apply Closes.state.bind
    intro builder
    split
    · exact .refuse _ _
    · apply (Closes.expression _).bind
      intro right
      apply (needValue_closes _ _).bind
      intro value
      exact (Closes.perform _).bind fun _ => .pure _
  · exact .refuse _ _

theorem property_closes (token : Token) (left : Option Meaning) :
    (property token left).Closes [] := by
  apply (needEntities_closes _ _ _).bind
  intro predicates
  apply (Closes.expression _).bind
  intro right
  exact (needEntities_closes _ _ _).bind fun _ => .pure _

theorem description_closes (token : Token) (left : Option Meaning) :
    (description citation token left).Closes [] := by
  unfold description
  split
  · apply (Closes.expression _).bind
    intro right
    apply (needProperties_closes _ _ _).bind
    intro properties
    exact (Closes.perform _).bind fun _ => .pure _
  · apply (Closes.expression _).bind
    intro right
    exact (needProperties_closes _ _ _).bind fun _ => .pure _
  · exact .refuse _ _

theorem label_closes (token : Token) (left : Option Meaning) : (label token left).Closes [] := by
  unfold label
  split
  · apply (Closes.expression _).bind
    intro right
    apply (needEntities_closes _ _ _).bind
    rintro ⟨names, place⟩
    dsimp only
    split
    · exact .pure _
    · exact .refuse _ _
  · exact .refuse _ _
  · exact .refuse _ _

theorem symbols_pairs (citation : Nat) : (symbols citation).Pairs where
  group := by
    rintro rule found token
    obtain rfl := Option.some.inj found
    exact (Closes.expression _).bind fun _ => (Closes.pass _).bind fun _ => .pure _
  opening := by
    intro kind rule other found
    cases kind with
    | leftParen => contradiction
    | target =>
      obtain rfl := Option.some.inj found
      exact ⟨by decide, fun _ => .pure _⟩
    | reference =>
      obtain rfl := Option.some.inj found
      refine ⟨by decide, fun token => Closes.state.bind fun builder => ?_⟩
      split
      · exact .pure _
      · exact .refuse _ _
    | identifier =>
      obtain rfl := Option.some.inj found
      exact ⟨by decide, fun token => (Closes.perform _).bind fun _ => .pure _⟩
    | terminator =>
      obtain rfl := Option.some.inj found
      refine ⟨by decide, fun token => Closes.ended.bind fun ended => ?_⟩
      split
      · exact .pure _
      · exact .expression _
    | _ => simp [Symbols.opening?, symbols] at found
  following := by
    intro kind rule found
    cases kind with
    | assign =>
      obtain rfl := Option.some.inj found
      exact ⟨by decide, by decide, assignment_closes⟩
    | arrow =>
      obtain rfl := Option.some.inj found
      exact ⟨by decide, by decide, description_closes⟩
    | colon =>
      obtain rfl := Option.some.inj found
      exact ⟨by decide, by decide, property_closes⟩
    | bang =>
      obtain rfl := Option.some.inj found
      exact ⟨by decide, by decide, label_closes⟩
    | terminator =>
      obtain rfl := Option.some.inj found
      exact ⟨by decide, by decide, terminator_closes⟩
    | _ => simp [Symbols.following?, symbols] at found

end Grammar

namespace Compilation

open Precedence

/-- Every run has a course and ends as the course does. The tokens that its rules take, to begin, to
follow and to close, are the first tokens of the source, each taken once; every expression with an
answer takes at least one. A run with an answer takes all tokens but the end of the input, and their
parentheses are nested. -/
theorem run_takes_tokens_once (builder : Builder) (limits : Limits) (source : String) :
    (∃ calls ending, WholeCourse (Grammar.symbols limits.citation) limits.nesting
      (Reader.ofSource source builder) calls ending) ∧
    (∀ calls ending, WholeCourse (Grammar.symbols limits.citation) limits.nesting
        (Reader.ofSource source builder) calls ending →
      ending = Reader.parse (Grammar.symbols limits.citation) limits.nesting
        (Reader.ofSource source builder) ∧
      Call.taken calls <+: (Token.Cursor.ofSource source).tokens ∧
      calls.length ≤ (Token.Cursor.ofSource source).tokens.length ∧
      ∀ meanings, ending.1 = .ok meanings →
        (∃ last, last.kind = .endOfInput ∧
          (Token.Cursor.ofSource source).tokens = Call.taken calls ++ [.ok last]) ∧
        Nested (Call.kinds calls)) ∧
    ∀ room power (reader after : Reader Builder) calls value,
      Course (Grammar.symbols limits.citation) limits.nesting (.expression room power) reader calls
          (.ok value, after) →
        calls ≠ [] ∧ reader.remaining = Call.taken calls ++ after.remaining := by
  refine ⟨?_, ?_, ?_⟩
  · rcases WholeCourse.exists_of_parse (Grammar.symbols limits.citation) limits.nesting
      (Reader.ofSource source builder) with ⟨calls, course⟩
    exact ⟨calls, _, course⟩
  · intro calls ending course
    rcases course.takes with ⟨rest, tokens_eq, left_over⟩
    have whole : (Token.Cursor.ofSource source).tokens = Call.taken calls ++ rest := tokens_eq
    have within : Call.taken calls <+: (Token.Cursor.ofSource source).tokens := ⟨rest, whole.symm⟩
    refine ⟨course.parse_eq.symm, within, by simpa [Call.taken] using within.length_le, ?_⟩
    intro meanings answered
    refine ⟨?_, course.nested (Grammar.symbols_pairs limits.citation) ⟨meanings, answered⟩⟩
    rcases left_over meanings answered with ⟨last, later, rfl, ends⟩
    obtain rfl := (Token.Cursor.tokens_ofSource source).eq_nil_of_endOfInput whole ends
    exact ⟨last, ends, whole⟩
  · intro room power reader after calls value course
    rcases course.takes with ⟨rest, split, left_over⟩
    exact ⟨course.ne_nil, left_over value rfl ▸ split⟩

end Compilation

end FactGraph
