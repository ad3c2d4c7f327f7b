import FactGraph.Proofs.Grammar.Bracketed
import FactGraph.Proofs.Notation.Expanded

namespace FactGraph

open Precedence Token Notation

namespace Grammar

variable {name : String} {value : Meaning} {alone : Fault → Prop} {citation : Nat}

def knowing (name : String) (value : Meaning) (alone : Fault → Prop) : Correspondence where
  ident := Eq
  text := Eq
  naming := Eq
  graph first second := first.unplaced = second.unplaced
  bindings first second :=
    first.unplaced = second.unplaced ∧ second.unplaced.lookup name = some value.unplaced
  quote := id
  alone := alone

theorem knowing_carried (name : String) (value : Meaning) (alone : Fault → Prop) (citation : Nat) :
    (knowing name value alone).Carried citation fun _ => True where
  quoted := (@indistinct_carried alone citation).quoted
  strayed := .inl fun _ => trivial
  allocated := (@indistinct_carried alone citation).allocated
  attached := (@indistinct_carried alone citation).attached
  resolved names bound := (@indistinct_carried alone citation).resolved names bound.1
  defined := by
    rintro other _ found found' bindings bindings' rfl values ⟨same, known⟩ free
    refine ⟨(@indistinct_carried alone citation).defined rfl values same free, ?_⟩
    have apart : name ≠ other := by
      rintro rfl
      rw [Bindings.lookup_unplaced, Option.map_eq_some_iff] at known
      rcases known with ⟨_, found, _⟩
      simp [Bindings.isDefined, found] at free
    have entry : Bindings.unplaced ((other, found') :: bindings') =
        (other, found'.unplaced) :: bindings'.unplaced := rfl
    rw [entry, List.lookup_cons, beq_false_of_ne apart]
    exact known

theorem symbols_knowing (name : String) (value : Meaning) (alone : Fault → Prop) (citation : Nat) :
    (symbols citation).Parallel (knowing name value alone).likeness (symbols citation) := by
  have follow := (knowing_carried name value alone citation).symbols_follow
  rwa [Symbols.guarded_of_forall (symbols citation) fun _ => trivial] at follow

def StandsFor {signs : List Sign} (grouped : Grouped signs) (name : String) (row : List Token)
    (other : Token) : Prop :=
  (∃ mark, row = tokensOf mark grouped.row) ∧ other.kind = .reference ∧ other.value = some name

section Rows

variable {signs : List Sign} {grouped : Grouped signs} {nesting room : Nat} {token : Token}
  {pending rest later : List (Except Fault Token)} {state state' : Builder}
  {like : Likeness Builder Meaning} {stands : List Token → Token → Prop}

theorem primary_reference {found : Meaning} (kind : token.kind = .reference)
    (named : token.value = some name) (known : state.bindings.lookup name = some found) :
    Reader.primary (symbols citation) nesting room ⟨pending, some token, state⟩ =
      (Reader.advance (symbols citation) none >>= fun _ => pure (some found))
        ⟨pending, some token, state⟩ := by
  have held : Reader.hold (symbols citation) ⟨pending, some token, state⟩ =
      (.ok token, ⟨pending, some token, state⟩) := rfl
  rcases passed : Reader.advance (symbols citation) none ⟨pending, some token, state⟩
    with ⟨fault | next, after⟩
  · have stopped : Reader.take (symbols citation) ⟨pending, some token, state⟩ =
        (.error fault, after) := by
      rw [Reader.take, Attempt.bind_ok held, Attempt.bind_error passed]
    rw [Attempt.bind_error passed]
    exact Attempt.bind_error (Attempt.bind_error stopped)
  · have opens : (symbols citation).opening? token.kind = some reference := by
      rw [kind]
      rfl
    rcases Reader.exists_of_advance passed with ⟨rest, _, rfl⟩
    have resolved : state.bindings.resolve (token.value.getD "") token.span = .ok found := by
      simp [Bindings.resolve, named, known]
    rw [Attempt.bind_ok passed]
    refine (Attempt.bind_ok (Reader.takeOpening_of_take (Reader.take_of_advance passed)
      opens)).trans ?_
    change Reader.run (symbols citation) _ (reference token) _ = _
    rw [reference, Reader.run_bind, Attempt.bind_ok (Reader.run_state_apply _ _ _)]
    simp only [resolved]
    rfl

/-- A row that means the value of a variable does in the place of the variable what this does. -/
theorem replaces_of_means {alone : Fault → Prop} (means : grouped.Means value)
    (limits : ∀ limit, alone (.limit limit)) (citation nesting : Nat) :
    Reader.Replaces (knowing name value alone).likeness (StandsFor grouped name)
      (symbols citation) (symbols citation) nesting where
  fair := (knowing_carried name value alone citation).fair
  tables := symbols_knowing name value alone citation
  asks := symbols_asks citation
  complete := Notation.complete citation
  limits := rfl
  goes_on := by
    rintro first row other ⟨⟨mark, same⟩, kind, _⟩
    have opens : first.kind = .leftParen := by
      rw [(List.cons.inj same).1]
      exact grouped.opens
    rw [opens, kind]
    exact ⟨rfl, rfl⟩
  reads := by
    rintro first row other rest later state state' room ⟨⟨mark, same⟩, kind, named⟩ states behind
    obtain ⟨rfl, rfl⟩ := List.cons.inj same
    have fair := (knowing_carried name value alone citation).fair
    rcases Option.map_eq_some_iff.1 (Bindings.lookup_unplaced _ _ ▸ states.2.2)
      with ⟨found, known, unplaced⟩
    rw [primary_reference kind named known]
    rcases means citation nesting room mark rest state
      with ⟨limit, stopped⟩ | ⟨meaning, close, equal, closes, whole⟩
    · exact .of_alone stopped (limits limit)
    · have row : Reader.primary (symbols citation) nesting room ⟨_,
            some (grouped.opening.token mark), state⟩ = _ := whole
      have free : Reader.obstacle? (some .rightParen) (⟨rest, some close, state⟩ : Reader Builder) =
          none := by
        simp [Reader.obstacle?, closes]
      have free' : Reader.obstacle? none (⟨later, some other, state'⟩ : Reader Builder) = none := by
        simp [Reader.obstacle?, kind]
      have values : (knowing name value alone).meaning meaning found :=
        Meaning.corresponds_eq_iff.2 (Meaning.alike_iff.2 (equal.trans unplaced.symm))
      rw [row]
      apply (Reader.advance_ends_of_free fair (Notation.complete citation)
        (Notation.complete citation) free free' states
        behind fun _ _ => trivial).bind
      intro _ _ _ _ _ _ aligned
      exact .answered (.some values) aligned

end Rows

section Texts

variable {label : VariableName} {signs : List Sign} {asked : Bool} {source edited : List Char}
  {stands : List Token → Token → Prop}

theorem spelt_of_due {like : Likeness Builder Meaning} {first second : List (Except Fault Token)}
    (dues : List.Forall₂ (Reader.Due like) first second) :
    Spelt like stands asked first second := by
  induction dues generalizing asked with
  | nil => exact .nil
  | cons due _ ih =>
    cases due with
    | token tokens => exact .token tokens ih
    | fault faults => exact .fault faults

theorem spelt_same (text : List Char) (mark mark' : Mark) :
    Spelt (knowing name value alone).likeness stands asked (Cursor.tokens ⟨text, mark⟩)
      (Cursor.tokens ⟨text, mark'⟩) := by
  refine spelt_of_due ((forall₂_due_of_outlines_eq (outlines_eq text mark mark')).imp ?_)
  intro _ _ due
  cases due with
  | token same => exact .token (Token.corresponds_eq_iff.2 same)
  | fault same => exact .fault ((Fault.quoting_id _).trans (same.trans (Fault.quoting_id _).symm))

/-- Rows stand for the uses of the variable that are replaced. -/
theorem spelt_of_expanded (grouped : Grouped signs)
    (expanded : Expanded label (textOf signs) asked source edited) (mark mark' : Mark) :
    Spelt (knowing name value alone).likeness (StandsFor grouped (String.ofList label.text)) asked
      (Cursor.tokens ⟨edited, mark⟩) (Cursor.tokens ⟨source, mark'⟩) := by
  induction expanded generalizing mark mark' with
  | same => exact spelt_same _ mark mark'
  | @keep _ sign rest edited spelled behind ih =>
    have fits := behind.fits spelled.fits
    rw [Sign.tokens_of_spelled fits.spelled, Sign.tokens_of_spelled spelled]
    exact .token (Token.corresponds_eq_iff.2 rfl) (ih _ _)
  | @replace rest edited spelled behind ih =>
    have legible : Legible grouped.row edited := grouped.legible edited
    rw [← grouped.text, Sign.tokens_of_spelled spelled]
    change Spelt _ _ _ (Cursor.tokens ⟨textOf grouped.row ++ edited, mark⟩) _
    rw [tokens_of_legible legible]
    exact .row ⟨⟨mark, rfl⟩, rfl, rfl⟩ (ih _ _)

end Texts

section Line

variable {room : Nat} {rest : List (Except Fault Token)} {state : Builder}

def given (name : String) (place span : Span) (right : Option Meaning) : Step (Option Meaning) := do
  let found ← needValue span right
  Action.perform (Builder.onBindings (Bindings.define name found place))
  return some (.assignment span)

theorem assignment_of_free (free : state.bindings.isDefined name = false) (place : Span)
    (assign first : Token) (rest : List (Except Fault Token))
    (operand : Nat → Attempt (Reader Builder) (Option Meaning)) :
    Reader.run (symbols citation) operand (assignment assign (some (.target name place)))
        ⟨rest, some first, state⟩ =
      (operand Power.assignment >>= fun right =>
        Reader.run (symbols citation) operand (given name place assign.span right))
        ⟨rest, some first, state⟩ := by
  change Reader.run (symbols citation) _ (if state.bindings.isDefined name = true then _ else _) _ =
    _
  rw [if_neg (by simp [free]), Reader.run_bind, Reader.run_expression]
  rfl

def afterValue (citation room : Nat) (name : String) (place span : Span) (right : Option Meaning) :
    Attempt (Reader Builder) (List Meaning) := do
  let operand := Reader.expressionWithin (symbols citation) (room + 1) room
  let left ← Reader.run (symbols citation) operand (given name place span right)
  Reader.sequel (symbols citation) (room + 1) (Reader.follow (symbols citation) operand 0 left)

section Beginning

variable {target assign first : Token}

theorem parse_of_target (targets : target.kind = .target) (nesting : Nat) :
    Reader.parse (symbols citation) nesting ⟨.ok target :: rest, none, state⟩ =
      Reader.sequel (symbols citation) nesting
        (Reader.expressionWithin (symbols citation) nesting nesting 0)
        ⟨rest, some target, state⟩ := by
  have begun : Reader.advance (symbols citation) none ⟨.ok target :: rest, none, state⟩ =
      (.ok target, ⟨rest, some target, state⟩) :=
    Reader.advance_of_free (Notation.complete citation) rfl
  have goes_on : (⟨rest, some target, state⟩ : Reader Builder).atEndOfInput = false := by
    simp [Reader.atEndOfInput, targets]
  rw [Reader.parse, Attempt.bind_ok begun, Reader.sequence_of_goes_on goes_on]
  rfl

theorem expression_line (targets : target.kind = .target) (assigns : assign.kind = .assign)
    (free : state.bindings.isDefined (target.value.getD "") = false) (nesting : Nat) :
    Reader.expressionWithin (symbols citation) nesting (room + 1) 0
        ⟨.ok assign :: .ok first :: rest, some target, state⟩ =
      (Reader.expressionWithin (symbols citation) nesting room Power.assignment >>= fun right =>
        Reader.run (symbols citation) (Reader.expressionWithin (symbols citation) nesting room)
            (given (target.value.getD "") target.span assign.span right) >>=
          Reader.follow (symbols citation)
          (Reader.expressionWithin (symbols citation) nesting room) 0)
        ⟨rest, some first, state⟩ := by
  have complete := Notation.complete citation
  have opened : Reader.takeOpening (symbols citation) ⟨.ok assign :: .ok first :: rest,
        some target, state⟩ =
      (.ok (target, Grammar.target), ⟨.ok first :: rest, some assign, state⟩) := by
    have passing : Reader.obstacle? none
        (⟨.ok assign :: .ok first :: rest, some target, state⟩ : Reader Builder) =
        none := by
      simp [Reader.obstacle?, targets]
    refine Reader.takeOpening_of_take
      (Reader.take_of_advance (Reader.advance_of_free complete passing)) ?_
    rw [targets]
    rfl
  have followed : Reader.takeFollowing (symbols citation) ⟨.ok first :: rest, some assign, state⟩ =
      (.ok (assign, assignment), ⟨rest, some first, state⟩) := by
    have passing : Reader.obstacle? none
        (⟨.ok first :: rest, some assign, state⟩ : Reader Builder) = none := by
      simp [Reader.obstacle?, assigns]
    refine Reader.takeFollowing_of_take
      (Reader.take_of_advance (Reader.advance_of_free complete passing)) ?_
    rw [assigns]
    rfl
  have tighter : 0 < Reader.power (symbols citation)
      (⟨.ok first :: rest, some assign, state⟩ : Reader Builder) := by
    change 0 < (symbols citation).power assign.kind
    rw [assigns]
    exact (by decide : 0 < Power.assignment)
  have assigned := @assignment_of_free _ citation state free target.span assign first rest
    (Reader.expressionWithin (symbols citation) nesting room)
  have line : (Task.expression (room + 1) 0).step (symbols citation) nesting _ = _ :=
    (Task.step_of_takeOpening opened).trans (Task.step_of_takeFollowing tighter followed)
  exact line.trans ((Attempt.bind_of_eq assigned).trans (congrFun (bind_assoc _ _ _) _))

theorem parse_line (targets : target.kind = .target) (assigns : assign.kind = .assign)
    (free : state.bindings.isDefined (target.value.getD "") = false) :
    Reader.parse (symbols citation) (room + 1)
        ⟨.ok target :: .ok assign :: .ok first :: rest, none, state⟩ =
      (Reader.expressionWithin (symbols citation) (room + 1) room Power.assignment >>=
          afterValue citation room (target.value.getD "") target.span assign.span)
        ⟨rest, some first, state⟩ := by
  rw [parse_of_target targets, Reader.sequel, Attempt.bind_apply,
    expression_line targets assigns free, ← Attempt.bind_apply]
  simp only [bind_assoc]
  rfl

def completeLine (citation room : Nat) (name : String) (place span : Span)
    (value : Option Meaning) :
    Attempt (Reader Builder) (List Meaning) := do
  let operand := Reader.expressionWithin (symbols citation) (room + 2) room
  let right ← Reader.follow (symbols citation) operand Power.assignment value
  afterValue citation (room + 1) name place span right

theorem parse_line_cases (targets : target.kind = .target) (assigns : assign.kind = .assign)
    (nesting : Nat) :
    (∀ first rest, Halted (Reader.parse (symbols citation) nesting
        ⟨.ok target :: .ok assign :: .ok first :: rest, none, Builder.empty⟩)) ∨
      ∃ room, nesting = room + 2 ∧ ∀ first rest,
        Reader.parse (symbols citation) nesting
            ⟨.ok target :: .ok assign :: .ok first :: rest, none, Builder.empty⟩ =
          (Reader.primary (symbols citation) nesting room >>=
            completeLine citation room (target.value.getD "") target.span assign.span)
            ⟨rest, some first, Builder.empty⟩ := by
  rcases nesting with _ | _ | room
  · left
    intro first rest
    rw [parse_of_target targets]
    exact ⟨_, rfl⟩
  · left
    intro first rest
    rw [parse_line targets assigns rfl]
    exact ⟨_, rfl⟩
  · refine .inr ⟨room, rfl, fun first rest => ?_⟩
    rw [parse_line targets assigns rfl, Reader.expressionWithin_eq_primary, bind_assoc]
    rfl

end Beginning

variable {place span : Span} {next next' : Token} {found found' : Meaning}

def Assignable : Meaning → Prop
  | .entities _ _ | .descriptor _ _ => True
  | _ => False

/-- Behind the value of a variable, this is given to the variable, unless the line goes on with a
tighter operator. -/
theorem completeLine_of_looser (assignable : Assignable found)
    (looser : (symbols citation).power next.kind ≤ Power.assignment)
    (free : state.bindings.isDefined name = false) :
    completeLine citation room name place span (some found) ⟨rest, some next, state⟩ =
      Reader.sequel (symbols citation) (room + 2)
        (Reader.follow (symbols citation)
          (Reader.expressionWithin (symbols citation) (room + 2) (room + 1)) 0
          (some (.assignment span)))
        ⟨rest, some next, { state with bindings := (name, found) :: state.bindings }⟩ := by
  have defined : Reader.run (symbols citation)
      (Reader.expressionWithin (symbols citation) (room + 2) (room + 1))
      (given name place span (some found)) ⟨rest, some next, state⟩ =
      (.ok (some (.assignment span)),
        ⟨rest, some next, { state with bindings := (name, found) :: state.bindings }⟩) := by
    have valued : needValue span (some found) = pure found := by
      cases found <;> first | rfl | cases assignable
    have performed : Builder.onBindings (Bindings.define name found place) state =
        (.ok (), { state with bindings := (name, found) :: state.bindings }) := by
      simp [Builder.onBindings, Bindings.define, free]
    rw [given, valued, pure_bind, Reader.run_bind, Attempt.bind_apply,
      Reader.run_perform_apply, performed]
    rfl
  rw [completeLine, Attempt.bind_ok (Reader.follow_of_looser looser), afterValue,
    Attempt.bind_ok defined]

theorem Assignable.of_unplaced {found other : Meaning} (assignable : Assignable found)
    (same : other.unplaced = found.unplaced) : Assignable other := by
  cases found <;> cases other <;> trivial

/-- The likeness of two runs in which a variable has a value, of which the first may be stopped by a
limit. -/
abbrev likewise (name : String) (value : Meaning) : Likeness Builder Meaning :=
  (knowing name value fun fault => fault.isLimit = true).likeness

/-- Two runs have come to the same, or the first has been stopped by a limit. -/
abbrev Agree (name : String) (value : Meaning)
    (ending ending' : Except Fault (List Meaning) × Reader Builder) : Prop :=
  Reader.EndsAlike (likewise name value) ending ending'

variable {signs : List Sign} {grouped : Grouped signs} {later : List (Except Fault Token)}

/-- From behind the first line, both runs do the same. -/
theorem agree_behind_line (means : grouped.Means value) (assignable : Assignable value)
    (same : found.unplaced = value.unplaced) (same' : found'.unplaced = value.unplaced)
    (tokens : (likewise name value).token next next')
    (behind : Spelt (likewise name value) (StandsFor grouped name) next.kind.asks rest later)
    (looser : (symbols citation).power next'.kind ≤ Power.assignment) :
    Agree name value
      (completeLine citation room name place span (some found)
        ⟨rest, some next, Builder.empty⟩)
      (completeLine citation room name place span (some found')
        ⟨later, some next', Builder.empty⟩) := by
  have replaces : Reader.Replaces (likewise name value) (StandsFor grouped name) _ _ _ :=
    replaces_of_means means (fun _ => rfl) citation (room + 2)
  have kind : next.kind = next'.kind := replaces.fair.kind tokens
  rw [completeLine_of_looser (assignable.of_unplaced same) (kind ▸ looser) rfl,
    completeLine_of_looser (assignable.of_unplaced same') looser rfl]
  have bound (other : Meaning) (equal : other.unplaced = value.unplaced) :
      Bindings.unplaced [(name, other)] = [(name, value.unplaced)] :=
    congrArg (fun meaning => [(name, meaning)]) equal
  have states : (likewise name value).state ⟨Graph.empty, [(name, found)]⟩ ⟨Graph.empty,
        [(name, found')]⟩ := by
    refine ⟨rfl, (bound _ same).trans (bound _ same').symm, ?_⟩
    rw [bound _ same', List.lookup_cons_self]
  have aligned : Reader.Aligned (likewise name value) (StandsFor grouped name) false
      ⟨rest, some next, ⟨Graph.empty, _⟩⟩ ⟨later, some next', ⟨Graph.empty, _⟩⟩ :=
    .token states tokens behind
  refine replaces.sequel_ends (replaces.follow_ends ?_ 0 (.some .assignment) aligned)
  exact fun power reader other => replaces.expression_ends (room + 1) power

variable {beyond beyond' : List (Except Fault Token)} {mark : Mark}

def valueLine (grouped : Grouped signs) (citation room : Nat) (name : String)
    (place span : Span) (mark : Mark) (beyond : List (Except Fault Token)) :
    Except Fault (List Meaning) × Reader Builder :=
  (Reader.primary (symbols citation) (room + 2) room >>= completeLine citation room name place span)
    (grouped.reader mark beyond Builder.empty)

theorem agree_of_means (means : grouped.Means value) (assignable : Assignable value)
    (spelt : Spelt (likewise name value) (StandsFor grouped name) false beyond beyond')
    (looser : ∀ next later, beyond' = .ok next :: later →
      (symbols citation).power next.kind ≤ Power.assignment) :
    Halted (valueLine grouped citation room name place span mark beyond') ∨
      Agree name value (valueLine grouped citation room name place span mark beyond)
        (valueLine grouped citation room name place span mark beyond') := by
  rcases means citation (room + 2) room mark beyond Builder.empty with
    ⟨limit, stopped⟩ | ⟨found, close, same, closes, row⟩
  · exact .inr (.of_alone (Attempt.fst_bind_of_error stopped) rfl)
  rcases means citation (room + 2) room mark beyond' Builder.empty with
    ⟨limit, stopped⟩ | ⟨found', close', same', closes', row'⟩
  · exact .inl ⟨limit, Attempt.fst_bind_of_error stopped⟩
  right
  rw [valueLine, valueLine, Attempt.bind_of_eq row, Attempt.bind_of_eq row', bind_assoc, bind_assoc]
  have complete := Notation.complete citation
  have shut {close : Token} (closes : close.kind = .rightParen)
      (beyond : List (Except Fault Token)) :
      Reader.obstacle? (some .rightParen)
      (⟨beyond, some close, Builder.empty⟩ : Reader Builder) = none := by
    simp [Reader.obstacle?, closes]
  rw [Attempt.bind_apply, Attempt.bind_apply, Reader.advance_of_free complete (shut closes _),
    Reader.advance_of_free complete (shut closes' _)]
  cases spelt with
  | nil => exact .failed rfl
  | fault faults => exact .failed faults
  | token tokens behind =>
    exact agree_behind_line means assignable same same' tokens behind (looser _ _ rfl)

theorem agree_of_fails {fault : Fault} (fails : grouped.Fails fault) :
    Halted (valueLine grouped citation room name place span mark beyond') ∨
      Agree name value (valueLine grouped citation room name place span mark beyond)
        (valueLine grouped citation room name place span mark beyond') := by
  rcases fails citation (room + 2) room mark beyond Builder.empty
    with ⟨limit, stopped⟩ | ⟨other, same, stopped⟩
  · exact .inr (.of_alone (Attempt.fst_bind_of_error stopped) rfl)
  rcases fails citation (room + 2) room mark beyond' Builder.empty
    with ⟨limit, stopped'⟩ | ⟨other', same', stopped'⟩
  · exact .inl ⟨limit, Attempt.fst_bind_of_error stopped'⟩
  refine .inr (.of_failed (Attempt.fst_bind_of_error stopped)
    (Attempt.fst_bind_of_error stopped') ?_)
  exact (Fault.quoting_id other).trans
    ((same.trans same'.symm).trans (Fault.quoting_id other').symm)

end Line

end Grammar

end FactGraph
