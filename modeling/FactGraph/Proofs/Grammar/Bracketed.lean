import FactGraph.Proofs.Grammar.Aside
import FactGraph.Proofs.Grammar.Asking
import FactGraph.Proofs.Limits
import FactGraph.Proofs.Precedence.Replacing

namespace FactGraph

open Precedence Token Notation

namespace Notation

variable {signs : List Sign} {rest : List Char} {token : Token}

theorem map_outline_tokensOf (mark : Mark) (signs : List Sign) :
    (tokensOf mark signs).map Token.outline = signs.map Sign.outline := by
  induction signs generalizing mark with
  | nil => rfl
  | cons sign signs ih => exact congrArg₂ List.cons rfl (ih _)

theorem Legible.unended (legible : Legible signs rest) (mark : Mark) :
    ∀ token ∈ tokensOf mark signs, token.kind ≠ .endOfInput := by
  induction signs generalizing mark with
  | nil => exact List.forall_mem_nil _
  | cons sign signs ih =>
    have spelled : Pattern.first? _ Pattern.all = some (sign.kind, _) := legible.1
    exact List.forall_mem_cons.2 ⟨(shape_of_first? spelled).ne_endOfInput, ih legible.2 _⟩

theorem exists_signs_of_clean {before : List Char} {outcomes : List (Except Fault Token)}
    (scanned : Scanned before rest outcomes) (clean : ∀ fault, .error fault ∉ outcomes) :
    ∃ signs last, rest = textOf signs ∧ Legible signs [] ∧ last.kind = .endOfInput ∧
      outcomes = (tokensOf (Mark.start.past before) signs).map .ok ++ [.ok last] := by
  induction scanned with
  | ended => exact ⟨[], _, rfl, trivial, rfl, rfl⟩
  | stopped => exact absurd (List.mem_singleton_self _) (clean _)
  | @read before rest kind lexeme _ found _ ih =>
    rcases ih fun fault inside => clean fault (List.mem_cons_of_mem _ inside) with
      ⟨signs, last, whole, legible, ends, rfl⟩
    have split := (Pattern.append_of_first? found).1
    let sign : Sign := ⟨kind, lexeme.text, lexeme.value⟩
    refine ⟨sign :: signs, last, ?_, ⟨?_, legible⟩, ends, ?_⟩
    · rw [textOf_cons, ← whole, split]
    · rw [List.append_nil, ← whole]
      rwa [Sign.Spelled, split]
    · rw [Mark.past_append]
      rfl

theorem asks_of_endingKinds {kind : Kind} (ends : kind ∈ endingKinds) : kind.asks = false := by
  have each : ∀ kind ∈ endingKinds, kind.asks = false := by decide
  exact each kind ends

namespace Grouped

variable (grouped : Grouped signs)

/-- The core of the row and what stands behind it, up to the end of the input. -/
def outside (mark mark' : Mark) (last : Token) : List (Except Fault Token) :=
  (tokensOf mark grouped.core).map .ok ++ ((tokensOf mark' grouped.rear).map .ok ++ [.ok last])

theorem unended (mark : Mark) : ∀ token ∈ tokensOf mark grouped.inner, token.kind ≠ .endOfInput :=
  (legible_append.1 (grouped.legible []).2).1.unended mark

end Grouped

end Notation

namespace Grammar

variable {beyond : List (Except Fault Token)} {close last : Token} {asked : Bool}

theorem Enclosed.of_front {tokens : List Token}
    (inside : ∀ token ∈ tokens, token.kind ≠ .endOfInput) {ahead after : List (Except Fault Token)}
    (behind : Enclosed beyond close ((tokens.getLast?.map (·.kind.asks)).getD asked) ahead after) :
    Enclosed beyond close asked (tokens.map .ok ++ ahead) (tokens.map .ok ++ after) := by
  induction tokens generalizing asked with
  | nil => exact behind
  | cons token tokens ih =>
    rcases List.forall_mem_cons.1 inside with ⟨own, others⟩
    refine .token own (ih others ?_)
    rw [List.getLast?_cons] at behind
    cases final : tokens.getLast? <;> simpa [final] using behind

theorem Enclosed.of_grouped {signs : List Sign} (grouped : Grouped signs)
    (ends : last.kind = .endOfInput) (mark mark' : Mark) :
    Enclosed beyond close true
      ((tokensOf mark grouped.inner).map .ok ++
        ((tokensOf mark' grouped.rear).map .ok ++ [.ok last]))
      ((tokensOf mark grouped.inner).map .ok ++ .ok close :: beyond) := by
  refine .of_front (grouped.unended mark) ?_
  rcases List.eq_nil_or_concat grouped.rear with none | ⟨early, pause, paused⟩
  · rw [none]
    exact .ended ends
  · have full : grouped.rear ≠ [] := by simp [paused]
    rcases grouped.ends pause (by simp [paused]) with ⟨single, stops⟩
    rcases grouped.behind full with ⟨final, inside, ending⟩
    have asks : ((tokensOf mark grouped.inner).getLast?.map (·.kind.asks)).getD true = false := by
      have row := congrArg List.getLast? (map_outline_tokensOf mark grouped.inner)
      rw [grouped.outlines, List.getLast?_map, List.getLast?_map, show grouped.core.getLast? =
        some final from inside] at row
      rcases Option.map_eq_some_iff.1 row with ⟨token, held, same⟩
      rw [held, Option.map_some, Option.getD_some, show token.kind = final.kind
        from congrArg Prod.fst same]
      exact asks_of_endingKinds ending
    rw [single, asks]
    exact .paused stops ends

section Alone

variable {table : Symbols Builder Meaning} {nesting : Nat} {source : String} {start : Builder}
  {values : List Meaning} {value : Meaning} {reader after : Reader Builder} {room : Nat}

inductive Ahead (table : Symbols Builder Meaning) (value : Meaning) :
    Option Meaning → Reader Builder → Prop
  | ended {reader : Reader Builder} (ends : reader.atEndOfInput = true) :
      Ahead table value (some value) reader
  | goes_on {found : Option Meaning} {token : Token} {rest : List (Except Fault Token)}
      {state : Builder} (inside : token.kind ≠ .endOfInput)
      (opens : (table.opening? token.kind).isSome) :
      Ahead table value found ⟨rest, some token, state⟩

theorem ahead_of_parsed {step : Attempt (Reader Builder) (Option Meaning)}
    (parsed : Reader.sequel table nesting step reader = (.ok [value], after)) :
    ∃ found middle, step reader = (.ok found, middle) ∧ Ahead table value found middle := by
  rcases Attempt.exists_of_bind_ok parsed with ⟨found, middle, read, rest⟩
  rcases Attempt.exists_of_bind_ok rest with ⟨more, last, sequel, answer⟩
  have whole : found.toList ++ more = [value] := Except.ok.inj (Prod.mk.inj answer).1
  refine ⟨found, middle, read, ?_⟩
  rcases exists_courses table nesting middle with ⟨calls, courses⟩
  rw [sequel] at courses
  cases courses with
  | finished ended =>
    rw [List.append_nil, Option.toList_eq_singleton_iff] at whole
    exact whole ▸ .ended ended
  | more goes_on following =>
    rcases middle with ⟨pending, _ | token, state⟩
    · cases goes_on
    · cases following with
      | opened taken =>
        rcases Reader.takeOpening_eq_ok taken with ⟨took, opens⟩
        obtain ⟨rfl, _⟩ := Reader.exists_of_take took
        refine .goes_on ?_ (by simp [opens])
        rintro ends
        simp [Reader.atEndOfInput, ends] at goes_on

/-- From a reader on, an expression is read that comes to the value, or ends in front of what begins
another. -/
def Reads (table : Symbols Builder Meaning) (nesting room : Nat) (value : Meaning)
    (reader : Reader Builder) : Prop :=
  ∃ found middle, Reader.expressionWithin table nesting room 0 reader = (.ok found, middle) ∧
  Ahead table value found middle

variable {begins : Token} {rest : List (Except Fault Token)}

theorem reads_of_sequence
    (parsed : Reader.sequence table nesting ⟨rest, some begins, start⟩ = (.ok [value], after)) :
    begins.kind ≠ .endOfInput ∧ Reads table nesting nesting value ⟨rest, some begins, start⟩ := by
  have inside : begins.kind ≠ .endOfInput := by
    intro ends
    rw [Reader.sequence_eq, if_pos (by simp [Reader.atEndOfInput, ends])] at parsed
    cases parsed
  rw [Reader.sequence_of_goes_on (by simpa [Reader.atEndOfInput] using inside)] at parsed
  exact ⟨inside, ahead_of_parsed parsed⟩

/-- A terminator at the beginning is nothing to what is read. -/
theorem reads_of_paused (separates : Separates table) (paused : begins.kind = .terminator)
    (parsed : Reader.sequence table nesting ⟨rest, some begins, start⟩ = (.ok [value], after)) :
    ∃ room next later, rest = .ok next :: later ∧
    Reads table nesting room value ⟨later, some next, start⟩ := by
  rcases exists_courses table nesting ⟨rest, some begins, start⟩ with ⟨calls, courses⟩
  rw [parsed] at courses
  rcases exists_of_paused courses paused with ⟨room, next, later, rfl, rfl, took⟩
  refine ⟨room, next, later, rfl, ?_⟩
  rw [separates.sequence_of_pause took paused (by simp [Reader.atEndOfInput, paused])] at parsed
  rcases ahead_of_parsed parsed with ⟨found, middle, read, ahead⟩
  cases ended : Reader.atConstructEnd (⟨later, some next, start⟩ : Reader Builder) with
  | true =>
    rw [separates.resume_of_ended ended] at read
    cases read
    cases ahead with
    | goes_on inside opens =>
      have shut : next.kind = .rightParen := by
        cases kind : next.kind <;> simp_all [Reader.atConstructEnd, Kind.endsConstruct]
      rw [shut, separates.begins .rightParen (by decide)] at opens
      cases opens
  | false =>
    rw [resume_none ended] at read
    exact ⟨found, middle, read, ahead⟩

theorem Reads.inside (reads : Reads table nesting room value ⟨rest, some begins, start⟩) :
    begins.kind ≠ .endOfInput := by
  intro ends
  rcases reads with ⟨found, middle, read, _⟩
  rcases Task.expression_ends room 0 (⟨rest, some begins, start⟩ : Reader Builder)
    with ⟨calls, course⟩
  rw [show (Task.expression room 0).step table nesting _ = (.ok found, middle) from read] at course
  cases course with
  | opened taken => exact Reader.Ended.not_take ⟨_, rfl, ends⟩ (Reader.takeOpening_eq_ok taken).1

section Rows

variable {signs : List Sign}

theorem exists_ok_cons (tokens : List Token) (others : List Token) (last : Token) :
    ∃ first rest, (tokens.map .ok ++ (others.map .ok ++ [.ok last]) : List (Except Fault Token)) =
      .ok first :: rest := by
  cases tokens <;> cases others <;> simp

theorem sequence_of_parsed (pending : (Cursor.ofSource source).tokens = .ok begins :: rest)
    (parsed : Reader.parse table nesting (Reader.ofSource source start) = (.ok values, after)) :
    Reader.sequence table nesting ⟨rest, some begins, start⟩ = (.ok values, after) := by
  rcases Attempt.exists_of_bind_ok parsed with ⟨first, middle, passed, ran⟩
  rcases Reader.exists_of_advance passed with ⟨later, split, rfl⟩
  obtain ⟨same, rfl⟩ := List.cons.inj (pending.symm.trans split)
  obtain rfl := Except.ok.inj same
  exact ran

theorem solid_of_parsed (separates : Separates table) (ends : last.kind = .endOfInput)
    (tokens : (Cursor.ofSource source).tokens = (tokensOf .start signs).map .ok ++ [.ok last])
    (parsed : Reader.parse table nesting (Reader.ofSource source start) = (.ok [value], after)) :
    ¬ Pausing signs ∧ ∀ first ∈ signs.head?, first.kind ∈ startingKinds ∨
    first.kind = .terminator := by
  rcases signs with _ | ⟨sign, signs⟩
  · exact absurd ends (reads_of_sequence (sequence_of_parsed tokens parsed)).1
  · have ran := sequence_of_parsed tokens parsed
    constructor
    · intro pausing
      rcases pausing sign List.mem_cons_self with ⟨single, kind⟩
      obtain rfl : signs = [] := (List.cons.inj single).2
      rcases reads_of_paused separates kind ran with ⟨room, next, later, split, reads⟩
      obtain ⟨same, _⟩ := List.cons.inj split
      exact absurd (Except.ok.inj same ▸ ends) reads.inside
    · rintro first ⟨⟩
      rcases exists_courses table nesting _ with ⟨calls, courses⟩
      rw [ran] at courses
      have shut : sign.kind ∉ leadingKinds := separates.not_leading courses
      have inside : sign.kind ≠ .endOfInput := (reads_of_sequence ran).1
      revert shut inside
      cases sign.kind <;> simp [leadingKinds, startingKinds]

theorem reads_core (separates : Separates table) (grouped : Grouped signs)
    (tokens : (Cursor.ofSource source).tokens = (tokensOf .start signs).map .ok ++ [.ok last])
    (parsed : Reader.parse table nesting (Reader.ofSource source start) = (.ok [value], after)) :
    ∃ mark mark' room first rest,
      .ok first :: rest = grouped.outside mark mark' last ∧
      .ok first :: rest <:+ (Cursor.ofSource source).tokens ∧
      Reads table nesting room value ⟨rest, some first, start⟩ := by
  rw [grouped.split, tokensOf_append, tokensOf_append] at tokens
  simp only [List.map_append, List.append_assoc] at tokens
  rcases List.eq_nil_or_concat grouped.lead with none | ⟨early, pause, paused⟩
  · rw [none] at tokens
    rcases exists_ok_cons _ _ last with ⟨first, rest, split⟩
    have ran := sequence_of_parsed (tokens.trans split) parsed
    exact ⟨_, _, nesting, first, rest, split.symm, (tokens.trans split).symm ▸ List.suffix_refl _,
      (reads_of_sequence ran).2⟩
  · rcases grouped.begins pause (by simp [paused]) with ⟨single, kind⟩
    rw [single] at tokens
    have ran := sequence_of_parsed tokens parsed
    rcases reads_of_paused separates kind ran with ⟨room, next, later, split, reads⟩
    exact ⟨_, _, room, next, later, split.symm, tokens ▸ split ▸ List.suffix_cons _ _, reads⟩

end Rows

end Alone

section Anywhere

variable {citation nesting room : Nat} {value : Meaning} {signs : List Sign} {first last : Token}
  {rest : List (Except Fault Token)} {base : Builder} {mark mark' : Mark}

noncomputable abbrev silently (citation : Nat) : Symbols Builder Meaning :=
  (symbols citation).guarded fun builder => Silent builder.graph

theorem read_aside {others : List (Except Fault Token)} {start : Builder} {found : Option Meaning}
    {middle : Reader Builder}
    (read : Reader.expressionWithin (silently citation) nesting room 0 ⟨rest, some first, start⟩ =
      (.ok found, middle))
    (plain : ∀ token, .ok token ∈ .ok first :: rest → token.Plain)
    (same : (.ok first :: rest).map outlined = others.map outlined) (base : Builder) :
    ∃ second later, others = .ok second :: later ∧ ∃ found' middle',
      Reader.expressionWithin (symbols citation) nesting room 0 ⟨later, some second, base⟩ =
        (.ok found', middle') ∧
      Option.Rel (aside base).meaning found found' ∧
      Reader.Alike (aside base).likeness middle middle' := by
  have dues := forall₂_due_of_plain (c := aside base) (fun _ _ => id) plain same
  cases dues with
  | cons due dues =>
    cases due with
    | @token _ second tokens =>
      have readers : Reader.Alike (aside base).likeness ⟨rest, some first, start⟩ ⟨_,
            some second, base⟩ :=
        ⟨⟨rfl, rfl⟩, .some tokens, dues⟩
      have parallel := Reader.expressionWithin_parallel (aside_carried base citation).fair
        (aside_carried base citation).symbols_follow
        (.even rfl : Reader.Roomy _ nesting nesting room room) 0
      rcases parallel.of_ok readers read with ⟨found', middle', ran, values, reached⟩
      exact ⟨second, _, rfl, found', middle', ran, values, reached⟩

theorem state_eq_of_aside {reader other : Reader Builder}
    (readers : Reader.Alike (aside base).likeness reader other) :
    other.state = base := by
  rcases other with ⟨pending, current, ⟨graph, bindings⟩⟩
  exact congrArg₂ Builder.mk readers.state.1 readers.state.2

theorem read_grouped {start : Builder} {found : Option Meaning} {middle : Reader Builder}
    (grouped : Grouped signs)
    (read : Reader.expressionWithin (silently citation) nesting room 0 ⟨rest, some first, start⟩ =
      (.ok found, middle))
    (core : .ok first :: rest = grouped.outside mark mark' last)
    (plain : ∀ token, .ok token ∈ .ok first :: rest → token.Plain) (ends : last.kind = .endOfInput)
    (inside : Mark) {close : Token} (closes : close.kind = .rightParen)
    (beyond : List (Except Fault Token)) (base : Builder) :
    ∃ second later found' middle' reached,
      (tokensOf inside grouped.inner).map .ok ++ .ok close :: beyond = .ok second :: later ∧
      Reader.expressionWithin (symbols citation) nesting room 0 ⟨later, some second, base⟩ =
        (.ok found', reached) ∧
      Option.Rel (aside base).meaning found found' ∧
      Reader.Alike (aside base).likeness middle middle' ∧
      middle'.power (symbols citation) = 0 ∧ Encloses beyond close false middle' reached := by
  have same : (.ok first :: rest).map outlined = ((tokensOf inside grouped.inner).map .ok ++
      ((tokensOf mark' grouped.rear).map .ok ++ [.ok last]) :
      List (Except Fault Token)).map outlined := by
    simp only [core, Grouped.outside, List.map_append, map_outlined_tokensOf, grouped.outlines]
  rcases read_aside read plain same base
    with ⟨second, later, split, found', middle', ran, values, readers⟩
  have enclosed : Enclosed beyond close true _ _ := .of_grouped grouped ends inside mark'
  rw [split] at enclosed
  rcases Encloses.of_enclosed enclosed base with ⟨_, _, third, behind, front, row, encloses⟩
  obtain ⟨same, rfl⟩ := List.cons.inj front
  obtain rfl := Except.ok.inj same
  rcases Task.expression_ends room 0 (⟨later, some second, base⟩ : Reader Builder)
    with ⟨calls, course⟩
  rw [show (Task.expression room 0).step (symbols citation) nesting _ = _ from ran] at course
  rcases step_of_encloses (separates citation) (symbols_asks citation) (complete citation) closes
    course rfl encloses with
    ⟨reached, did, encloses⟩
  exact ⟨third, behind, found', middle', reached, row, did, values, readers,
    Nat.le_zero.1 course.power_le_of_expression, encloses⟩

end Anywhere

end Grammar

namespace Notation.Grouped

open Grammar

variable {signs : List Sign} (grouped : Grouped signs) (citation nesting room : Nat) (mark : Mark)
  (beyond : List (Except Fault Token)) (base : Builder)

def reader : Reader Builder :=
  ⟨(tokensOf (mark.past grouped.opening.text) (grouped.inner ++ [grouped.closing])).map
    .ok ++ beyond, some (grouped.opening.token mark), base⟩

theorem primary_reader :
    ∃ close, close.kind = .rightParen ∧ ∀ first rest,
      (tokensOf (mark.past grouped.opening.text) grouped.inner).map .ok ++ .ok close :: beyond =
        .ok first :: rest →
      Reader.primary (symbols citation) nesting room (grouped.reader mark beyond base) =
        (Reader.expressionWithin (symbols citation) nesting room 0 >>= fun value =>
            Reader.advance (symbols citation) (some .rightParen) >>= fun _ => pure value)
          ⟨rest, some first, base⟩ := by
  refine ⟨grouped.closing.token ((mark.past grouped.opening.text).past (textOf grouped.inner)),
    grouped.closes, ?_⟩
  intro first rest row
  have opens : (grouped.opening.token mark).kind = .leftParen := grouped.opens
  have passed : Reader.advance (symbols citation) none (grouped.reader mark beyond base) =
      (.ok first, ⟨rest, some first, base⟩) := by
    have pending :
        (tokensOf (mark.past grouped.opening.text) (grouped.inner ++ [grouped.closing])).map
          .ok ++ beyond =
        .ok first :: rest := by
      simpa [tokensOf_append] using row
    simp [reader, Reader.advance, Reader.obstacle?, pending, opens, complete citation first.kind]
  have taken := Reader.takeOpening_of_take (Reader.take_of_advance passed)
    (show (symbols citation).opening? (grouped.opening.token mark).kind =
      some (Precedence.Form.group 0 .rightParen) by
      rw [opens]
      rfl)
  exact Attempt.bind_ok taken

/-- In parentheses, the row always means this, unless a limit stops it. -/
def Means (value : Meaning) : Prop :=
  ∀ citation nesting room mark beyond base,
    Halted (Reader.primary (symbols citation) nesting room (grouped.reader mark beyond base)) ∨
      ∃ other close, other.unplaced = value.unplaced ∧ close.kind = .rightParen ∧
        Reader.primary (symbols citation) nesting room (grouped.reader mark beyond base) =
          (Reader.advance (symbols citation) (some .rightParen) >>= fun _ => pure (some other))
            ⟨beyond, some close, base⟩

def Fails (fault : Fault) : Prop :=
  ∀ citation nesting room mark beyond base,
    Halted (Reader.primary (symbols citation) nesting room (grouped.reader mark beyond base)) ∨
      ∃ other, other.unplaced = fault ∧
        (Reader.primary (symbols citation) nesting room (grouped.reader mark beyond base)).1 =
          .error other

variable {grouped citation nesting room beyond base} {value : Meaning} {first last : Token}
  {rest : List (Except Fault Token)} {mark mark' : Mark} {start : Builder} {found : Option Meaning}
  {middle : Reader Builder}

theorem eq_of_ended {middle' reached : Reader Builder} {close : Token}
    (ended : middle.atEndOfInput = true)
    (readers : Reader.Alike (aside base).likeness middle middle')
    (encloses : Encloses beyond close false middle' reached) :
    reached = ⟨beyond, some close, base⟩ := by
  have ended' := (readers.atEndOfInput_eq (aside_carried base 0).fair).symm.trans ended
  rw [Reader.atEndOfInput] at ended'
  rcases encloses.cases_of_read
    with ⟨_, _, _, rfl⟩ | ⟨pause, held, stops, _⟩ | ⟨token, held, inside, _⟩
  · rw [state_eq_of_aside readers]
  · simp [held, stops] at ended'
  · simp [held, inside] at ended'

theorem exists_mismatch {middle' reached : Reader Builder} {close stop : Token}
    (held : middle.current = some stop) (inside : stop.kind ≠ .endOfInput)
    (opens : ((silently citation).opening? stop.kind).isSome)
    (readers : Reader.Alike (aside base).likeness middle middle')
    (looser : middle'.power (symbols citation) = 0)
    (encloses : Encloses beyond close false middle' reached) (citation' : Nat) :
    ∃ fault, fault.unplaced =
      (Fault.mismatch Kind.rightParen.name stop.describe stop.span.position).unplaced ∧
      (Reader.advance (symbols citation') (some .rightParen) reached).1 = .error fault := by
  rcases middle' with ⟨pending, current, state⟩
  have tokens := readers.current
  rw [held] at tokens
  cases tokens with
  | @some _ token tokens =>
    have outline := outline_eq_of_aside tokens
    have kind : stop.kind = token.kind := congrArg Prod.fst outline
    rcases encloses.cases_of_read with ⟨_, here, ends, _⟩ | ⟨_, here, stops, _⟩ | ⟨_, here, _, also⟩
    · obtain rfl := Option.some.inj here
      exact absurd (kind.trans ends) inside
    · obtain rfl := Option.some.inj here
      have tight : (symbols citation).power token.kind = 0 := looser
      rw [stops, (separates citation).power] at tight
      cases tight
    · obtain rfl := Option.some.inj here
      have unclosing : token.kind ≠ .rightParen := by
        intro shut
        rw [kind, shut, (separates_guarded citation).begins .rightParen (by decide)] at opens
        cases opens
      have obstacle : reached.obstacle? (some .rightParen) =
          some (.mismatch Kind.rightParen.name token.describe token.span.position) := by
        simp [Reader.obstacle?, also, kind ▸ inside, unclosing]
      refine ⟨_, ?_, by rw [Reader.advance, obstacle]⟩
      simp only [Fault.unplaced, Token.describe, kind, show stop.value = token.value
        from congrArg Prod.snd outline]

/-- What is read in a text without statements up to its end is what it means in parentheses. If it
is read in several parts, these do not fit into one pair of parentheses. -/
theorem means_or_fails
    (read : Reader.expressionWithin (silently citation) nesting room 0 ⟨rest, some first, start⟩ =
      (.ok found, middle))
    (core : .ok first :: rest = grouped.outside mark mark' last)
    (plain : ∀ token, .ok token ∈ .ok first :: rest → token.Plain) (ends : last.kind = .endOfInput)
    (ahead : Ahead (silently citation) value found middle) :
    grouped.Means value ∨ ∃ fault, grouped.Fails fault := by
  cases ahead with
  | ended ended =>
    left
    intro citation' nesting' room' inside beyond base
    rcases primary_reader grouped citation' nesting' room' inside beyond base
      with ⟨close, closes, whole⟩
    rcases read_grouped grouped read core plain ends (inside.past grouped.opening.text) closes
      beyond base with
      ⟨second, later, found', middle', reached, row, did, values, readers, _, encloses⟩
    rw [whole _ _ row]
    rcases expressionWithin_settled did citation' nesting' room' with ⟨limit, stopped⟩ | same
    · exact .inl ⟨limit, Attempt.fst_bind_of_error stopped⟩
    · cases values with
      | @some _ other means =>
        refine .inr ⟨other, close, unplaced_eq_of_aside means, closes, ?_⟩
        rw [Attempt.bind_ok same, eq_of_ended ended readers encloses]
  | @goes_on _ stop _ _ inside opens =>
    right
    refine ⟨(Fault.mismatch Kind.rightParen.name stop.describe stop.span.position).unplaced, ?_⟩
    intro citation' nesting' room' inner beyond base
    rcases primary_reader grouped citation' nesting' room' inner beyond base
      with ⟨close, closes, whole⟩
    rcases read_grouped grouped read core plain ends (inner.past grouped.opening.text) closes
      beyond base with
      ⟨second, later, found', middle', reached, row, did, values, readers, looser, encloses⟩
    rw [whole _ _ row]
    rcases expressionWithin_settled did citation' nesting' room' with ⟨limit, stopped⟩ | same
    · exact .inl ⟨limit, Attempt.fst_bind_of_error stopped⟩
    · rcases exists_mismatch rfl inside opens readers looser encloses citation'
        with ⟨fault, unplaced, stopped⟩
      refine .inr ⟨fault, unplaced, ?_⟩
      rw [Attempt.bind_ok same]
      exact Attempt.fst_bind_of_error stopped

end Notation.Grouped

namespace Compilation

open Grammar

/-- A text without variables and markers that states nothing and comes to one meaning is read in
parentheses, and always means this there, or is always refused. -/
theorem exists_grouped_of_compiled {text : String} {limits : Limits} {value : Meaning}
    {graph : Graph} (compiled : ofSource text limits = .ok ⟨[value], graph⟩)
    (silent : graph.triples = []) (plain : PlainText text.toList) :
    ∃ signs, ∃ grouped : Grouped signs, text.toList = textOf signs ∧
      (grouped.Means value ∨ ∃ fault, grouped.Fails fault) := by
  rcases exists_wholeCourse compiled with ⟨calls, after, last, course, graphs, ends, tokens⟩
  have clean : ∀ fault, .error fault ∉ (Cursor.ofSource text).tokens := by
    simp [tokens, Call.taken]
  rcases exists_signs_of_clean (Cursor.tokens_ofSource text) clean
    with ⟨signs, last, whole, legible, ends, tokens⟩
  have parsed : Reader.parse (silently limits.citation) limits.nesting
      (Reader.ofSource text Builder.empty) = (.ok [value], after) := by
    refine Reader.parse_guarded (symbols_steady silent_lasting limits.citation) course.parse_eq ?_
    rwa [Silent, graphs]
  have separates : Separates (silently limits.citation) := separates_guarded limits.citation
  rcases solid_of_parsed separates ends tokens parsed with ⟨solid, starts⟩
  rcases exists_grouped legible solid starts with ⟨grouped⟩
  rcases reads_core separates grouped tokens parsed
    with ⟨_, _, room, first, rest, core, among, found, middle, read, ahead⟩
  refine ⟨signs, grouped, whole, Grouped.means_or_fails read core ?_ ends ahead⟩
  exact fun token inside => (Cursor.tokens_ofSource text).plain plain token (among.subset inside)

end Compilation

end FactGraph
