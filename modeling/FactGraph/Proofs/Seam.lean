import FactGraph.Proofs.Continuation
import FactGraph.Proofs.Grammar.Parting
import FactGraph.Proofs.Grammar.Splicing
import FactGraph.Proofs.Layout

/-! The seam of two sources that a semicolon joins. Behind the terminator that it becomes, the
tokens of the second source follow, and a terminator that this begins with is part of it. -/

namespace FactGraph

open Precedence Token

namespace Token

variable {before rest : List Char} {outcomes others : List (Except Fault Token)}

/-- A text is read in one way only. -/
theorem Scanned.unique (first : Scanned before rest outcomes)
    (second : Scanned before rest others) :
    outcomes = others := by
  induction first generalizing others with
  | ended =>
    cases second with
    | ended => rfl
    | stopped more => contradiction
    | read found => exact absurd found nofun
  | stopped more nothing =>
    cases second with
    | ended => contradiction
    | stopped => rfl
    | read found => exact absurd (nothing.symm.trans found) nofun
  | read found _ ih =>
    rcases second.of_found found with ⟨later, rfl, behind⟩
    rw [ih behind]

theorem Scanned.map_outlined (scanned : Scanned before rest outcomes) (mark : Mark) :
    outcomes.map outlined = outlines ⟨rest, mark⟩ := by
  rw [scanned.unique (Cursor.tokens_scanned before rest)]
  exact outlines_eq rest _ _

theorem exists_token_of_outlined {cursor : Cursor} (same : outcomes.map outlined = outlines cursor)
    {token : Token} (inside : .ok token ∈ outcomes) :
    ∃ other, .ok other ∈ cursor.tokens ∧ other.outline = token.outline := by
  have mapped : outlined (.ok token) ∈ outlines cursor := same ▸ List.mem_map_of_mem inside
  rcases List.mem_map.1 mapped with ⟨fault | other, read, equal⟩
  · cases equal
  · exact ⟨other, read, Except.ok.inj equal⟩

def unpaused (source : String) : List Char := source.toList.dropWhile isTerminatorChar

theorem dropWhile_of_stops {belongs : Char → Bool} (stop : Stops belongs rest) :
    rest.dropWhile belongs = rest :=
  Stops.dropWhile_append (List.forall_mem_nil _) stop

theorem stops_of_fits {sign : Notation.Sign} (fits : Notation.Fits sign rest)
    (other : sign.kind ≠ .terminator) (closed : sign.kind ∉ Notation.leadingKinds)
    (more : List Char) : Stops isTerminatorChar (sign.text ++ more) := by
  cases fits with
  | target | reference | leftParen => exact .cons (by decide)
  | identifier name =>
    rcases List.exists_cons_of_ne_nil name.nonempty with ⟨c, others, whole⟩
    rw [Notation.Sign.identifier, whole]
    exact .cons (isTerminatorChar_of_isEntityChar (name.belonging c (by simp [whole])))
  | operator listed =>
    have operators : ∀ entry ∈ operatorSigns, entry.1 ∈ Notation.leadingKinds := by decide
    exact absurd (operators _ listed) closed
  | rightParen => exact absurd (by decide : Kind.rightParen ∈ Notation.leadingKinds) closed
  | pause => exact absurd rfl other

theorem outlines_unpaused {source : String} {token : Token} {later : List (Except Fault Token)}
    (read : (Cursor.ofSource source).tokens = .ok token :: later) (mark : Mark) :
    (token.kind = .terminator → later.map outlined = outlines ⟨unpaused source, mark⟩) ∧
      (token.kind ≠ .terminator → token.kind ∉ Notation.leadingKinds →
        outlines (Cursor.ofSource source) = outlines ⟨unpaused source, mark⟩) := by
  have scanned := Cursor.tokens_ofSource source
  have same (stop : Stops isTerminatorChar source.toList) :
      outlines (Cursor.ofSource source) = outlines ⟨unpaused source, mark⟩ := by
    rw [unpaused, dropWhile_of_stops stop]
    exact outlines_eq _ _ _
  rw [read] at scanned
  generalize text : source.toList = rest at scanned same
  cases scanned with
  | ended => exact ⟨nofun, fun _ _ => same .nil⟩
  | @read _ _ kind lexeme _ found behind =>
    rcases Pattern.append_of_first? found with ⟨whole, _⟩
    constructor
    · rintro rfl
      rcases (shape_of_first? found).of_terminator with ⟨_, belonging⟩
      have stop : Stops isTerminatorChar lexeme.rest := leaves_of_first? found
      rw [behind.map_outlined mark, unpaused, text, ← whole, Stops.dropWhile_append belonging stop]
    · intro other closed
      have spelled : Notation.Sign.Spelled ⟨kind, lexeme.text, lexeme.value⟩ lexeme.rest := by
        rwa [Notation.Sign.Spelled, whole]
      have stop := stops_of_fits spelled.fits other closed lexeme.rest
      exact same (whole ▸ stop)

end Token

namespace Grammar

variable {citation nesting : Nat} {start : Builder} {first source : String} {values : List Meaning}
  {after : Reader Builder}

theorem Trail.held_of_tokens {calls : List Call} {last : Token}
    (tokens : (Cursor.ofSource source).tokens = Call.taken calls ++ [.ok last])
    (ends : last.kind = .endOfInput) :
    (Trail.ofSource source).held = (Trail.start.along (Call.kinds calls)).held := by
  have kinds : kindsOf (Call.taken calls ++ [.ok last]) = Call.kinds calls ++ [.endOfInput] := by
    simp [kindsOf, Call.taken, Call.kinds, List.filterMap_map, Except.toOption, ends]
  rw [Trail.ofSource, tokens, kinds, Trail.along_append]
  change (Trail.past _ .endOfInput).held = _
  rw [Trail.held_past]
  simp [Kind.carriesName]

section Start

variable {table : Symbols Builder Meaning} {calls : List Call} {begins : Token}
  {rest : List (Except Fault Token)}
  (courses : Courses table nesting ⟨rest, some begins, start⟩ calls (.ok values, after))

include courses

/-- A terminator at the beginning takes room for an expression, and there is a token behind it. -/
theorem exists_of_paused (paused : begins.kind = .terminator) :
    ∃ room next later, nesting = room + 1 ∧ rest = .ok next :: later ∧
      Reader.take table ⟨rest, some begins, start⟩ = (.ok begins, ⟨later, some next, start⟩) := by
  cases courses with
  | finished ended => simp [Reader.atEndOfInput, paused] at ended
  | more _ read =>
    cases read with
    | @opened _ behind token _ room _ _ _ _ _ _ taken =>
      rcases Reader.takeOpening_eq_ok taken with ⟨took, _⟩
      rcases Reader.remaining_of_take took with ⟨split, holds⟩
      rcases behind with ⟨later, _ | next, state⟩
      · cases holds
      · obtain rfl : state = start := Reader.state_of_take took
        obtain ⟨same, rfl⟩ : (.ok begins : Except Fault Token) = .ok token ∧
            rest = .ok next :: later :=
          List.cons.inj split
        obtain rfl := Except.ok.inj same
        exact ⟨room, next, later, rfl, rfl, took⟩

theorem Separates.not_leading (separates : Separates table) :
    begins.kind ∉ Notation.leadingKinds := by
  intro leads
  cases courses with
  | finished ended =>
    have kind : begins.kind = .endOfInput := by simpa [Reader.atEndOfInput] using ended
    rw [kind] at leads
    contradiction
  | more _ read =>
    cases read with
    | opened taken =>
      rcases Reader.takeOpening_eq_ok taken with ⟨took, found⟩
      obtain ⟨same, _⟩ := List.cons.inj (Reader.remaining_of_take took).1
      obtain rfl := Except.ok.inj same
      cases found.symm.trans (separates.begins _ leads)

end Start

theorem parse_unpaused {table : Symbols Builder Meaning} (separates : Separates table)
    (parsed : Reader.parse table nesting (Reader.ofSource source start) = (.ok values, after))
    (mark : Mark) :
    ∃ pause room upper next rest, room ≤ nesting ∧
    upper ≤ nesting ∧ nesting ≤ room + 1 ∧ nesting ≤ upper + 2 ∧
      List.map outlined (.ok next :: rest) = outlines ⟨unpaused source, mark⟩ ∧
      Reader.parse table nesting (Reader.ofSource source start) =
        (resume table nesting room upper pause none >>= fun value =>
          Reader.sequence table nesting >>= fun more =>
          pure (value.toList ++ more)) ⟨rest, some next, start⟩ := by
  rcases Attempt.exists_of_bind_ok parsed with ⟨begins, _, passed, _⟩
  rcases Reader.exists_of_advance passed with ⟨rest, pending, rfl⟩
  have whole : Reader.parse table nesting (Reader.ofSource source start) =
      Reader.sequence table nesting ⟨rest, some begins, start⟩ := Attempt.bind_ok passed
  rcases exists_courses table nesting ⟨rest, some begins, start⟩ with ⟨calls, courses⟩
  rw [← whole, parsed] at courses
  have outlines := outlines_unpaused pending mark
  rw [whole]
  by_cases paused : begins.kind = .terminator
  · rcases exists_of_paused courses paused with ⟨room, next, later, rfl, rfl, took⟩
    refine ⟨begins, room, room - 1, next, later, by omega, by omega, by omega, by omega,
      outlines.1 paused, ?_⟩
    exact separates.sequence_of_pause took paused (by simp [Reader.atEndOfInput, paused])
  · have same := outlines.2 paused (separates.not_leading courses)
    rw [Token.outlines, show (Cursor.ofSource source).tokens = _ from pending] at same
    refine ⟨begins, nesting, nesting - 1, begins,
      rest, by omega, by omega, by omega, by omega, same, ?_⟩
    exact separates.sequence_of_start rfl begins

theorem parse_joined {more : String}
    (parsed : Reader.parse (symbols citation) nesting (Reader.ofSource first start) =
      (.ok values, after))
    (room : 0 < nesting) (free : (Trail.ofSource first).held = false) (mark : Mark)
    (begins : ∃ outline later, outlines ⟨unpaused more, mark⟩ = .ok outline :: later) :
    ∃ next rest, List.map outlined (.ok next :: rest) = outlines ⟨unpaused more, mark⟩ ∧
      Resumes citation nesting next rest values after.state
        (Reader.parse (symbols citation) nesting
          (Reader.ofSource (first ++ ";" ++ more) start)) := by
  rcases Compilation.exists_calls parsed with ⟨calls, last, course, ends, tokens⟩
  have clean : ∀ fault, .error fault ∉ (Cursor.ofSource first).tokens := by
    simp [tokens, Call.taken]
  have longer : Scanned [] (first.toList ++ ';' :: more.toList)
      (Cursor.ofSource (first ++ ";" ++ more)).tokens := by
    have scanned := Cursor.tokens_ofSource (first ++ ";" ++ more)
    simpa using scanned
  rcases (Cursor.tokens_ofSource first).continues clean longer
    with ⟨front, beyond, continues, scanned⟩
  have outlines := scanned.map_outlined mark
  obtain ⟨next, rest, rfl⟩ : ∃ next rest, beyond = .ok next :: rest := by
    rcases begins with ⟨outline, later, begins⟩
    have split := outlines.trans begins
    rcases beyond with _ | ⟨_ | next, rest⟩
    · cases split
    · cases split
    · exact ⟨next, rest, rfl⟩
  refine ⟨next, rest, outlines, ?_⟩
  cases course with
  | begun passed courses =>
    rcases Reader.exists_of_advance passed with ⟨pending, split, rfl⟩
    rcases Reader.Abreast.of_continues continues start
      with ⟨token, later, second, others, own, joined, abreast⟩
    obtain ⟨same, rfl⟩ := List.cons.inj (split.symm.trans own)
    obtain rfl := Except.ok.inj same
    have begun : Reader.advance (symbols citation) none
        (Reader.ofSource (first ++ ";" ++ more) start) =
        (.ok second, ⟨others, some second, start⟩) := by
      simp [Reader.ofSource, Reader.advance, Reader.obstacle?, joined,
        Notation.complete citation second.kind]
    have whole : Reader.parse (symbols citation) nesting
        (Reader.ofSource (first ++ ";" ++ more) start) =
        Reader.sequence (symbols citation) nesting ⟨others, some second, start⟩ :=
      Attempt.bind_ok begun
    rw [whole]
    rw [Trail.held_of_tokens tokens ends] at free
    exact resumes_of_courses courses room abreast rfl free

def AllStated (values : List Meaning) : Prop := ∀ meaning ∈ values, meaning.isStatement = true

instance (values : List Meaning) : Decidable (AllStated values) :=
  inferInstanceAs (Decidable (∀ meaning ∈ values, meaning.isStatement = true))

theorem allStated_append {early later : List Meaning} :
    AllStated (early ++ later) ↔ AllStated early ∧ AllStated later :=
  List.forall_mem_append

theorem allStated_toList {value : Option Meaning} : AllStated value.toList ↔ Stated value := by
  simp [AllStated, Stated]

theorem AllStated.of_forall₂ {same : Ident → Ident → Prop} {naming : String → String → Prop}
    {others : List Meaning} (stated : AllStated values)
    (related : List.Forall₂ (Meaning.Corresponds same naming) values others) :
    AllStated others := by
  induction related with
  | nil => exact stated
  | cons first _ ih =>
    rcases List.forall_mem_cons.1 stated with ⟨own, later⟩
    exact List.forall_mem_cons.2 ⟨first.isStatement_eq.symm.trans own, ih later⟩

section Sides

variable {c : Correspondence} {table : Symbols Builder Meaning} {within : Nat} {other : Builder}
  {others joined : List Meaning} {final last : Reader Builder}

def Correspondence.Tokens (c : Correspondence) (source : String) : Prop :=
  ∀ first second : List (Except Fault Token), first.map outlined =
    outlines ⟨unpaused source, .start⟩ →
    second.map outlined = outlines ⟨unpaused source, .start⟩ →
    List.Forall₂ (Reader.Due c.likeness) first second

/-- What the second source does behind what the first has built, it does behind the first, too. -/
theorem parse_joined_of_parts (fair : c.likeness.Fair) (separates_table : Separates table)
    (tables : table.Parallel c.likeness (symbols citation))
    (parsed : Reader.parse (symbols citation) nesting (Reader.ofSource first start) =
      (.ok values, after))
    (stated : AllStated values) (free : (Trail.ofSource first).held = false)
    (also : Reader.parse table within (Reader.ofSource source other) = (.ok others, final))
    (stated_also : AllStated others) (room : within + 2 ≤ nesting)
    (limit : c.alone (.limit (.nesting within))) (states : c.likeness.state other after.state)
    (tokens : c.Tokens source) :
    ∃ joined last, Reader.parse (symbols citation) nesting
      (Reader.ofSource (first ++ ";" ++ source) start) =
      (.ok joined, last) ∧ AllStated joined ∧ c.likeness.state final.state last.state := by
  rcases parse_unpaused separates_table also .start with
    ⟨pause, room', upper', next, rest, room_le, upper_le, _, _, outlines, own⟩
  rcases parse_joined parsed (by omega) free .start ⟨_, _, outlines.symm⟩ with
    ⟨next', rest', outlines', early, value, pause', inner, upper, rfl, _, _, inner_le,
          le_upper, whole⟩
  rcases allStated_append.1 stated with ⟨stated_early, stated_value⟩
  have before := allStated_toList.1 stated_value
  have readers : Reader.Alike c.likeness ⟨rest, some next, other⟩ ⟨rest', some next',
        after.state⟩ := by
    cases tokens _ _ outlines outlines' with
    | cons due dues =>
      cases due with
      | token here => exact ⟨states, .some here, dues⟩
  have allowed (value : Option Meaning) (inside : value.toList ⊆ others) : Stated value :=
    allStated_toList.1 fun meaning mem => stated_also meaning (inside mem)
  have ran : (resume table within room' upper' pause none >>= fun value =>
        Reader.sequence table within >>= fun more =>
      pure ([] ++ (value.toList ++ more))) ⟨rest, some next, other⟩ = (.ok others, final) :=
        own.symm.trans also
  have roomy {room room' : Nat}
      (le : room ≤ room') : Reader.Roomy c.likeness within nesting room room' := .less le limit
  rcases (joins_behind c before).sequel_joined fair tables separates_table (separates citation)
    (roomy (by omega))
      (roomy (room_le.trans (by omega) : room' ≤ inner))
      (roomy (upper_le.trans (by omega) : upper' ≤ upper)) .nothing
      readers ran allowed early pause' with
    ⟨_, _, more, more', last, rfl, ran, values, mores, reached⟩
  rcases allStated_append.1 (allStated_append.1 stated_also).2 with ⟨stated_own, stated_more⟩
  have stated_value := values.stated before (allStated_toList.1 stated_own)
  refine ⟨_, last, whole.trans ran, ?_, reached.state⟩
  exact allStated_append.2 ⟨stated_early,
    allStated_append.2 ⟨allStated_toList.2 stated_value, stated_more.of_forall₂ mores⟩⟩

theorem parts_of_parse_joined (fair : c.likeness.Fair)
    (tables : (symbols citation).Parallel c.likeness (symbols citation))
    (parsed : Reader.parse (symbols citation) nesting (Reader.ofSource first start) =
      (.ok values, after))
    (stated : AllStated values) (free : (Trail.ofSource first).held = false)
    (also : Reader.parse (symbols citation) within (Reader.ofSource source other) =
      (.ok others, final))
    (whole : Reader.parse (symbols citation) nesting
      (Reader.ofSource (first ++ ";" ++ source) start) =
      (.ok joined, last))
    (some_room : 0 < nesting) (room : nesting + 2 ≤ within)
    (limit : c.alone (.limit (.nesting nesting))) (states : c.likeness.state after.state other)
    (tokens : c.Tokens source) :
    c.likeness.state last.state final.state := by
  rcases parse_unpaused (separates citation) also .start with
    ⟨pause, room', upper', next, rest, _, _, le_room, le_upper, outlines, own⟩
  rcases parse_joined parsed some_room free .start ⟨_, _, outlines.symm⟩ with
    ⟨next', rest', outlines', early, value, pause', inner, upper, rfl, inner_lt,
          upper_lt, _, _, ending⟩
  have before := allStated_toList.1 (allStated_append.1 stated).2
  have readers : Reader.Alike c.likeness ⟨rest', some next', after.state⟩ ⟨rest,
        some next, other⟩ := by
    cases tokens _ _ outlines' outlines with
    | cons due dues =>
      cases due with
      | token here => exact ⟨states, .some here, dues⟩
  have roomy {room room' : Nat}
      (le : room ≤ room') : Reader.Roomy c.likeness nesting within room room' := .less le limit
  rcases (joins_without c before).sequel_joined fair tables (separates citation)
    (separates citation) (roomy (by omega))
      (roomy (inner_lt.le.trans (by omega) : inner ≤ room'))
      (roomy (upper_lt.le.trans (by omega) : upper ≤ upper'))
      .nothing readers (ending.symm.trans whole) (fun _ _ => trivial) [] pause with
    ⟨_, _, _, _, reached, rfl, ran, _, _, reaches⟩
  have same := (own.trans ran).symm.trans also
  cases same
  exact reaches.state

end Sides

end Grammar

end FactGraph
