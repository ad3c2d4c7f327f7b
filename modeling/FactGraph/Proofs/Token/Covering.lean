import FactGraph.Proofs.Token.Location
import FactGraph.Proofs.Token.Shapes

namespace FactGraph.Token

structure Trims (text lead core tail : List Char) : Prop where
  whole : text = lead ++ core ++ tail
  leading : ∀ c ∈ lead, Text.isBlank c = true
  trailing : ∀ c ∈ tail, Text.isBlank c = true
  nonempty : core ≠ []
  visible : ∀ c ∈ core, Text.isBlank c = false

theorem Shape.trims {kind : Kind} {text : List Char} (shape : Shape kind text)
    (other : kind ≠ .terminator) :
    ∃ lead core tail, Trims text lead core tail := by
  have entity {c : Char} (name : isNameChar c = true) : Text.isBlank c = false :=
    isBlank_of_isEntityChar (isEntityChar_of_isNameChar name)
  have none : ∀ c ∈ ([] : List Char), Text.isBlank c = true := List.forall_mem_nil _
  have signs : ∀ entry ∈ variableSigns, Text.isBlank entry.2 = false := by decide
  have operators : ∀ entry ∈ operatorSigns, entry.2 ≠ [] ∧ entry.2.any Text.isBlank = false := by
    decide
  cases shape with
  | @signed _ sign name listed nonempty belonging =>
    have visible : Text.isBlank sign = false := signs (kind, sign) listed
    refine ⟨[], sign :: name, [], by simp, none, none, List.cons_ne_nil _ _, ?_⟩
    exact List.forall_mem_cons.2 ⟨visible, fun c inside => entity (belonging c inside)⟩
  | identifier nonempty belonging =>
    refine ⟨[], text, [], by simp, none, none, nonempty, ?_⟩
    intro c inside
    exact isBlank_of_isEntityChar (belonging c inside)
  | @operator _ sign before after listed leading trailing =>
    have own := operators (kind, sign) listed
    refine ⟨before, sign, after, rfl, leading, trailing, own.1, ?_⟩
    simpa using own.2
  | @leftParen after trailing =>
    have visible : ∀ c ∈ ['('], Text.isBlank c = false := List.forall_mem_singleton.2 (by decide)
    exact ⟨[], ['('], after, rfl, none, trailing, List.cons_ne_nil _ _, visible⟩
  | @rightParen before leading =>
    have visible : ∀ c ∈ [')'], Text.isBlank c = false := List.forall_mem_singleton.2 (by decide)
    exact ⟨before, [')'], [], (List.append_nil _).symm, leading, none,
      List.cons_ne_nil _ _, visible⟩
  | terminator => exact absurd rfl other

namespace Trims

variable {kind : Kind} {text lead core tail : List Char}

theorem stops (trims : Trims text lead core tail) : Stops Text.isBlank (core ++ tail) := by
  rcases List.exists_cons_of_ne_nil trims.nonempty with ⟨c, more, rfl⟩
  exact .cons (trims.visible c List.mem_cons_self)

theorem lead_eq (trims : Trims text lead core tail) (other : kind ≠ .terminator) :
    Cursor.lead kind text = lead := by
  rw [Cursor.lead, if_neg other, trims.whole, List.append_assoc, Text.leadingBlanks,
    Stops.takeWhile_append trims.leading trims.stops]

theorem core_eq (trims : Trims text lead core tail) (other : kind ≠ .terminator) :
    Cursor.core kind text = core := by
  have backwards : Stops Text.isBlank core.reverse := by
    intro c first
    exact trims.visible c (List.mem_reverse.1 (List.mem_of_mem_head? first))
  rw [Cursor.core, if_neg other, trims.whole, List.append_assoc, Text.trimStart,
    Stops.dropWhile_append trims.leading trims.stops, trimEnd_append trims.trailing backwards]

end Trims

/-- Where a token is whose text begins behind another text: from its first visible character on, as
far as the last one; but a terminator is all of its text. -/
inductive Located (before : List Char) (token : Token) : Prop
  | pause (kind : token.kind = .terminator) (span : token.span = spanAfter before token.text.toList)
  | trimmed {lead core tail : List Char} (kind : token.kind ≠ .terminator)
      (trims : Trims token.text.toList lead core tail)
      (span : token.span = spanAfter (before ++ lead) core)

theorem located_tokenAt {kind : Kind} {lexeme : Lexeme} (before : List Char)
    (shape : Shape kind lexeme.text) :
    Located before (Cursor.tokenAt (Mark.start.past before) kind lexeme) := by
  by_cases pause : kind = .terminator
  · apply Located.pause pause
    simp only [Cursor.tokenAt, Cursor.lead, Cursor.core, if_pos pause, String.toList_ofList]
    exact Mark.span_past_start before lexeme.text
  · rcases shape.trims pause with ⟨lead, core, tail, trims⟩
    have text : (Cursor.tokenAt (Mark.start.past before) kind lexeme).text.toList = lexeme.text :=
      String.toList_ofList
    apply Located.trimmed pause (text.symm ▸ trims)
    rw [Cursor.tokenAt, trims.lead_eq pause, trims.core_eq pause, ← Mark.past_append]
    exact Mark.span_past_start (before ++ lead) core

def joined (tokens : List Token) : List Char := tokens.flatMap fun token => token.text.toList

theorem Shape.ne_endOfInput {kind : Kind} {text : List Char} (shape : Shape kind text) :
    kind ≠ .endOfInput := by
  have signs : ∀ entry ∈ variableSigns, entry.1 ≠ .endOfInput := by decide
  have operators : ∀ entry ∈ operatorSigns, entry.1 ≠ .endOfInput := by decide
  cases shape with
  | signed listed => exact signs _ listed
  | operator listed => exact operators _ listed
  | _ => decide

theorem Scanned.eq_nil_of_endOfInput {before rest : List Char}
    {outcomes early late : List (Except Fault Token)} {token : Token}
    (scanned : Scanned before rest outcomes) (split : outcomes = early ++ .ok token :: late)
    (ends : token.kind = .endOfInput) : late = [] := by
  induction scanned generalizing early with
  | ended =>
    rcases List.cons_eq_append_iff.1 split with ⟨rfl, same⟩ | ⟨others, rfl, same⟩
    · exact (List.cons.inj same).2
    · simp at same
  | stopped =>
    rcases List.cons_eq_append_iff.1 split with ⟨rfl, same⟩ | ⟨others, rfl, same⟩
    · simp at same
    · simp at same
  | read found _ ih =>
    rcases List.cons_eq_append_iff.1 split with ⟨rfl, same⟩ | ⟨others, rfl, same⟩
    · have first := Except.ok.inj (List.cons.inj same).1
      rw [first] at ends
      exact absurd ends (shape_of_first? found).ne_endOfInput
    · exact ih same

/-- What is read of a rest is a list of tokens, each behind the ones before it, and then the end of
the rest, or a fault where nothing more is found. -/
theorem Scanned.covers {before rest : List Char} {outcomes : List (Except Fault Token)}
    (scanned : Scanned before rest outcomes) :
    ∃ tokens last, outcomes = tokens.map .ok ++ [last] ∧
      (∀ early token late, tokens = early ++ token :: late →
        token.kind ≠ .endOfInput ∧ token.text ≠ "" ∧ Located (before ++ joined early) token) ∧
      (joined tokens = rest ∧ last = .ok (endOfInput (spanAfter (before ++ rest) [])) ∨
        ∃ more, more ≠ [] ∧ joined tokens ++ more = rest ∧
          last = .error (unreadableAfter (before ++ joined tokens) more)) := by
  induction scanned with
  | @ended before =>
    refine ⟨[], _, rfl, ?_, .inl ⟨rfl, by rw [List.append_nil]⟩⟩
    intro early token late split
    simp at split
  | @stopped before rest more nothing =>
    refine ⟨[], _, rfl, ?_, .inr ⟨rest, more,
      rfl, by rw [joined, List.flatMap_nil, List.append_nil]⟩⟩
    intro early token late split
    simp at split
  | @read before rest kind lexeme outcomes found later ih =>
    rcases ih with ⟨tokens, last, rfl, placed, ending⟩
    rcases Pattern.append_of_first? found with ⟨whole, nonempty⟩
    have shape := shape_of_first? found
    have text : (Cursor.tokenAt (Mark.start.past before) kind lexeme).text.toList = lexeme.text :=
      String.toList_ofList
    have cons (others : List Token) :
        joined (Cursor.tokenAt (Mark.start.past before) kind lexeme :: others) =
        lexeme.text ++ joined others := by
      rw [joined, List.flatMap_cons, text]
      rfl
    refine ⟨Cursor.tokenAt (Mark.start.past before) kind lexeme :: tokens, last, rfl, ?_, ?_⟩
    · intro early token late split
      rcases List.cons_eq_append_iff.1 split with ⟨rfl, same⟩ | ⟨others, rfl, same⟩
      · obtain ⟨rfl, _⟩ := List.cons.inj same
        refine ⟨shape.ne_endOfInput, ?_, ?_⟩
        · intro empty
          rw [empty] at text
          exact nonempty text.symm
        · simpa [joined] using located_tokenAt before shape
      · rw [cons, ← List.append_assoc]
        exact placed others token late same
    · rw [cons, ← List.append_assoc, ← whole]
      rcases ending with ⟨all, last⟩ | ⟨more, nonempty, all, last⟩
      · exact .inl ⟨by rw [all], by rw [last, List.append_assoc, whole]⟩
      · exact .inr ⟨more, nonempty, by rw [List.append_assoc, all], last⟩

/-- The tokens of a source, up to its end or to the first fault, are its text, and the place of each
is counted from the beginning of the source. -/
theorem tokens_cover_source (source : String) :
    ∃ tokens last, (Cursor.ofSource source).tokens = tokens.map .ok ++ [last] ∧
      (∀ before token after, tokens = before ++ token :: after →
        token.kind ≠ .endOfInput ∧ token.text ≠ "" ∧ Located (joined before) token) ∧
      (joined tokens = source.toList ∧ last = .ok (endOfInput (spanAfter source.toList [])) ∨
        ∃ rest, rest ≠ [] ∧ joined tokens ++ rest = source.toList ∧
          last = .error (unreadableAfter (joined tokens) rest)) :=
  (Cursor.tokens_ofSource source).covers

end FactGraph.Token
