import FactGraph.Token.Cursor
import Mathlib.Data.List.Induction

namespace FactGraph.Token

def lineAfter (text : List Char) : Nat := 1 + text.count '\n'

/-- The column in which a text ends: it counts the characters behind the last line feed. -/
def columnAfter (text : List Char) : Nat := 1 + (text.reverse.takeWhile (· ≠ '\n')).length

def spanAfter (before text : List Char) : Span :=
  ⟨Text.width before, Text.width before + Text.width text, lineAfter before, columnAfter before⟩

theorem position_past (text : List Char) :
    text.foldl Position.past Position.first = ⟨lineAfter text, columnAfter text⟩ := by
  induction text using List.reverseRecOn with
  | nil => rfl
  | append_singleton text c ih =>
    rw [List.foldl_append, List.foldl_cons, List.foldl_nil, ih, Position.past]
    by_cases feed : c = '\n'
    · subst feed
      simp [lineAfter, columnAfter, Nat.add_assoc]
    · simp [lineAfter, columnAfter, feed, Nat.add_comm]

namespace Mark

theorem past_start (text : List Char) :
    start.past text = ⟨Text.width text, ⟨lineAfter text, columnAfter text⟩⟩ := by
  unfold past
  rw [start, position_past, Nat.zero_add]

theorem span_past_start (before text : List Char) :
    (start.past before).span (Text.width text) = spanAfter before text := by
  rw [past_start]
  rfl

end Mark

def unreadableAfter (before rest : List Char) : Fault :=
  .unreadable (Text.width before) ⟨lineAfter before, columnAfter before⟩
    (String.ofList (rest.take 10))

/-- What is read of the rest of a source behind the text before it, one lexeme after the other. -/
inductive Scanned : (before rest : List Char) → List (Except Fault Token) → Prop
  | ended {before : List Char} : Scanned before [] [.ok (endOfInput (spanAfter before []))]
  | stopped {before rest : List Char} (more : rest ≠ [])
      (nothing : Pattern.first? rest Pattern.all = none) :
      Scanned before rest [.error (unreadableAfter before rest)]
  | read {before rest : List Char} {kind : Kind} {lexeme : Lexeme}
      {outcomes : List (Except Fault Token)}
      (found : Pattern.first? rest Pattern.all = some (kind, lexeme))
      (later : Scanned (before ++ lexeme.text) lexeme.rest outcomes) :
      Scanned before rest (.ok (Cursor.tokenAt (Mark.start.past before) kind lexeme) :: outcomes)

theorem Cursor.tokens_scanned (before rest : List Char) :
    Scanned before rest (Cursor.tokens ⟨rest, Mark.start.past before⟩) := by
  by_cases ended : rest = []
  · subst ended
    have place : (Mark.start.past before).span 0 = spanAfter before [] :=
      Mark.span_past_start before []
    rw [tokens_of_rest_nil rfl, place]
    exact .ended
  · have next : Cursor.token ⟨rest, Mark.start.past before⟩ = _ := token_of_rest_ne_nil ended
    cases found : Pattern.first? rest Pattern.all with
    | none =>
      simp only [found] at next
      rw [tokens_of_fault ended next, Mark.past_start]
      exact .stopped ended found
    | some hit =>
      rcases hit with ⟨kind, lexeme⟩
      simp only [found] at next
      have shorter := Pattern.length_rest_lt_of_first? found
      rw [tokens_of_token ended next, ← Mark.past_append]
      exact .read found (tokens_scanned (before ++ lexeme.text) lexeme.rest)
termination_by rest.length

theorem Cursor.tokens_ofSource (source : String) :
    Scanned [] source.toList (Cursor.ofSource source).tokens := tokens_scanned [] source.toList

end FactGraph.Token
