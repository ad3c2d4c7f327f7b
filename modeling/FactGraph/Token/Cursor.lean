import FactGraph.Attempt
import FactGraph.Text
import FactGraph.Token.Pattern

namespace FactGraph.Token

structure Mark where
  offset : Nat
  position : Position
  deriving DecidableEq, Repr

namespace Mark

def start : Mark := ⟨0, Position.first⟩

def past (mark : Mark) (text : List Char) : Mark :=
  ⟨mark.offset + Text.width text, text.foldl Position.past mark.position⟩

def span (mark : Mark) (width : Nat) : Span :=
  ⟨mark.offset, mark.offset + width, mark.position.line, mark.position.column⟩

theorem past_append (mark : Mark) (first second : List Char) :
    mark.past (first ++ second) = (mark.past first).past second := by
  simp [Mark.past, List.foldl_append, Nat.add_assoc]

end Mark

structure Cursor where
  rest : List Char
  mark : Mark
  deriving DecidableEq, Repr

namespace Cursor

def ofSource (source : String) : Cursor := ⟨source.toList, Mark.start⟩

def excerptLength : Nat := 10

/-- Blanks that an operator has taken in front of it are not part of its span; a terminator is
nothing but such text, and all of it counts. -/
def lead (kind : Kind) (text : List Char) : List Char :=
  if kind = .terminator then [] else Text.leadingBlanks text

def core (kind : Kind) (text : List Char) : List Char :=
  if kind = .terminator then text else Text.trimEnd (Text.trimStart text)

def tokenAt (mark : Mark) (kind : Kind) (lexeme : Lexeme) : Token :=
  let start := mark.past (lead kind lexeme.text)
  ⟨kind, String.ofList lexeme.text, lexeme.value.map String.ofList,
    start.span (Text.width (core kind lexeme.text))⟩

/-- The next token, and the cursor after it. At the end of the source this is the same token each
time. -/
def token (cursor : Cursor) : Except Fault (Token × Cursor) :=
  match cursor.rest with
  | [] => .ok (Token.endOfInput (cursor.mark.span 0), cursor)
  | source =>
      match Pattern.first? source Pattern.all with
      | some (kind, lexeme) =>
          .ok (tokenAt cursor.mark kind lexeme, ⟨lexeme.rest, cursor.mark.past lexeme.text⟩)
      | none =>
          .error (.unreadable cursor.mark.offset cursor.mark.position
            (String.ofList (source.take excerptLength)))

theorem token_of_rest_nil {cursor : Cursor} (ended : cursor.rest = []) :
    cursor.token = .ok (Token.endOfInput (cursor.mark.span 0), cursor) := by
  simp [token, ended]

theorem token_of_rest_ne_nil {cursor : Cursor} (more : cursor.rest ≠ []) :
    cursor.token =
      match Pattern.first? cursor.rest Pattern.all with
      | some (kind, lexeme) =>
          .ok (tokenAt cursor.mark kind lexeme, ⟨lexeme.rest, cursor.mark.past lexeme.text⟩)
      | none =>
          .error (.unreadable cursor.mark.offset cursor.mark.position
            (String.ofList (cursor.rest.take excerptLength))) := by
  unfold token
  split
  · contradiction
  · rfl

theorem length_rest_lt_of_token {cursor after : Cursor} {token : Token} (more : cursor.rest ≠ [])
    (read : cursor.token = .ok (token, after)) : after.rest.length < cursor.rest.length := by
  rw [token_of_rest_ne_nil more] at read
  split at read
  · next found =>
    simp only [Except.ok.injEq, Prod.mk.injEq] at read
    obtain ⟨_, rfl⟩ := read
    exact Pattern.length_rest_lt_of_first? found
  · simp at read

def tokens (cursor : Cursor) : List (Except Fault Token) :=
  if ended : cursor.rest = [] then [.ok (Token.endOfInput (cursor.mark.span 0))]
  else
    match read : cursor.token with
    | .ok (token, after) =>
        have := length_rest_lt_of_token ended read
        .ok token :: tokens after
    | .error fault => [.error fault]
termination_by cursor.rest.length

theorem tokens_of_rest_nil {cursor : Cursor} (ended : cursor.rest = []) :
    cursor.tokens = [.ok (Token.endOfInput (cursor.mark.span 0))] := by
  rw [tokens]
  simp only [ended, dite_true]

theorem tokens_of_token {cursor after : Cursor} {token : Token} (more : cursor.rest ≠ [])
    (read : cursor.token = .ok (token, after)) : cursor.tokens = .ok token :: after.tokens := by
  rw [tokens]
  simp only [more, dite_false]
  split
  · next same =>
    rw [read] at same
    simp only [Except.ok.injEq, Prod.mk.injEq] at same
    rcases same with ⟨rfl, rfl⟩
    rfl
  · next fault =>
    rw [read] at fault
    contradiction

theorem tokens_of_fault {cursor : Cursor} {fault : Fault} (more : cursor.rest ≠ [])
    (failed : cursor.token = .error fault) : cursor.tokens = [.error fault] := by
  rw [tokens]
  simp only [more, dite_false]
  split
  · next read =>
    rw [failed] at read
    contradiction
  · next same =>
    rw [failed] at same
    simp only [Except.error.injEq] at same
    rw [same]

end Cursor

def tokenize (source : String) : Except Fault (List Token) :=
  (Cursor.ofSource source).tokens.mapM id

/-- A cursor that remembers whether a walk over the tokens has ended. -/
structure Scanner where
  cursor : Cursor
  finished : Bool
  deriving DecidableEq, Repr

namespace Scanner

def ofSource (source : String) : Scanner := ⟨Cursor.ofSource source, false⟩

def nextToken : Attempt Scanner Token := fun scanner =>
  match scanner.cursor.token with
  | .ok (token, cursor) => (.ok token, { scanner with cursor })
  | .error fault => (.error fault, scanner)

/-- One step of a walk, which ends with the end of the input or with a fault. -/
def next : Attempt Scanner (Option Token) := fun scanner =>
  if scanner.finished then (.ok none, scanner)
  else
    match nextToken scanner with
    | (.ok token, reached) =>
        (.ok (some token), { reached with finished := token.kind == .endOfInput })
    | (.error fault, reached) => (.error fault, { reached with finished := true })

end Scanner

end FactGraph.Token
