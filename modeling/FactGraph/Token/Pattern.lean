import FactGraph.Graph.Naming
import FactGraph.Text
import FactGraph.Text.Letters
import FactGraph.Token

namespace FactGraph.Token

def isNameChar (c : Char) : Bool := Text.isLetterOrNumber c || c == '_' || c == '-'

def isEntityChar (c : Char) : Bool := isNameChar c || c == anonymousMarker

def isTerminatorChar (c : Char) : Bool := Text.isBlank c || c == ';'

inductive Piece where
  /-- All blanks that are there, if any. -/
  | blanks
  | sign (text : List Char)
  /-- The longest run of characters of a class, and at least one. -/
  | run (belongs : Char → Bool)
  /-- A run that is the value of the token. -/
  | name (belongs : Char → Bool)

structure Lexeme where
  text : List Char
  value : Option (List Char)
  rest : List Char
  deriving DecidableEq, Repr

namespace Piece

def split (piece : Piece) (source : List Char) : Option (List Char × List Char) :=
  match piece with
  | blanks => some (Text.leadingBlanks source, Text.trimStart source)
  | sign text => if text.isPrefixOf source then some (text, source.drop text.length) else none
  | run belongs =>
      if (source.takeWhile belongs).isEmpty then none
      else some (source.takeWhile belongs, source.dropWhile belongs)
  | name belongs =>
      if (source.takeWhile belongs).isEmpty then none
      else some (source.takeWhile belongs, source.dropWhile belongs)

def value? (piece : Piece) (taken : List Char) : Option (List Char) :=
  match piece with
  | name _ => some taken
  | _ => none

theorem append_of_split {piece : Piece} {source taken rest : List Char}
    (found : piece.split source = some (taken, rest)) : taken ++ rest = source := by
  cases piece with
  | blanks =>
    simp only [split, Option.some.injEq, Prod.mk.injEq] at found
    obtain ⟨rfl, rfl⟩ := found
    exact Text.leadingBlanks_append_trimStart source
  | sign text =>
    simp only [split, Option.ite_none_right_eq_some, Option.some.injEq, Prod.mk.injEq] at found
    obtain ⟨start, rfl, rfl⟩ := found
    obtain ⟨rest, rfl⟩ := List.isPrefixOf_iff_prefix.1 start
    simp
  | run belongs =>
    simp only [split, Option.ite_none_left_eq_some, Option.some.injEq, Prod.mk.injEq] at found
    obtain ⟨_, rfl, rfl⟩ := found
    exact List.takeWhile_append_dropWhile
  | name belongs =>
    simp only [split, Option.ite_none_left_eq_some, Option.some.injEq, Prod.mk.injEq] at found
    obtain ⟨_, rfl, rfl⟩ := found
    exact List.takeWhile_append_dropWhile

end Piece

structure Pattern where
  kind : Kind
  pieces : List Piece

namespace Pattern

def lexemeOf : List Piece → List Char → Option Lexeme
  | [], source => some ⟨[], none, source⟩
  | piece :: pieces, source => do
      let (taken, rest) ← piece.split source
      let lexeme ← lexemeOf pieces rest
      return ⟨taken ++ lexeme.text, (piece.value? taken).or lexeme.value, lexeme.rest⟩

/-- A match that takes nothing is none. -/
def lexeme? (pattern : Pattern) (source : List Char) : Option Lexeme :=
  (lexemeOf pattern.pieces source).filter (!·.text.isEmpty)

/-- In the order in which they are tried. The sign of an assignment comes before the colon it
begins with, and every operator before the terminator, so that blanks belong to the operator. -/
def all : List Pattern := [
  ⟨.target, [.sign ['@'], .name isNameChar]⟩,
  ⟨.reference, [.sign ['*'], .name isNameChar]⟩,
  ⟨.identifier, [.name isEntityChar]⟩,
  ⟨.assign, [.blanks, .sign [':', '='], .blanks]⟩,
  ⟨.arrow, [.blanks, .sign ['=', '>'], .blanks]⟩,
  ⟨.colon, [.blanks, .sign [':'], .blanks]⟩,
  ⟨.bang, [.blanks, .sign ['!'], .blanks]⟩,
  ⟨.leftParen, [.sign ['('], .blanks]⟩,
  ⟨.rightParen, [.blanks, .sign [')']]⟩,
  ⟨.terminator, [.run isTerminatorChar]⟩]

def first? (source : List Char) : List Pattern → Option (Kind × Lexeme)
  | [] => none
  | pattern :: patterns =>
      match pattern.lexeme? source with
      | some lexeme => some (pattern.kind, lexeme)
      | none => first? source patterns

theorem append_of_lexemeOf {pieces : List Piece} {source : List Char} {lexeme : Lexeme}
    (found : lexemeOf pieces source = some lexeme) : lexeme.text ++ lexeme.rest = source := by
  induction pieces generalizing source lexeme with
  | nil =>
    simp only [lexemeOf, Option.some.injEq] at found
    subst found
    rfl
  | cons piece pieces ih =>
    simp only [lexemeOf, Option.bind_eq_bind, Option.bind_eq_some_iff, Option.pure_def,
      Option.some.injEq, Prod.exists] at found
    obtain ⟨taken, rest, cut, tail, deeper, rfl⟩ := found
    rw [List.append_assoc, ih deeper]
    exact Piece.append_of_split cut

theorem append_of_first? {source : List Char} {patterns : List Pattern} {kind : Kind}
    {lexeme : Lexeme} (found : first? source patterns = some (kind, lexeme)) :
    lexeme.text ++ lexeme.rest = source ∧ lexeme.text ≠ [] := by
  induction patterns with
  | nil => simp [first?] at found
  | cons pattern patterns ih =>
    simp only [first?] at found
    split at found
    · next hit =>
      simp only [Option.some.injEq, Prod.mk.injEq] at found
      obtain ⟨_, rfl⟩ := found
      simp only [lexeme?, Option.filter_eq_some_iff] at hit
      exact ⟨append_of_lexemeOf hit.1, by simpa using hit.2⟩
    · exact ih found

theorem length_rest_lt_of_first? {source : List Char} {patterns : List Pattern} {kind : Kind}
    {lexeme : Lexeme} (found : first? source patterns = some (kind, lexeme)) :
    lexeme.rest.length < source.length := by
  obtain ⟨whole, nonempty⟩ := append_of_first? found
  have := List.length_pos_iff.2 nonempty
  rw [← whole, List.length_append]
  omega

end Pattern

end FactGraph.Token
