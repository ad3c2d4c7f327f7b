import FactGraph.Proofs.Token.Matching
import FactGraph.Proofs.Token.Values
import Mathlib.Data.List.Forall2

namespace FactGraph.Token

def Piece.Takes : Piece → List Char → Prop
  | blanks, taken => ∀ c ∈ taken, Text.isBlank c = true
  | sign text, taken => taken = text
  | run belongs, taken => taken ≠ [] ∧ ∀ c ∈ taken, belongs c = true
  | name belongs, taken => taken ≠ [] ∧ ∀ c ∈ taken, belongs c = true

theorem Piece.takes_of_split {piece : Piece} {source taken rest : List Char}
    (found : piece.split source = some (taken, rest)) : piece.Takes taken := by
  have all (belongs : Char → Bool) : ∀ c ∈ source.takeWhile belongs, belongs c = true :=
    List.all_eq_true.1 List.all_takeWhile
  cases piece with
  | blanks =>
    simp only [split, Option.some.injEq, Prod.mk.injEq] at found
    exact found.1 ▸ all Text.isBlank
  | sign text =>
    simp only [split, Option.ite_none_right_eq_some, Option.some.injEq, Prod.mk.injEq] at found
    exact found.2.1.symm
  | run belongs =>
    simp only [split, Option.ite_none_left_eq_some, Option.some.injEq, Prod.mk.injEq] at found
    rcases found with ⟨nonempty, rfl, _⟩
    exact ⟨by simpa using nonempty, all belongs⟩
  | name belongs =>
    simp only [split, Option.ite_none_left_eq_some, Option.some.injEq, Prod.mk.injEq] at found
    rcases found with ⟨nonempty, rfl, _⟩
    exact ⟨by simpa using nonempty, all belongs⟩

namespace Pattern

variable {source : List Char} {kind : Kind} {lexeme : Lexeme}

theorem takes_of_lexemeOf {pieces : List Piece} (found : lexemeOf pieces source = some lexeme) :
    ∃ parts, List.Forall₂ Piece.Takes pieces parts ∧ lexeme.text = parts.flatten := by
  induction pieces generalizing source lexeme with
  | nil =>
    simp only [lexemeOf, Option.some.injEq] at found
    subst found
    exact ⟨[], .nil, rfl⟩
  | cons piece pieces ih =>
    simp only [lexemeOf, Option.bind_eq_bind, Option.bind_eq_some_iff, Option.pure_def,
      Option.some.injEq, Prod.exists] at found
    rcases found with ⟨taken, rest, cut, tail, deeper, rfl⟩
    rcases ih deeper with ⟨parts, taking, whole⟩
    exact ⟨taken :: parts, .cons (Piece.takes_of_split cut)
      taking, by rw [List.flatten_cons, whole]⟩

end Pattern

def variableSigns : List (Kind × Char) := [(.target, '@'), (.reference, '*')]

def operatorSigns : List (Kind × List Char) :=
  [(.assign, [':', '=']), (.arrow, ['=', '>']), (.colon, [':']), (.bang, ['!'])]

inductive Shape : Kind → List Char → Prop
  | signed {kind : Kind} {sign : Char} {name : List Char} (listed : (kind, sign) ∈ variableSigns)
      (nonempty : name ≠ []) (belonging : ∀ c ∈ name, isNameChar c = true) :
      Shape kind (sign :: name)
  | identifier {name : List Char} (nonempty : name ≠ [])
      (belonging : ∀ c ∈ name, isEntityChar c = true) :
      Shape .identifier name
  | operator {kind : Kind} {sign before after : List Char} (listed : (kind, sign) ∈ operatorSigns)
      (leading : ∀ c ∈ before, Text.isBlank c = true)
      (trailing : ∀ c ∈ after, Text.isBlank c = true) :
      Shape kind (before ++ sign ++ after)
  | leftParen {after : List Char} (trailing : ∀ c ∈ after, Text.isBlank c = true) :
      Shape .leftParen (['('] ++ after)
  | rightParen {before : List Char} (leading : ∀ c ∈ before, Text.isBlank c = true) :
      Shape .rightParen (before ++ [')'])
  | terminator {text : List Char} (nonempty : text ≠ [])
      (belonging : ∀ c ∈ text, isTerminatorChar c = true) :
      Shape .terminator text

theorem Shape.of_signed {kind : Kind} {sign : Char} {parts : List (List Char)}
    (listed : (kind, sign) ∈ variableSigns)
    (taking : List.Forall₂ Piece.Takes [.sign [sign], .name isNameChar] parts) :
    Shape kind parts.flatten := by
  rcases taking with _ | ⟨first, _ | ⟨name, ⟨⟩⟩⟩
  obtain rfl := first
  simpa using Shape.signed listed name.1 name.2

theorem Shape.of_operator {kind : Kind} {sign : List Char} {parts : List (List Char)}
    (listed : (kind, sign) ∈ operatorSigns)
    (taking : List.Forall₂ Piece.Takes [.blanks, .sign sign, .blanks] parts) :
    Shape kind parts.flatten := by
  rcases taking with _ | ⟨leading, _ | ⟨middle, _ | ⟨trailing, ⟨⟩⟩⟩⟩
  obtain rfl := middle
  simpa using Shape.operator listed leading trailing

theorem Pattern.shape_of_lexeme? {pattern : Pattern} {source : List Char} {lexeme : Lexeme}
    (inside : pattern ∈ all) (hit : pattern.lexeme? source = some lexeme) :
    Shape pattern.kind lexeme.text := by
  rw [lexeme?, Option.filter_eq_some_iff] at hit
  rcases takes_of_lexemeOf hit.1 with ⟨parts, taking, whole⟩
  rw [whole]
  simp only [all, List.mem_cons, List.not_mem_nil, or_false] at inside
  rcases inside with rfl | rfl | rfl | rfl | rfl | rfl | rfl | rfl | rfl | rfl
  · exact .of_signed (by decide) taking
  · exact .of_signed (by decide) taking
  · rcases taking with _ | ⟨name, ⟨⟩⟩
    simpa using Shape.identifier name.1 name.2
  · exact .of_operator (by decide) taking
  · exact .of_operator (by decide) taking
  · exact .of_operator (by decide) taking
  · exact .of_operator (by decide) taking
  · rcases taking with _ | ⟨sign, _ | ⟨trailing, ⟨⟩⟩⟩
    obtain rfl := sign
    simpa using Shape.leftParen trailing
  · rcases taking with _ | ⟨leading, _ | ⟨sign, ⟨⟩⟩⟩
    obtain rfl := sign
    simpa using Shape.rightParen leading
  · rcases taking with _ | ⟨run, ⟨⟩⟩
    simpa using Shape.terminator run.1 run.2

theorem shape_of_first? {source : List Char} {kind : Kind} {lexeme : Lexeme}
    (found : Pattern.first? source Pattern.all = some (kind, lexeme)) : Shape kind lexeme.text := by
  rcases Pattern.exists_of_first? found with ⟨pattern, inside, rfl, hit⟩
  exact Pattern.shape_of_lexeme? inside hit

def Piece.Leaves : Piece → List Char → Prop
  | blanks => Stops Text.isBlank
  | sign _ => fun _ => True
  | run belongs => Stops belongs
  | name belongs => Stops belongs

theorem Piece.leaves_of_split {piece : Piece} {source taken rest : List Char}
    (found : piece.split source = some (taken, rest)) : piece.Leaves rest := by
  have stops (belongs : Char → Bool) : Stops belongs (source.dropWhile belongs) := by
    intro c first
    have outside := List.head?_dropWhile_not belongs source
    rw [Option.mem_def.1 first] at outside
    simpa using outside
  cases piece with
  | blanks =>
    simp only [split, Option.some.injEq, Prod.mk.injEq] at found
    exact found.2 ▸ stops Text.isBlank
  | sign text => trivial
  | run belongs =>
    simp only [split, Option.ite_none_left_eq_some, Option.some.injEq, Prod.mk.injEq] at found
    exact found.2.2 ▸ stops belongs
  | name belongs =>
    simp only [split, Option.ite_none_left_eq_some, Option.some.injEq, Prod.mk.injEq] at found
    exact found.2.2 ▸ stops belongs

theorem Pattern.leaves_of_lexemeOf {pieces : List Piece} {source : List Char} {lexeme : Lexeme}
    (found : lexemeOf pieces source = some lexeme) :
    ∀ piece ∈ pieces.getLast?, piece.Leaves lexeme.rest := by
  induction pieces generalizing source lexeme with
  | nil => simp
  | cons piece pieces ih =>
    simp only [lexemeOf, Option.bind_eq_bind, Option.bind_eq_some_iff, Option.pure_def,
      Option.some.injEq, Prod.exists] at found
    rcases found with ⟨taken, rest, cut, tail, deeper, rfl⟩
    have later := ih deeper
    cases pieces with
    | nil =>
      simp only [lexemeOf, Option.some.injEq] at deeper
      subst deeper
      simpa using Piece.leaves_of_split cut
    | cons next pieces =>
      rw [List.getLast?_cons_cons]
      exact later

def Kind.Leaves : Kind → List Char → Prop
  | target | reference => Stops isNameChar
  | identifier => Stops isEntityChar
  | assign | arrow | colon | bang | leftParen => Stops Text.isBlank
  | terminator => Stops isTerminatorChar
  | rightParen | endOfInput => fun _ => True

theorem leaves_of_first? {source : List Char} {kind : Kind} {lexeme : Lexeme}
    (found : Pattern.first? source Pattern.all = some (kind, lexeme)) :
    kind.Leaves lexeme.rest := by
  rcases Pattern.exists_of_first? found with ⟨pattern, inside, rfl, hit⟩
  rw [Pattern.lexeme?, Option.filter_eq_some_iff] at hit
  have leaves := Pattern.leaves_of_lexemeOf hit.1
  simp only [Pattern.all, List.mem_cons, List.not_mem_nil, or_false] at inside
  rcases inside with rfl | rfl | rfl | rfl | rfl | rfl | rfl | rfl | rfl | rfl
  all_goals exact leaves _ rfl

end FactGraph.Token
