import FactGraph.Proofs.Notation.Spelling

namespace FactGraph.Notation.Sign

open Token

variable (mark : Mark)

theorem span_of_no_blanks {sign : Sign} (kind : sign.kind ≠ .terminator)
    (start : Stops Text.isBlank sign.text) (stop : Stops Text.isBlank sign.text.reverse) :
    (sign.token mark).span = mark.span (Text.width sign.text) := by
  have core : Text.trimEnd sign.text = sign.text := by
    have none : Text.trimEnd (sign.text ++ []) = sign.text :=
      trimEnd_append (List.forall_mem_nil _) stop
    rwa [List.append_nil] at none
  simp only [token, lexeme, Cursor.tokenAt, Cursor.lead, Cursor.core, if_neg kind,
    Text.leadingBlanks, Text.trimStart, start.takeWhile_eq, start.dropWhile_eq, core]
  rfl

theorem stops_blank_of_entity {text : List Char} (all : ∀ c ∈ text, isEntityChar c = true) :
    Stops Text.isBlank text := by
  intro c first
  exact isBlank_of_isEntityChar (all c (List.mem_of_mem_head? first))

theorem identifier_span (name : EntityName) :
    ((identifier name).token mark).span = mark.span (Text.width name.text) :=
  span_of_no_blanks mark (show Kind.identifier ≠ .terminator by decide)
    (stops_blank_of_entity name.belonging) (stops_blank_of_entity fun c inside =>
      name.belonging c (List.mem_reverse.1 inside))

theorem span_of_variable {kind : Kind} {c : Char} (name : VariableName) (other : kind ≠ .terminator)
    (visible : Text.isBlank c = false) :
    ((⟨kind, c :: name.text, some name.text⟩ : Sign).token mark).span =
      mark.span (Text.width (c :: name.text)) := by
  apply span_of_no_blanks mark other (.cons visible)
  intro d first
  have inside : d ∈ c :: name.text := List.mem_reverse.1 (List.mem_of_mem_head? first)
  rcases List.mem_cons.1 inside with rfl | inside
  · exact visible
  · exact isBlank_of_isEntityChar (isEntityChar_of_isNameChar (name.belonging d inside))

theorem reference_span (name : VariableName) :
    ((reference name).token mark).span = mark.span (Text.width ('*' :: name.text)) :=
  span_of_variable mark name (by decide) (by decide)

theorem target_span (name : VariableName) :
    ((target name).token mark).span = mark.span (Text.width ('@' :: name.text)) :=
  span_of_variable mark name (by decide) (by decide)

theorem operator_span {kind : Kind} {sign : List Char} (gap : Gap) (other : kind ≠ .terminator)
    (start : Stops Text.isBlank (sign ++ gap.after.text))
    (stop : Stops Text.isBlank sign.reverse) :
    ((operator kind sign gap).token mark).span = gap.place sign mark := by
  simp only [token, lexeme, operator, Cursor.tokenAt, Cursor.lead, Cursor.core, if_neg other,
    Gap.around, Text.leadingBlanks, Text.trimStart,
    Stops.takeWhile_append gap.before.blank start, Stops.dropWhile_append gap.before.blank start,
    trimEnd_append gap.after.blank stop]
  rfl

end FactGraph.Notation.Sign
