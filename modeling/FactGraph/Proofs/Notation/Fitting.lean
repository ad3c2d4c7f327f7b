import FactGraph.Proofs.Notation.Sign
import FactGraph.Proofs.Token.Readable

namespace FactGraph.Notation

open Token Pattern

/-- The forms in which signs are written, and what of the text behind them would have them read
otherwise. -/
inductive Fits : Sign → List Char → Prop
  | target (name : VariableName) {rest : List Char} (stop : Stops isNameChar rest) :
      Fits (.target name) rest
  | reference (name : VariableName) {rest : List Char} (stop : Stops isNameChar rest) :
      Fits (.reference name) rest
  | identifier (name : EntityName) {rest : List Char} (stop : Stops isEntityChar rest) :
      Fits (.identifier name) rest
  | operator {kind : Kind} {sign : List Char} (listed : (kind, sign) ∈ operatorSigns) (gap : Gap)
      {rest : List Char} (stop : Stops Text.isBlank rest)
      (apart : kind = .colon → gap.after.text = [] → ¬ ['='] <+: rest) :
      Fits (.operator kind sign gap) rest
  | leftParen (opening : Blanks) {rest : List Char} (stop : Stops Text.isBlank rest) :
      Fits (.leftParen opening) rest
  | rightParen (closing : Blanks) {rest : List Char} : Fits (.rightParen closing) rest
  | pause (between : Pause) {rest : List Char} (stop : Stops isTerminatorChar rest)
      (free : (∀ c ∈ between.text, Text.isBlank c = true) →
        ∀ sign ∈ Sign.takesBlanks, ¬ sign <+: rest) :
      Fits (.pause between) rest

variable {sign other : Sign} {rest : List Char}

theorem Fits.spelled (fits : Fits sign rest) : sign.Spelled rest := by
  cases fits with
  | target name stop => exact Sign.target_spelled name stop
  | reference name stop => exact Sign.reference_spelled name stop
  | identifier name stop => exact Sign.identifier_spelled name stop
  | operator listed gap stop apart =>
    simp only [operatorSigns, List.mem_cons, Prod.mk.injEq, List.not_mem_nil, or_false] at listed
    rcases listed with ⟨rfl, rfl⟩ | ⟨rfl, rfl⟩ | ⟨rfl, rfl⟩ | ⟨rfl, rfl⟩
    · exact Sign.assign_spelled gap stop
    · exact Sign.arrow_spelled gap stop
    · exact Sign.colon_spelled gap stop (apart rfl)
    · exact Sign.bang_spelled gap stop
  | leftParen opening stop => exact Sign.leftParen_spelled opening stop
  | rightParen closing => exact Sign.rightParen_spelled closing
  | pause between stop free => exact Sign.pause_spelled_of_stops between stop free

theorem Sign.Spelled.unique (first : sign.Spelled rest) (second : other.Spelled rest)
    (same : sign.text = other.text) : sign = other := by
  unfold Spelled at first second
  rw [same, second] at first
  simp only [Option.some.injEq, Prod.mk.injEq, lexeme, Lexeme.mk.injEq] at first
  rcases sign with ⟨kind, text, value⟩
  rcases other with ⟨kind', text', value'⟩
  simp_all

theorem not_prefix_of_terminator {blanks : List Char} {lexeme : Lexeme}
    (white : ∀ c ∈ blanks, Text.isBlank c = true)
    (found : first? (blanks ++ rest) all = some (.terminator, lexeme)) :
    ∀ sign ∈ Sign.takesBlanks, ¬ sign <+: rest := by
  have none : ∀ pattern ∈ all.take 9, pattern.kind ≠ .terminator := by decide
  intro sign listed starts
  rcases starts with ⟨more, rfl⟩
  have earlier (pattern : Pattern) (inside : pattern ∈ all.take 9)
      (hit : (pattern.lexeme? (blanks ++ (sign ++ more))).isSome = true) :
      (first? (blanks ++ (sign ++ more)) (all.take 9)).isSome = true := isSome_first? inside hit
  have early : (first? (blanks ++ (sign ++ more)) (all.take 9)).isSome = true := by
    simp only [Sign.takesBlanks, List.mem_cons, List.not_mem_nil, or_false] at listed
    rcases listed with rfl | rfl | rfl | rfl
    · exact earlier ⟨.arrow, [.blanks, .sign ['=', '>'], .blanks]⟩ (by simp [all])
        (isSome_lexeme?_operator white (by decide))
    · exact earlier ⟨.colon, [.blanks, .sign [':'], .blanks]⟩ (by simp [all])
        (isSome_lexeme?_operator white (by decide))
    · exact earlier ⟨.bang, [.blanks, .sign ['!'], .blanks]⟩ (by simp [all])
        (isSome_lexeme?_operator white (by decide))
    · apply earlier ⟨.rightParen, [.blanks, .sign [')']]⟩ (by simp [all])
      rw [List.singleton_append, lexeme?_closing white (by decide)]
      rfl
  rcases exists_of_isSome_first? early found with ⟨pattern, inside, kind⟩
  exact none pattern inside kind

theorem Sign.Spelled.fits (spelled : sign.Spelled rest) : Fits sign rest := by
  have found : first? (sign.text ++ rest) all = some (sign.kind, sign.lexeme rest) := spelled
  suffices form : ∃ other, sign.text = other.text ∧ Fits other rest by
    rcases form with ⟨other, same, fits⟩
    exact spelled.unique fits.spelled same ▸ fits
  have shape : Shape sign.kind sign.text := shape_of_first? found
  have leaves : sign.kind.Leaves rest := leaves_of_first? found
  generalize kind : sign.kind = its at shape leaves found
  generalize whole : sign.text = text at shape found
  cases shape with
  | @signed _ _ name listed nonempty belonging =>
    simp only [variableSigns, List.mem_cons, Prod.mk.injEq, List.not_mem_nil, or_false] at listed
    rcases listed with ⟨rfl, rfl⟩ | ⟨rfl, rfl⟩
    · exact ⟨_, rfl, .target ⟨name, nonempty, belonging⟩ leaves⟩
    · exact ⟨_, rfl, .reference ⟨name, nonempty, belonging⟩ leaves⟩
  | identifier nonempty belonging => exact ⟨_, rfl, .identifier ⟨text, nonempty, belonging⟩ leaves⟩
  | @operator _ mark before after listed leading trailing =>
    have stop : Stops Text.isBlank rest := by
      simp only [operatorSigns, List.mem_cons, Prod.mk.injEq, List.not_mem_nil, or_false] at listed
      rcases listed with ⟨rfl, rfl⟩ | ⟨rfl, rfl⟩ | ⟨rfl, rfl⟩ | ⟨rfl, rfl⟩ <;> exact leaves
    refine ⟨_, List.append_assoc _ _ _,
      .operator listed ⟨⟨before, leading⟩, ⟨after, trailing⟩⟩ stop ?_⟩
    rintro rfl none starts
    obtain rfl : after = [] := none
    obtain rfl : mark = [':'] := by simpa [operatorSigns] using listed
    rcases starts with ⟨more, rfl⟩
    rw [List.append_nil, List.append_assoc, List.singleton_append] at found
    exact head?_ne_of_colon leading found rfl
  | leftParen trailing => exact ⟨_, rfl, .leftParen ⟨_, trailing⟩ leaves⟩
  | rightParen leading => exact ⟨_, rfl, .rightParen ⟨_, leading⟩⟩
  | terminator nonempty belonging =>
    refine ⟨_, rfl, .pause ⟨text, nonempty, belonging⟩ leaves ?_⟩
    intro white
    exact not_prefix_of_terminator white found

end FactGraph.Notation
