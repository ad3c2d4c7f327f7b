import FactGraph.Proofs.Notation.Grouped
import FactGraph.Proofs.Precedence.Contract

namespace FactGraph.Notation

open Token

/-- Some uses of the variable are replaced, each where an operand begins: at the beginning, if one
is `asked` for there, or right behind an operator, an opening parenthesis or a terminator. -/
inductive Expanded (name : VariableName) (text : List Char) :
    (asked : Bool) → (source edited : List Char) → Prop
  | same {asked : Bool} {source : List Char} : Expanded name text asked source source
  | keep {asked : Bool} {sign : Sign} {rest edited : List Char} (spelled : sign.Spelled rest)
      (behind : Expanded name text sign.kind.asks rest edited) :
      Expanded name text asked (sign.text ++ rest) (sign.text ++ edited)
  | replace {rest edited : List Char} (spelled : (Sign.reference name).Spelled rest)
      (behind : Expanded name text false rest edited) :
      Expanded name text true ((Sign.reference name).text ++ rest) (enclosed text ++ edited)

variable {name : VariableName} {text source edited rest : List Char} {asked : Bool} {sign : Sign}

theorem Fits.of_asks (fits : Fits sign ('*' :: rest)) (asks : sign.kind.asks = true)
    (more : List Char) :
    Fits sign ('(' :: more) := by
  cases fits with
  | target | reference | identifier | rightParen => cases asks
  | operator listed gap => exact .operator listed gap (.cons (by decide)) fun _ _ => by simp
  | leftParen opening => exact .leftParen opening (.cons (by decide))
  | pause between => exact .pause between (.cons (by decide)) fun _ => by simp [Sign.takesBlanks]

namespace Expanded

theorem fits (expanded : Expanded name text sign.kind.asks source edited)
    (fits : Fits sign source) : Fits sign edited := by
  generalize asks : sign.kind.asks = asked at expanded
  cases expanded with
  | same => exact fits
  | keep spelled => exact fits.of_sameFront (.append spelled.fits.visible _ _)
  | replace => exact fits.of_asks asks _

end Expanded

theorem reference_starts : (Sign.reference name).kind ∈ startingKinds :=
  (by decide : Kind.reference ∈ startingKinds)

def lineBreak : Pause := ⟨['\n'], List.cons_ne_nil _ _, List.forall_mem_singleton.2 (by decide)⟩

def blankLine : Blanks := ⟨['\n'], List.forall_mem_singleton.2 (by decide)⟩

def singleSpace : Blanks := ⟨[' '], List.forall_mem_singleton.2 (by decide)⟩

theorem lineBreak_spelled (operand : ∀ c ∈ rest.head?, beginsOperand c = true) :
    (Sign.pause lineBreak).Spelled rest := Sign.pause_spelled lineBreak operand

theorem Fits.starts_or_takes (fits : Fits sign rest) :
    sign.kind ∈ startingKinds ∨ Fits (sign.rewritten ('\n' :: sign.text)) rest := by
  by_cases leads : sign.kind ∈ leadingKinds
  · have wider := fits.widen_lead leads (List.nil_append _).symm (List.forall_mem_nil _) blankLine
    exact .inr wider
  · cases fits with
    | target => exact .inl (by decide : Kind.target ∈ startingKinds)
    | reference => exact .inl (by decide : Kind.reference ∈ startingKinds)
    | identifier => exact .inl (by decide : Kind.identifier ∈ startingKinds)
    | leftParen => exact .inl (by decide : Kind.leftParen ∈ startingKinds)
    | operator listed =>
      have operators : ∀ entry ∈ operatorSigns, entry.1 ∈ leadingKinds := by decide
      exact absurd (operators _ listed) leads
    | rightParen => exact absurd (by decide : Kind.rightParen ∈ leadingKinds) leads
    | pause between stop free =>
      have belonging : ∀ c ∈ '\n' :: between.text, isTerminatorChar c = true :=
        List.forall_mem_cons.2 ⟨by decide, between.belonging⟩
      refine .inr (.pause ⟨'\n' :: between.text, List.cons_ne_nil _ _, belonging⟩ stop ?_)
      exact fun white => free fun c inside => white c (List.mem_cons_of_mem _ inside)

theorem Fits.on_new_line (fits : Fits sign rest) (whole : sign.text ++ rest = '\n' :: source) :
    sign.kind = .terminator ∨ sign.kind ∈ leadingKinds ∧
      ∃ other : Sign, other.kind = sign.kind ∧
      source = other.text ++ rest ∧ other.Spelled rest := by
  cases fits with
  | target | reference | leftParen => cases (List.cons.inj whole).1
  | identifier label =>
    rcases List.exists_cons_of_ne_nil label.nonempty with ⟨c, others, shape⟩
    have entity : isEntityChar c = true := label.belonging c (by simp [shape])
    simp only [Sign.identifier, shape, List.cons_append, List.cons.injEq] at whole
    have visible : isEntityChar '\n' = false := by decide +kernel
    rw [whole.1, visible] at entity
    contradiction
  | @operator kind mark listed gap _ stop apart =>
    have operators : ∀ entry ∈ operatorSigns, entry.1 ∈ leadingKinds := by decide
    refine .inr ⟨operators _ listed, ?_⟩
    have visible := visible_of_listed listed
    rcases gap with ⟨⟨_ | ⟨c, before⟩, white⟩, after⟩
    · rcases List.exists_cons_of_ne_nil visible.1 with ⟨c, others, rfl⟩
      have blank := visible.2.1 c List.mem_cons_self
      simp only [Sign.operator, Gap.around, List.nil_append, List.cons_append,
        List.cons.injEq] at whole
      have taken : Text.isBlank '\n' = true := by decide +kernel
      rw [whole.1, taken] at blank
      cases blank
    · -- The line break is the first of the blanks, and the sign is read without it.
      simp only [Sign.operator, Gap.around, List.cons_append, List.cons.injEq] at whole
      let narrower : Gap :=
        ⟨⟨before, fun c inside => white c (List.mem_cons_of_mem _ inside)⟩, after⟩
      have fits : Fits (.operator kind mark narrower) rest := .operator listed narrower stop apart
      refine ⟨.operator kind mark narrower, rfl, ?_, fits.spelled⟩
      simpa [Sign.operator, Gap.around, narrower] using whole.2.symm
  | rightParen closing =>
    refine .inr ⟨(by decide : Kind.rightParen ∈ leadingKinds), ?_⟩
    rcases closing with ⟨_ | ⟨c, before⟩, white⟩
    · cases (List.cons.inj whole).1
    · let narrower : Blanks := ⟨before, fun c inside => white c (List.mem_cons_of_mem _ inside)⟩
      exact ⟨.rightParen narrower, rfl, (List.cons.inj whole).2.symm,
        Sign.rightParen_spelled narrower⟩
  | pause => exact .inl rfl

namespace Expanded

theorem on_new_line (expanded : Expanded name text true source edited) :
    Expanded name text asked ('\n' :: source) ('\n' :: edited) := by
  cases expanded with
  | same => exact .same
  | @keep _ sign rest edited spelled behind =>
    rcases spelled.fits.starts_or_takes with starts | takes
    · exact .keep (lineBreak_spelled (spelled.fits.begins_operand starts rest))
        (.keep spelled behind)
    · exact .keep takes.spelled behind
  | replace spelled behind =>
    exact .keep (lineBreak_spelled (spelled.fits.begins_operand reference_starts _))
      (.replace spelled behind)

end Expanded

end FactGraph.Notation
