import FactGraph.Proofs.Notation.Layout

/-! A row of signs in a group. The signs are read as they are without it, but for blanks at the ends
of the row: these belong to the parentheses, and are no terminators there. -/

namespace FactGraph.Notation

open Token

variable {signs early : List Sign} {sign last : Sign} {rest more : List Char}

theorem Fits.closes (fits : Fits sign []) :
    (sign.kind = .terminator ∧ ∀ c ∈ sign.text, Text.isBlank c = true) ∨
    ∀ more, Fits sign (')' :: more) := by
  have name : isNameChar ')' = false := by decide +kernel
  have entity : isEntityChar ')' = false := by decide +kernel
  cases fits with
  | target label => exact .inr fun more => .target label (.cons name)
  | reference label => exact .inr fun more => .reference label (.cons name)
  | identifier label => exact .inr fun more => .identifier label (.cons entity)
  | operator listed gap =>
    exact .inr fun more => .operator listed gap (.cons (by decide)) fun _ _ starts => by
      simp at starts
  | leftParen opening => exact .inr fun more => .leftParen opening (.cons (by decide))
  | rightParen closing => exact .inr fun more => .rightParen closing
  | pause between =>
    by_cases white : ∀ c ∈ between.text, Text.isBlank c = true
    · exact .inl ⟨rfl, white⟩
    · exact .inr fun more => .pause between (.cons (by decide)) fun blank => absurd blank white

theorem Fits.ends_of_blank (fits : Fits sign rest) {c : Char} (first : rest.head? = some c)
    (blank : Text.isBlank c = true) : sign.kind ∈ endingKinds := by
  rcases fits.ends_or_takes with ends | takes
  · exact ends
  · exact absurd ((fits.stops_blank takes c first).symm.trans blank) Bool.false_ne_true

def Pausing (signs : List Sign) : Prop := ∀ sign ∈ signs, signs = [sign] ∧ sign.kind = .terminator

theorem exists_closing (legible : Legible signs []) :
    ∃ core rear closing, signs = core ++ rear ∧ Pausing rear ∧
      (rear ≠ [] → ∀ last ∈ core.getLast?, last.kind ∈ endingKinds) ∧ closing.kind = .rightParen ∧
      textOf (core ++ [closing]) = textOf signs ++ [')'] ∧
      ∀ more, Legible (core ++ [closing]) more := by
  have closing (blanks : Blanks) (more : List Char) : Legible [.rightParen blanks] more :=
    ⟨Sign.rightParen_spelled blanks, trivial⟩
  rcases List.eq_nil_or_concat signs with rfl | ⟨early, last, rfl⟩
  · exact ⟨[], [], .rightParen .none, rfl, List.forall_mem_nil _, by simp, rfl, rfl, closing _⟩
  · rw [List.concat_eq_append] at legible ⊢
    rcases legible_append.1 legible with ⟨front, spelled, _⟩
    have fits : Fits last [] := spelled.fits
    rw [List.append_nil] at front
    have before (more : List Char) : Legible early (textOf [last] ++ more) :=
      front.of_sameFront (by simpa using SameFront.append fits.visible [] more)
    rcases fits.closes with ⟨kind, white⟩ | closes
    · refine ⟨early, [last], .rightParen ⟨last.text, white⟩, rfl, by simpa [Pausing] using kind,
        ?_, rfl, ?_, ?_⟩
      · intro _ left inside
        rcases List.getLast?_eq_some_iff.1 inside with ⟨others, rfl⟩
        have behind : Fits left (textOf [last]) := (legible_append.1 front).2.1.fits
        rcases List.exists_cons_of_ne_nil (show last.text ≠ [] by
          rcases fits.visible with ⟨c, inside, _⟩
          exact List.ne_nil_of_mem inside) with ⟨c, text, whole⟩
        exact behind.ends_of_blank (by simp [whole]) (white c (by simp [whole]))
      · simp [Sign.rightParen]
      · intro more
        refine legible_append.2 ⟨?_, closing _ more⟩
        simpa [Sign.rightParen] using before (')' :: more)
    · refine ⟨early ++ [last], [], .rightParen .none, by simp,
        List.forall_mem_nil _, by simp, rfl, ?_, ?_⟩
      · simp [Sign.rightParen, Blanks.none]
      · intro more
        refine legible_append.2 ⟨legible_append.2 ⟨?_, ?_, trivial⟩, closing _ more⟩
        · simpa [Sign.rightParen, Blanks.none] using before (')' :: more)
        · simpa [Sign.rightParen, Blanks.none] using (closes more).spelled

theorem Fits.exists_pause (fits : Fits sign rest) (kind : sign.kind = .terminator) :
    ∃ between, sign = .pause between ∧ Stops isTerminatorChar rest := by
  cases fits with
  | pause between stop => exact ⟨between, rfl, stop⟩
  | operator listed =>
    have operators : ∀ entry ∈ operatorSigns, entry.1 ≠ .terminator := by decide
    exact absurd kind (operators _ listed)
  | _ => contradiction

theorem exists_trimmed (between : Pause) (stop : Stops isTerminatorChar rest) :
    ∃ blanks : Blanks, ∃ inner,
      (inner = [] ∨ inner.map Sign.outline = [(Sign.pause between).outline]) ∧
      blanks.text ++ textOf inner = between.text ∧
      Stops Text.isBlank (textOf inner ++ rest) ∧ Legible inner rest := by
  have starts := Sign.stops_blank_of_pause between stop
  have whole := Text.leadingBlanks_append_trimStart between.text
  refine ⟨⟨Text.leadingBlanks between.text, List.all_eq_true.1 List.all_takeWhile⟩, ?_⟩
  cases core : Text.trimStart between.text with
  | nil =>
    rw [core] at starts whole
    exact ⟨[], .inl rfl, whole, starts, trivial⟩
  | cons c more =>
    have belonging : ∀ other ∈ c :: more, isTerminatorChar other = true := by
      rw [← core]
      exact fun other inside => between.belonging other (List.dropWhile_subset Text.isBlank inside)
    rw [core] at starts whole
    have visible : Text.isBlank c = false := starts c rfl
    let trimmed : Pause := ⟨c :: more, List.cons_ne_nil _ _, belonging⟩
    have fits : Fits (.pause trimmed) rest :=
      .pause _ stop fun white => absurd ((white c List.mem_cons_self).symm.trans visible) nofun
    refine ⟨[.pause trimmed], .inr rfl, ?_, ?_, fits.spelled, trivial⟩
    · simpa [Sign.pause, trimmed] using whole
    · simpa [Sign.pause, trimmed] using starts

theorem exists_opening {first : Sign}
    (starts : first.kind ∈ startingKinds ∨ first.kind = .terminator) (fits : Fits first rest) :
    ∃ opening inner, opening.kind = .leftParen ∧
      (inner.map Sign.outline = [first.outline] ∨ first.kind = .terminator ∧ inner = []) ∧
      textOf (opening :: inner) = '(' :: first.text ∧ Legible (opening :: inner) rest := by
  rcases starts with starts | kind
  · have stop : Stops Text.isBlank (first.text ++ rest) := fun c head =>
      isBlank_of_beginsOperand (fits.begins_operand starts rest c head)
    refine ⟨.leftParen .none, [first], rfl, .inl rfl, by simp [Sign.leftParen, Blanks.none], ?_,
      fits.spelled, trivial⟩
    exact Sign.leftParen_spelled .none (by simpa using stop)
  · rcases fits.exists_pause kind with ⟨between, rfl, stop⟩
    rcases exists_trimmed between stop with ⟨blanks, inner, same, whole, starts, legible⟩
    refine ⟨.leftParen blanks, inner, rfl, ?_, ?_, Sign.leftParen_spelled blanks starts, legible⟩
    · exact same.symm.imp id fun none => ⟨kind, none⟩
    · simpa [Sign.leftParen, Sign.pause] using whole

def enclosed (text : List Char) : List Char := '(' :: (text ++ [')'])

/-- A row as it is read in a group: without blanks at its ends that would be terminators outside. -/
structure Grouped (signs : List Sign) where
  lead : List Sign
  core : List Sign
  rear : List Sign
  split : signs = lead ++ (core ++ rear)
  begins : Pausing lead
  ends : Pausing rear
  behind : rear ≠ [] → ∃ last ∈ core.getLast?, last.kind ∈ endingKinds
  opening : Sign
  inner : List Sign
  closing : Sign
  opens : opening.kind = .leftParen
  closes : closing.kind = .rightParen
  outlines : inner.map Sign.outline = core.map Sign.outline
  text : textOf (opening :: (inner ++ [closing])) = enclosed (textOf signs)
  legible (more : List Char) : Legible (opening :: (inner ++ [closing])) more

def Grouped.row (grouped : Grouped signs) : List Sign :=
  grouped.opening :: (grouped.inner ++ [grouped.closing])

theorem sameFront_of_legible (nonempty : signs ≠ []) (legible : Legible signs rest)
    (more : List Char) :
    SameFront (textOf signs ++ rest) (textOf signs ++ more) := by
  rcases List.exists_cons_of_ne_nil nonempty with ⟨first, others, rfl⟩
  rcases legible.1.fits.visible with ⟨c, inside, other⟩
  exact .append ⟨c, by simp [inside], other⟩ rest more

/-- Whatever a text is made of, if it is more than a pause, it is read in a group, too. -/
theorem exists_grouped (legible : Legible signs []) (solid : ¬ Pausing signs)
    (starts : ∀ first ∈ signs.head?, first.kind ∈ startingKinds ∨ first.kind = .terminator) :
    Nonempty (Grouped signs) := by
  rcases exists_closing legible with ⟨core, rear, closing, rfl, pausing, ends, closes, text, behind⟩
  rcases core with _ | ⟨first, core⟩
  · exact absurd pausing solid
  · have fits : Fits first (textOf (core ++ [closing])) := by simpa using (behind []).1.fits
    rcases exists_opening (starts first rfl) fits with ⟨opening, inner, opens, same, front, ahead⟩
    have whole : textOf (opening :: (inner ++ core ++ [closing])) =
        enclosed (textOf (first :: core ++ rear)) := by
      rw [enclosed, ← text]
      simpa using congrArg (· ++ textOf (core ++ [closing])) front
    have legible (more : List Char) : Legible (opening :: (inner ++ core ++ [closing])) more := by
      have later : Legible (core ++ [closing]) more := (behind more).2
      have same := sameFront_of_legible (by simp) (behind []).2 more
      have row := legible_append.2 ⟨ahead.of_sameFront (by simpa using same), later⟩
      simpa using row
    have last (full : rear ≠ []) : ∃ last ∈ (first :: core).getLast?, last.kind ∈ endingKinds :=
      ⟨_, List.getLast?_eq_some_getLast (List.cons_ne_nil _ _),
        ends full _ (List.getLast?_eq_some_getLast _)⟩
    rcases same with same | ⟨kind, rfl⟩
    · exact ⟨⟨[], first :: core, rear, rfl, List.forall_mem_nil _, pausing, last, opening,
        inner ++ core, closing, opens, closes, by simp [same], whole, legible⟩⟩
    · have begins : Pausing [first] := by simp [Pausing, kind]
      have behind_lead (full : rear ≠ []) : ∃ last ∈ core.getLast?, last.kind ∈ endingKinds := by
        rcases last full with ⟨final, inside, ending⟩
        rcases List.eq_nil_or_concat core with rfl | ⟨early, other, rfl⟩
        · obtain rfl : first = final := by simpa using inside
          rw [kind] at ending
          contradiction
        · rw [List.concat_eq_append, ← List.cons_append, List.getLast?_concat] at inside
          exact ⟨final, by simpa using inside, ending⟩
      exact ⟨⟨[first], core, rear, rfl, begins, pausing, behind_lead, opening, core, closing, opens,
        closes, rfl, whole, legible⟩⟩

end FactGraph.Notation
