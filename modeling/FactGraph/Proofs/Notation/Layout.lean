import FactGraph.Proofs.Notation.Spelling
import FactGraph.Proofs.Notation.Widening

namespace FactGraph.Notation

open Token

variable {early signs others : List Sign} {sign left middle right : Sign}
  {rest rest' first second : List Char}

theorem sameFront_textOf (legible : Legible signs rest) (same : SameFront rest rest') :
    SameFront (textOf signs ++ rest) (textOf signs ++ rest') := by
  cases signs with
  | nil => exact same
  | cons sign signs =>
    rw [textOf_cons, List.append_assoc, List.append_assoc]
    exact .append legible.1.fits.visible _ _

theorem Legible.of_sameFront (legible : Legible signs rest) (same : SameFront rest rest') :
    Legible signs rest' := by
  induction signs with
  | nil => trivial
  | cons sign signs ih =>
    have first := legible.1.fits.of_sameFront (sameFront_textOf legible.2 same)
    exact ⟨first.spelled, ih legible.2⟩

theorem Legible.exchange (legible : Legible (early ++ signs) rest) (later : Legible others rest)
    (same : SameFront (textOf signs ++ rest) (textOf others ++ rest)) :
    Legible (early ++ others) rest :=
  legible_append.2 ⟨(legible_append.1 legible).1.of_sameFront same, later⟩

def endingKinds : List Kind := [.identifier, .target, .reference, .rightParen]

def startingKinds : List Kind := [.identifier, .target, .reference, .leftParen]

theorem Fits.of_ends (fits : Fits sign rest) (ends : sign.kind ∈ endingKinds)
    (stop : Stops isEntityChar rest') :
    Fits sign rest' := by
  have name : Stops isNameChar rest' := stop.mono fun _ => isNameChar_of_not_isEntityChar
  cases fits with
  | target label => exact .target label name
  | reference label => exact .reference label name
  | identifier label => exact .identifier label stop
  | rightParen closing => exact .rightParen closing
  | operator listed =>
    have operators : ∀ entry ∈ operatorSigns, entry.1 ∉ endingKinds := by decide
    exact absurd ends (operators _ listed)
  | _ => simp [endingKinds] at ends

theorem Fits.stops_entity (fits : Fits sign rest)
    (other : sign.kind = .terminator ∨ sign.kind ∈ leadingKinds) (more : List Char) :
    Stops isEntityChar (sign.text ++ more) := by
  cases fits with
  | @operator kind mark listed gap =>
    have signs : ∀ entry ∈ operatorSigns, entry.2.any isEntityChar = false := by decide +kernel
    have outside : ∀ c ∈ mark, isEntityChar c = false := by simpa using signs _ listed
    apply Tree.stops_around
    rcases List.exists_cons_of_ne_nil (visible_of_listed listed).1 with ⟨c, others, rfl⟩
    exact .cons (outside c List.mem_cons_self)
  | rightParen closing =>
    simp only [Sign.rightParen, List.append_assoc, List.singleton_append]
    exact .append (fun c inside => isEntityChar_of_isBlank (closing.blank c inside))
      (.cons (by decide +kernel))
  | pause between =>
    rcases List.exists_cons_of_ne_nil between.nonempty with ⟨c, others, whole⟩
    rw [Sign.pause, whole]
    exact .cons (isEntityChar_of_isTerminatorChar (between.belonging c (by simp [whole])))
  | _ => simp [leadingKinds] at other

theorem Fits.stops_blank (fits : Fits sign rest)
    (takes : sign.kind = .terminator ∨ sign.kind ∈ trailingKinds) :
    Stops Text.isBlank rest := by
  cases fits with
  | operator _ _ stop => exact stop
  | leftParen _ stop => exact stop
  | pause _ stop => exact stop.mono fun c outside => (Bool.or_eq_false_iff.1 outside).1
  | _ => simp [trailingKinds] at takes

theorem Fits.ends_or_takes (fits : Fits sign rest) :
    sign.kind ∈ endingKinds ∨ sign.kind = .terminator ∨ sign.kind ∈ trailingKinds := by
  cases fits with
  | operator listed =>
    have operators : ∀ entry ∈ operatorSigns, entry.1 ∈ trailingKinds := by decide
    exact .inr (.inr (operators _ listed))
  | leftParen => exact .inr (.inr (by decide : Kind.leftParen ∈ trailingKinds))
  | pause => exact .inr (.inl rfl)
  | target => exact .inl (by decide : Kind.target ∈ endingKinds)
  | reference => exact .inl (by decide : Kind.reference ∈ endingKinds)
  | identifier => exact .inl (by decide : Kind.identifier ∈ endingKinds)
  | rightParen => exact .inl (by decide : Kind.rightParen ∈ endingKinds)

theorem Legible.widen_tail (legible : Legible (early ++ [sign]) rest)
    (trails : sign.kind ∈ trailingKinds) (cut : sign.text = first ++ second)
    (white : ∀ c ∈ second, Text.isBlank c = true) (blanks : Blanks) :
    ∃ others, Legible others rest ∧ others.map Sign.outline = (early ++ [sign]).map Sign.outline ∧
      textOf others = textOf early ++ (first ++ (blanks.text ++ second)) := by
  have fits : Fits sign rest := (legible_append.1 legible).2.1.fits
  rcases fits.widen_tail trails cut white blanks with ⟨wider, same⟩
  have row : Legible [sign.rewritten (first ++ (blanks.text ++ second))] rest :=
    ⟨wider.spelled, trivial⟩
  refine ⟨early ++ _, legible.exchange row ?_, by simp, by simp⟩
  simpa using same

/-- The blanks in front of a sign belong to what stands there, if that takes them, and to the sign
otherwise. -/
theorem Legible.widen_lead (legible : Legible (early ++ [sign]) rest)
    (leads : sign.kind ∈ leadingKinds) (cut : sign.text = first ++ second)
    (white : ∀ c ∈ first, Text.isBlank c = true) (blanks : Blanks) :
    ∃ others, Legible others rest ∧ others.map Sign.outline = (early ++ [sign]).map Sign.outline ∧
      textOf others = textOf early ++ (first ++ (blanks.text ++ second)) := by
  have fits : Fits sign rest := (legible_append.1 legible).2.1.fits
  have wider := fits.widen_lead leads cut white blanks
  rcases List.eq_nil_or_concat early with rfl | ⟨before, left, rfl⟩
  · exact ⟨[_], ⟨wider.spelled, trivial⟩, rfl, by simp⟩
  · rw [List.concat_eq_append] at legible ⊢
    rw [List.append_assoc] at legible
    have behind : Fits left (sign.text ++ rest) := by
      simpa using (legible_append.1 legible).2.1.fits
    rcases behind.ends_or_takes with ends | takes
    -- The blanks become part of the sign.
    · have stop := wider.stops_entity (.inr leads) rest
      have row : Legible [left, sign.rewritten (first ++ (blanks.text ++ second))] rest :=
        ⟨by simpa using (behind.of_ends ends stop).spelled, wider.spelled, trivial⟩
      refine ⟨before ++ _, legible.exchange row ?_, by simp, by simp⟩
      simpa using SameFront.append behind.visible _ _
    -- They become part of what is in front of the sign, which has left it none of its own.
    · have none : first = [] := by
        have stop := behind.stops_blank takes
        rw [cut] at stop
        cases first with
        | nil => rfl
        | cons c first =>
          have blank := white c List.mem_cons_self
          rw [stop c rfl] at blank
          contradiction
      have row : Legible [left.rewritten (left.text ++ blanks.text), sign] rest :=
        ⟨by simpa using (behind.absorb takes blanks).spelled, fits.spelled, trivial⟩
      refine ⟨before ++ _, legible.exchange row ?_, by simp, ?_⟩
      · simpa using SameFront.append behind.visible _ _
      · simp [cut, none]

/-- A cut in the text of a token where it takes blanks: only blanks are in front of the cut, or
behind it. -/
def Loose (kind : Kind) (first second : List Char) : Prop :=
  (kind ∈ leadingKinds ∧ ∀ c ∈ first, Text.isBlank c = true) ∨
    (kind ∈ trailingKinds ∧ ∀ c ∈ second, Text.isBlank c = true)

theorem Legible.widen (legible : Legible (early ++ [sign]) rest) (cut : sign.text = first ++ second)
    (loose : Loose sign.kind first second) (blanks : Blanks) :
    ∃ others, Legible others rest ∧ others.map Sign.outline = (early ++ [sign]).map Sign.outline ∧
      textOf others = textOf early ++ (first ++ (blanks.text ++ second)) := by
  rcases loose with ⟨leads, white⟩ | ⟨trails, white⟩
  · exact legible.widen_lead leads cut white blanks
  · exact legible.widen_tail trails cut white blanks

theorem Fits.begins_operand (fits : Fits sign rest) (starts : sign.kind ∈ startingKinds)
    (more : List Char) :
    ∀ c ∈ (sign.text ++ more).head?, beginsOperand c = true := by
  cases fits with
  | target => simp [Sign.target, beginsOperand, beginsName]
  | reference => simp [Sign.reference, beginsOperand, beginsName]
  | identifier name =>
    rcases List.exists_cons_of_ne_nil name.nonempty with ⟨c, others, whole⟩
    have entity : isEntityChar c = true := name.belonging c (by simp [whole])
    simp [Sign.identifier, whole, beginsOperand, beginsName, entity]
  | leftParen => simp [Sign.leftParen, beginsOperand, beginsName]
  | operator listed =>
    have operators : ∀ entry ∈ operatorSigns, entry.1 ∉ startingKinds := by decide
    exact absurd starts (operators _ listed)
  | _ => simp [startingKinds] at starts

theorem Fits.eq_pause (fits : Fits sign rest) (kind : sign.kind = .terminator) (between : Pause) :
    sign.rewritten between.text = .pause between := by
  cases fits with
  | pause => rfl
  | operator listed =>
    have operators : ∀ entry ∈ operatorSigns, entry.1 ≠ .terminator := by decide
    exact absurd kind (operators _ listed)
  | _ => contradiction

/-- Between two operands, one pause is as good as another. -/
theorem Legible.replace_pause (legible : Legible (early ++ [left, middle, right]) rest)
    (ends : left.kind ∈ endingKinds) (kind : middle.kind = .terminator)
    (starts : right.kind ∈ startingKinds) (between : Pause) :
    Legible (early ++ [left, middle.rewritten between.text, right]) rest := by
  rcases (legible_append.1 legible).2 with ⟨first, second, third, _⟩
  have pause : Fits (.pause between) (right.text ++ rest) :=
    (Sign.pause_spelled between (third.fits.begins_operand starts rest)).fits
  have stop := pause.stops_entity (.inl rfl) (right.text ++ rest)
  rw [second.fits.eq_pause kind between]
  have row : Legible [left, .pause between, right] rest :=
    ⟨by simpa using (first.fits.of_ends ends stop).spelled, by simpa using pause.spelled,
      third, trivial⟩
  refine legible.exchange row ?_
  simpa using SameFront.append first.fits.visible _ _

end FactGraph.Notation
