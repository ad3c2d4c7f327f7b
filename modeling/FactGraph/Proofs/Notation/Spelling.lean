import FactGraph.Proofs.Notation.Sign

namespace FactGraph.Notation

open Token

def textOf (signs : List Sign) : List Char := signs.flatMap Sign.text

@[simp] theorem textOf_nil : textOf [] = [] := rfl

@[simp] theorem textOf_cons (sign : Sign) (signs : List Sign) :
    textOf (sign :: signs) = sign.text ++ textOf signs := rfl

@[simp] theorem textOf_append (first second : List Sign) :
    textOf (first ++ second) = textOf first ++ textOf second := List.flatMap_append

@[simp] def tokensOf (mark : Mark) : List Sign → List Token
  | [] => []
  | sign :: signs => sign.token mark :: tokensOf (mark.past sign.text) signs

theorem tokensOf_append (mark : Mark) (first second : List Sign) :
    tokensOf mark (first ++ second) =
      tokensOf mark first ++ tokensOf (mark.past (textOf first)) second := by
  induction first generalizing mark with
  | nil => rfl
  | cons sign first ih => simp [ih, Mark.past_append]

/-- Each sign is read as it is meant in front of those after it and the rest. -/
def Legible : List Sign → List Char → Prop
  | [], _ => True
  | sign :: signs, rest => sign.Spelled (textOf signs ++ rest) ∧ Legible signs rest

theorem legible_append {first second : List Sign} {rest : List Char} :
    Legible (first ++ second) rest ↔
    Legible first (textOf second ++ rest) ∧ Legible second rest := by
  induction first with
  | nil => simp [Legible]
  | cons sign first ih => simp [Legible, ih, and_assoc]

theorem tokens_of_legible {signs : List Sign} {rest : List Char} (legible : Legible signs rest)
    (mark : Mark) :
    Cursor.tokens ⟨textOf signs ++ rest, mark⟩ =
      (tokensOf mark signs).map .ok ++ Cursor.tokens ⟨rest, mark.past (textOf signs)⟩ := by
  induction signs generalizing mark with
  | nil => rfl
  | cons sign signs ih =>
    rw [textOf_cons, List.append_assoc, Sign.tokens_of_spelled legible.1, ih legible.2,
      Mark.past_append]
    rfl

namespace Tree

@[simp] def signs : {level : Level} → Tree level → List Sign
  | _, identifier name => [.identifier name]
  | _, reference name => [.reference name]
  | _, group opening inner closing => .leftParen opening :: (inner.signs ++ [.rightParen closing])
  | _, ofAtom tree => tree.signs
  | _, colon left gap right => left.signs ++ (.operator .colon [':'] gap :: right.signs)
  | _, ofProperty tree => tree.signs
  | _, bang left gap right => left.signs ++ (.operator .bang ['!'] gap :: right.signs)
  | _, ofLabelled tree => tree.signs
  | _, arrow left gap right => left.signs ++ (.operator .arrow ['=', '>'] gap :: right.signs)
  | _, ofDescription tree => tree.signs
  | _, assign name gap right => .target name :: .operator .assign [':', '='] gap :: right.signs
  | _, single tree => tree.signs
  | _, more earlier between last => earlier.signs ++ (.pause between :: last.signs)

theorem textOf_signs {level : Level} (tree : Tree level) : textOf tree.signs = tree.text := by
  induction tree with
  | identifier name => simp [Sign.identifier]
  | reference name => simp [Sign.reference]
  | group opening inner closing ih => simp [ih, Sign.leftParen, Sign.rightParen]
  | colon left gap right ihLeft ihRight => simp [ihLeft, ihRight, Sign.operator]
  | bang left gap right ihLeft ihRight => simp [ihLeft, ihRight, Sign.operator]
  | arrow left gap right ihLeft ihRight => simp [ihLeft, ihRight, Sign.operator]
  | assign name gap right ih => simp [ih, Sign.operator, Sign.target]
  | more earlier between last ihEarlier ihLast =>
    simp [ihEarlier, ihLast, Sign.pause]
  | ofAtom tree ih => exact ih
  | ofProperty tree ih => exact ih
  | ofLabelled tree ih => exact ih
  | ofDescription tree ih => exact ih
  | single tree ih => exact ih

theorem text_head {level : Level} (tree : Tree level) (rest : List Char) :
    ∃ c tail, tree.text ++ rest = c :: tail ∧ beginsOperand c = true := by
  induction tree generalizing rest with
  | identifier name =>
    rcases List.exists_cons_of_ne_nil name.nonempty with ⟨c, tail, whole⟩
    have entity : isEntityChar c = true := name.belonging c (by simp [whole])
    exact ⟨c, tail ++ rest, by simp [whole], by simp [beginsOperand, beginsName, entity]⟩
  | reference name => exact ⟨'*', name.text ++ rest, rfl, by decide⟩
  | group opening inner closing => exact ⟨'(', _, rfl, by decide⟩
  | assign name gap right => exact ⟨'@', _, rfl, by decide⟩
  | colon left gap right ih => simpa using ih (gap.around [':'] ++ right.text ++ rest)
  | bang left gap right ih => simpa using ih (gap.around ['!'] ++ right.text ++ rest)
  | arrow left gap right ih => simpa using ih (gap.around ['=', '>'] ++ right.text ++ rest)
  | more earlier between last ih => simpa using ih (between.text ++ last.text ++ rest)
  | ofAtom tree ih => exact ih rest
  | ofProperty tree ih => exact ih rest
  | ofLabelled tree ih => exact ih rest
  | ofDescription tree ih => exact ih rest
  | single tree ih => exact ih rest

theorem stops_around {kind : Kind} {sign rest : List Char} {gap : Gap}
    (stop : Stops isEntityChar (sign ++ (gap.after.text ++ rest))) :
    Stops isEntityChar ((Sign.operator kind sign gap).text ++ rest) := by
  have whole : (Sign.operator kind sign gap).text ++ rest =
      gap.before.text ++ (sign ++ (gap.after.text ++ rest)) := by
    simp only [Sign.operator, Gap.around, List.append_assoc]
  rw [whole]
  exact .append (fun c inside => isEntityChar_of_isBlank (gap.before.blank c inside)) stop

theorem legible_operator {first second : Level} {left : Tree first}
    {right : Tree second} {kind : Kind} {sign rest : List Char} {gap : Gap}
    (before : ∀ {rest : List Char}, Stops isEntityChar rest → Legible left.signs rest)
    (behind : Legible right.signs rest)
    (ends : Stops isEntityChar (sign ++ (gap.after.text ++ (right.text ++ rest))))
    (spelled : ∀ {c : Char} {tail : List Char}, beginsOperand c = true →
      (Sign.operator kind sign gap).Spelled (c :: tail)) :
    Legible (left.signs ++ .operator kind sign gap :: right.signs) rest := by
  rcases right.text_head rest with ⟨c, tail, whole, operand⟩
  refine legible_append.2 ⟨before ?_, ?_, behind⟩
  · rw [textOf_cons, textOf_signs, List.append_assoc]
    exact stops_around ends
  · rw [textOf_signs, whole]
    exact spelled operand

/-- In front of anything that does not go on with a name, a tree is read as it is meant. -/
theorem legible {level : Level} (tree : Tree level) {rest : List Char}
    (stop : Stops isEntityChar rest) : Legible tree.signs rest := by
  induction tree generalizing rest with
  | identifier name => exact ⟨Sign.identifier_spelled name stop, trivial⟩
  | reference name =>
    exact ⟨Sign.reference_spelled name (stop.mono fun _ => isNameChar_of_not_isEntityChar), trivial⟩
  | group opening inner closing ih =>
    rcases inner.text_head (closing.text ++ [')'] ++ rest) with ⟨c, tail, whole, operand⟩
    have closed : Stops isEntityChar ((Sign.rightParen closing).text ++ rest) := by
      simp only [Sign.rightParen, List.append_assoc, List.singleton_append]
      exact .append (fun c inside => isEntityChar_of_isBlank (closing.blank c inside))
        (.cons (by decide))
    refine ⟨?_, legible_append.2 ⟨ih (by simpa using closed),
      Sign.rightParen_spelled closing, trivial⟩⟩
    have after : textOf (inner.signs ++ [.rightParen closing]) ++ rest = c :: tail := by
      simpa [textOf_signs, Sign.rightParen] using whole
    rw [after]
    exact Sign.leftParen_spelled opening (Sign.stops_blank operand)
  | colon left gap right ihLeft ihRight =>
    exact legible_operator ihLeft (ihRight stop) (.cons (by decide)) fun operand =>
      Sign.colon_spelled gap (Sign.stops_blank operand) fun _ => Sign.not_equals_of_operand operand
  | bang left gap right ihLeft ihRight =>
    exact legible_operator ihLeft (ihRight stop) (.cons (by decide)) fun operand =>
      Sign.bang_spelled gap (Sign.stops_blank operand)
  | arrow left gap right ihLeft ihRight =>
    exact legible_operator ihLeft (ihRight stop) (.cons (by decide)) fun operand =>
      Sign.arrow_spelled gap (Sign.stops_blank operand)
  | assign name gap right ih =>
    rcases right.text_head rest with ⟨c, tail, whole, operand⟩
    have signed : Stops isEntityChar
        ((Sign.operator .assign [':', '='] gap).text ++ (textOf right.signs ++ rest)) :=
      stops_around (.cons (by decide))
    refine ⟨Sign.target_spelled name ?_, ?_, ih stop⟩
    · rw [textOf_cons, List.append_assoc]
      exact signed.mono fun _ => isNameChar_of_not_isEntityChar
    · rw [textOf_signs, whole]
      exact Sign.assign_spelled gap (Sign.stops_blank operand)
  | more earlier between last ihEarlier ihLast =>
    rcases last.text_head rest with ⟨c, tail, whole, operand⟩
    refine legible_append.2 ⟨ihEarlier ?_, ?_, ihLast stop⟩
    · rcases List.exists_cons_of_ne_nil between.nonempty with ⟨d, others, shape⟩
      rw [textOf_cons, List.append_assoc, Sign.pause, shape]
      exact .cons (isEntityChar_of_isTerminatorChar (between.belonging d (by simp [shape])))
    · rw [textOf_signs, whole]
      exact Sign.pause_spelled between (by simpa using operand)
  | ofAtom tree ih => exact ih stop
  | ofProperty tree ih => exact ih stop
  | ofLabelled tree ih => exact ih stop
  | ofDescription tree ih => exact ih stop
  | single tree ih => exact ih stop

end Tree

end FactGraph.Notation
