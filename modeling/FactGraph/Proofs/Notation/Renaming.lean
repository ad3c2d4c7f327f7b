import FactGraph.Graph.Naming
import FactGraph.Proofs.Corresponding
import FactGraph.Proofs.Layout

namespace FactGraph

open Token

namespace Notation

namespace Run

variable {belongs : Char → Bool}

theorem eq_of_text {run other : Run belongs} (same : run.text = other.text) : run = other := by
  rcases run with ⟨text, nonempty, belonging⟩
  rcases other with ⟨text', nonempty', belonging'⟩
  simp_all

def replace (change : Run belongs → Run belongs) (text : List Char) : List Char :=
  if run : text ≠ [] ∧ text.all belongs = true then
    (change ⟨text, run.1, List.all_eq_true.1 run.2⟩).text else text

variable {change : Run belongs → Run belongs}

theorem replace_text (run : Run belongs) : replace change run.text = (change run).text :=
  dif_pos ⟨run.nonempty, List.all_eq_true.2 run.belonging⟩

theorem replace_cases (change : Run belongs → Run belongs) (text : List Char) :
    (∃ run : Run belongs, run.text = text ∧ replace change text = (change run).text) ∨
      (∀ run : Run belongs, run.text ≠ text) ∧ replace change text = text := by
  by_cases run : text ≠ [] ∧ text.all belongs = true
  · exact .inl ⟨⟨text, run.1, List.all_eq_true.1 run.2⟩, rfl, dif_pos run⟩
  · refine .inr ⟨?_, dif_neg run⟩
    rintro other rfl
    exact run ⟨other.nonempty, List.all_eq_true.2 other.belonging⟩

theorem replace_injective (injective : Function.Injective change) :
    Function.Injective (replace change) := by
  intro first second same
  rcases replace_cases change first with ⟨run, rfl, replaced⟩ | ⟨other, kept⟩ <;>
    rcases replace_cases change second with ⟨run', rfl, replaced'⟩ | ⟨other', kept'⟩
  · rw [replaced, replaced'] at same
    rw [injective (eq_of_text same)]
  · rw [replaced, kept'] at same
    exact absurd same (other' _)
  · rw [kept, replaced'] at same
    exact absurd same.symm (other _)
  · rwa [kept, kept'] at same

end Run

theorem hasMarker_eq_false_iff (name : EntityName) :
    hasMarker name.text = false ↔ ∀ c ∈ name.text, isNameChar c = true := by
  constructor
  · intro plain c inside
    have entity : isEntityChar c = true := name.belonging c inside
    have other : c ≠ anonymousMarker := by
      rintro rfl
      simp [hasMarker, inside] at plain
    simpa [isEntityChar, other] using entity
  · intro belonging
    rw [hasMarker, ← Bool.not_eq_true, List.contains_iff_mem]
    intro inside
    exact absurd (belonging _ inside) (by decide +kernel)

/-- Other names for entities without a marker and for variables, and for different ones different
names. Both are written with the same characters. -/
structure Renaming where
  entity : VariableName → VariableName
  binding : VariableName → VariableName
  entity_injective : Function.Injective entity
  binding_injective : Function.Injective binding

namespace Renaming

variable (names : Renaming)

def entityText (text : String) : String := String.ofList (Run.replace names.entity text.toList)

def bindingText (text : String) : String := String.ofList (Run.replace names.binding text.toList)

theorem entityText_injective : Function.Injective names.entityText := by
  intro first second same
  exact String.toList_inj.1
    (Run.replace_injective names.entity_injective (String.ofList_injective same))

theorem bindingText_injective : Function.Injective names.bindingText := by
  intro first second same
  exact String.toList_inj.1
    (Run.replace_injective names.binding_injective (String.ofList_injective same))

theorem entityText_cases (text : String) :
    names.entityText text = text ∨
      hasMarker text.toList = false ∧ hasMarker (names.entityText text).toList = false := by
  have unmarked (name : VariableName) : hasMarker name.text = false :=
    (hasMarker_eq_false_iff ⟨name.text, name.nonempty, fun c inside =>
      isEntityChar_of_isNameChar (name.belonging c inside)⟩).2 name.belonging
  rw [entityText, String.toList_ofList]
  rcases Run.replace_cases names.entity text.toList with ⟨name, same, replaced⟩ | ⟨_, kept⟩
  · right
    rw [replaced, ← same]
    exact ⟨unmarked name, unmarked _⟩
  · left
    rw [kept, String.ofList_toList]

theorem hasMarker_entityText (text : String) :
    hasMarker (names.entityText text).toList = hasMarker text.toList := by
  rcases names.entityText_cases text with same | ⟨plain, plain'⟩
  · rw [same]
  · rw [plain, plain']

theorem entityText_of_marked {text : String} (marked : hasMarker text.toList = true) :
    names.entityText text = text := by
  rcases names.entityText_cases text with same | ⟨plain, _⟩
  · exact same
  · rw [marked] at plain
    contradiction

def sign (sign : Sign) : Sign :=
  match sign.kind, sign.value with
  | .identifier, some name =>
    ⟨.identifier, Run.replace names.entity name, some (Run.replace names.entity name)⟩
  | .target, some name =>
    ⟨.target, '@' :: Run.replace names.binding name, some (Run.replace names.binding name)⟩
  | .reference, some name =>
    ⟨.reference, '*' :: Run.replace names.binding name, some (Run.replace names.binding name)⟩
  | _, _ => sign

theorem sign_of_none {sign : Sign} (nameless : sign.value = none) : names.sign sign = sign := by
  rw [Renaming.sign]
  split <;> simp_all

def spelling (token : Token) : List Char :=
  match token.kind, token.value with
  | .identifier, some name => (names.entityText name).toList
  | .target, some name => '@' :: (names.bindingText name).toList
  | .reference, some name => '*' :: (names.bindingText name).toList
  | _, _ => token.text.toList

/-- The source with the other names in it. What is behind its last token stays as it is. -/
def source (text : String) : String :=
  let tokens := (Cursor.ofSource text).tokens.filterMap Except.toOption
  String.ofList (tokens.flatMap names.spelling ++ text.toList.drop (joined tokens).length)

end Renaming

variable {sign : Sign} {signs : List Sign} {rest rest' : List Char} (names : Renaming)

theorem Fits.of_name {c d : Char} (fits : Fits sign (c :: rest)) (first : isNameChar c = true)
    (second : isNameChar d = true) : Fits sign (d :: rest') := by
  have entity (c : Char) (name : isNameChar c = true) : isEntityChar c = true :=
    isEntityChar_of_isNameChar name
  have other {sign : Char} (name : isNameChar sign = false) : d ≠ sign := by
    rintro rfl
    rw [second] at name
    cases name
  cases fits with
  | target _ stop | reference _ stop => exact absurd (stop c rfl) (by simp [first])
  | identifier _ stop => exact absurd (stop c rfl) (by simp [entity c first])
  | operator listed gap stop apart =>
    refine .operator listed gap (.cons (isBlank_of_isEntityChar (entity d second))) ?_
    intro _ _
    simpa using (other (by decide +kernel)).symm
  | leftParen opening =>
    exact .leftParen opening (.cons (isBlank_of_isEntityChar (entity d second)))
  | rightParen closing => exact .rightParen closing
  | pause between =>
    refine .pause between (.cons (isTerminatorChar_of_isEntityChar (entity d second))) ?_
    intro _ sign listed
    simp only [Sign.takesBlanks, List.mem_cons, List.not_mem_nil, or_false] at listed
    rcases listed with rfl | rfl | rfl | rfl <;>
      simpa using fun same => absurd same.symm (other (by decide +kernel))

/-- The front of a text with other names in it: the same, or that of another name. -/
inductive Renamed : (text other : List Char) → Prop
  | same {text other : List Char} (front : SameFront text other) : Renamed text other
  | name {c d : Char} {rest rest' : List Char} (first : isNameChar c = true)
      (second : isNameChar d = true) :
      Renamed (c :: rest) (d :: rest')

theorem Fits.of_renamed (fits : Fits sign rest) (front : Renamed rest rest') : Fits sign rest' := by
  cases front with
  | same front => exact fits.of_sameFront front
  | name first second => exact fits.of_name first second

theorem Fits.renamed (fits : Fits sign rest) : Fits (names.sign sign) rest := by
  cases fits with
  | target name stop =>
    rw [Renaming.sign, Sign.target]
    simp only [Run.replace_text]
    exact .target (names.binding name) stop
  | reference name stop =>
    rw [Renaming.sign, Sign.reference]
    simp only [Run.replace_text]
    exact .reference (names.binding name) stop
  | identifier name stop =>
    rw [Renaming.sign, Sign.identifier]
    dsimp only
    rcases Run.replace_cases names.entity name.text with ⟨run, same, replaced⟩ | ⟨_, kept⟩
    · rw [replaced]
      exact .identifier ⟨(names.entity run).text, (names.entity run).nonempty, fun c inside =>
        isEntityChar_of_isNameChar ((names.entity run).belonging c inside)⟩ stop
    · rw [kept]
      exact .identifier name stop
  | @operator kind mark listed gap _ stop apart =>
    rw [names.sign_of_none rfl]
    exact .operator listed gap stop apart
  | leftParen opening stop => exact .leftParen opening stop
  | rightParen closing => exact .rightParen closing
  | pause between stop free => exact .pause between stop free

theorem Fits.renamed_front (fits : Fits sign rest) (text text' : List Char) :
    Renamed (sign.text ++ text) ((names.sign sign).text ++ text') := by
  have visible := fits.visible
  have kept (same : names.sign sign = sign) :
      Renamed (sign.text ++ text) ((names.sign sign).text ++ text') := by
    rw [same]
    exact .same (.append visible text text')
  cases fits with
  | target name => exact .same ⟨rfl, by simp [Renaming.sign, Sign.target]⟩
  | reference name => exact .same ⟨rfl, by simp [Renaming.sign, Sign.reference]⟩
  | identifier name =>
    rcases Run.replace_cases names.entity name.text with ⟨run, same, replaced⟩ | ⟨_, unchanged⟩
    · rw [Renaming.sign, Sign.identifier]
      dsimp only
      rw [replaced, ← same]
      rcases List.exists_cons_of_ne_nil run.nonempty with ⟨c, more, whole⟩
      rcases List.exists_cons_of_ne_nil (names.entity run).nonempty with ⟨d, more', whole'⟩
      rw [whole, whole']
      exact .name (run.belonging c (by simp [whole]))
        ((names.entity run).belonging d (by simp [whole']))
    · apply kept
      rw [Renaming.sign, Sign.identifier]
      dsimp only
      rw [unchanged]
  | operator | leftParen | rightParen | pause => exact kept (names.sign_of_none rfl)

theorem Legible.renamed (legible : Legible signs rest) :
    Legible (signs.map names.sign) rest ∧ Renamed (textOf signs ++ rest)
      (textOf (signs.map names.sign) ++ rest) := by
  induction signs with
  | nil => exact ⟨trivial, .same ⟨rfl, .rfl⟩⟩
  | cons sign signs ih =>
    rcases ih legible.2 with ⟨later, front⟩
    have fits := legible.1.fits
    refine ⟨⟨((fits.of_renamed front).renamed names).spelled, later⟩, ?_⟩
    rw [List.map_cons, textOf_cons, textOf_cons, List.append_assoc, List.append_assoc]
    exact fits.renamed_front names _ _

theorem exists_legible (text : List Char) :
    ∃ signs rest, text = textOf signs ++ rest ∧
    Legible signs rest ∧ (rest = [] ∨ Pattern.first? rest Pattern.all = none) := by
  by_cases ended : text = []
  · exact ⟨[], [], by simp [ended], trivial, .inl rfl⟩
  · cases found : Pattern.first? text Pattern.all with
    | none => exact ⟨[], text, rfl, trivial, .inr found⟩
    | some hit =>
      rcases hit with ⟨kind, lexeme⟩
      have shorter := Pattern.length_rest_lt_of_first? found
      rcases exists_legible lexeme.rest with ⟨signs, rest, split, legible, unread⟩
      have whole : lexeme.text ++ (textOf signs ++ rest) = text :=
        split ▸ (Pattern.append_of_first? found).1
      refine ⟨⟨kind, lexeme.text, lexeme.value⟩ :: signs, rest, ?_, ⟨?_, legible⟩, unread⟩
      · rw [textOf_cons, List.append_assoc, whole]
      · rw [Sign.Spelled, whole, found, Sign.lexeme, ← split]
termination_by text.length

end Notation

end FactGraph
