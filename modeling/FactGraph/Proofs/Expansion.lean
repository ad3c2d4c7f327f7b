import FactGraph.Proofs.Grammar.Expanding

namespace FactGraph

open Precedence Token Notation Grammar

namespace Notation

variable {signs : List Sign} {next : Token} {later : List (Except Fault Token)}

/-- A line that gives the value of a text to a variable. -/
def bindingLine (name : VariableName) (text : String) : String :=
  "@" ++ String.ofList name.text ++ " := (" ++ text ++ ")\n"

def bindingSigns (name : VariableName) : List Sign :=
  [.target name, .operator .assign [':', '='] ⟨singleSpace, singleSpace⟩]

theorem toList_bindingLine (grouped : Grouped signs) (name : VariableName) (text source : String)
    (whole : text.toList = textOf signs) :
    (bindingLine name text ++ source).toList =
      textOf (bindingSigns name) ++ (textOf grouped.row ++ '\n' :: source.toList) := by
  rw [show textOf grouped.row = enclosed (textOf signs) from grouped.text, ← whole]
  simp [bindingLine, bindingSigns, enclosed, Sign.target, Sign.operator, Gap.around, singleSpace]

theorem bindingSigns_legible (grouped : Grouped signs) (name : VariableName) (rest : List Char) :
    Legible (bindingSigns name) (textOf grouped.row ++ rest) := by
  have parenthesis : Stops Text.isBlank (textOf grouped.row ++ rest) := by
    rw [show textOf grouped.row = enclosed (textOf signs) from grouped.text]
    exact .cons (by decide)
  refine ⟨Sign.target_spelled name (.cons (by decide +kernel)),
    Sign.assign_spelled _ parenthesis, trivial⟩

/-- The tokens of the line are the same in front of every source. -/
theorem tokens_bindingLine (grouped : Grouped signs) (name : VariableName) {text : String}
    (whole : text.toList = textOf signs) :
    ∃ target assign mark behind, target.kind = .target ∧
      target.value = some (String.ofList name.text) ∧ assign.kind = .assign ∧
      ∀ source : String, Reader.ofSource (bindingLine name text ++ source) Builder.empty =
        ⟨.ok target :: .ok assign :: .ok (grouped.opening.token mark) ::
          (grouped.reader mark (Cursor.tokens ⟨'\n' :: source.toList, behind⟩)
            Builder.empty).pending,
          none, Builder.empty⟩ := by
  let mark := Mark.start.past (textOf (bindingSigns name))
  have row (rest : List Char) : Legible grouped.row rest := grouped.legible rest
  refine ⟨(Sign.target name).token .start,
    (Sign.operator .assign [':', '='] ⟨singleSpace, singleSpace⟩).token
    (Mark.start.past (Sign.target name).text), mark, mark.past (textOf grouped.row), rfl, rfl, rfl,
    fun source => ?_⟩
  rw [Reader.ofSource, Cursor.ofSource, toList_bindingLine grouped name text source whole,
    tokens_of_legible (bindingSigns_legible grouped name _), tokens_of_legible (row _)]
  rfl

/-- Kinds of tokens that bind tighter than an assignment, and take blanks in front of them. -/
def tighterKinds : List Kind := [.arrow, .colon, .bang]

def BeginsTighter (source : String) : Prop :=
  ∃ first ∈ (Cursor.ofSource source).tokens.head?, ∃ token ∈ first.toOption,
    token.kind ∈ tighterKinds

instance (source : String) : Decidable (BeginsTighter source) :=
  inferInstanceAs (Decidable
    (∃ first ∈ (Cursor.ofSource source).tokens.head?, ∃ token ∈ first.toOption,
    token.kind ∈ tighterKinds))

def looserKinds : List Kind := [.assign, .terminator, .rightParen, .endOfInput]

theorem power_le_of_looserKinds (citation : Nat) {kind : Kind} (looser : kind ∈ looserKinds) :
    (symbols citation).power kind ≤ Power.assignment := by
  simp only [looserKinds, List.mem_cons, List.not_mem_nil, or_false] at looser
  rcases looser with rfl | rfl | rfl | rfl
  · exact Nat.le_refl Power.assignment
  · exact (separates citation).power ▸ (by decide : Power.terminator ≤ Power.assignment)
  · exact (separates citation).ends .rightParen rfl ▸ Nat.zero_le _
  · exact (separates citation).ends .endOfInput rfl ▸ Nat.zero_le _

/-- A new line ends the value of a variable, unless the line begins with a sign that binds
tighter. -/
theorem looser_of_new_line {source : String} {mark : Mark} (apart : ¬ BeginsTighter source)
    (read : Cursor.tokens ⟨'\n' :: source.toList, mark⟩ = .ok next :: later) :
    next.kind ∈ looserKinds := by
  by_cases ends : next.kind = .endOfInput
  · rw [ends]
    decide
  rcases exists_sign_of_tokens read ends with ⟨sign, rest, whole, spelled, rfl, _⟩
  change sign.kind ∈ looserKinds
  rcases spelled.fits.on_new_line whole.symm with kind | ⟨leads, other, kind, split, spelled⟩
  · rw [kind]
    decide
  · have first : (Cursor.ofSource source).tokens =
        .ok (other.token .start) :: Cursor.tokens ⟨rest, Mark.start.past other.text⟩ := by
      rw [Cursor.ofSource, split, Sign.tokens_of_spelled spelled]
    have own : other.kind ∉ tighterKinds := by
      intro tighter
      exact apart ⟨.ok (other.token .start), by rw [first]; rfl, other.token .start, rfl, tighter⟩
    have others : ∀ kind ∈ leadingKinds, kind ∉ tighterKinds → kind ∈ looserKinds := by decide
    exact others _ leads (kind ▸ own)

end Notation

namespace Compilation

variable {source edited text : String} {limits own : Limits} {name : VariableName} {value : Meaning}
  {graph : Graph}

def run (source : String) (limits : Limits) : Except Fault (List Meaning) × Reader Builder :=
  Reader.parse (symbols limits.citation) limits.nesting (Reader.ofSource source Builder.empty)

theorem ofSource_eq_run (source : String) (limits : Limits) :
    ofSource source limits = (run source limits).1.map fun meanings =>
    ⟨meanings, (run source limits).2.state.graph⟩ := by
  rw [ofSource, parseFrom, run]
  cases Reader.parse (symbols limits.citation) limits.nesting
    (Reader.ofSource source Builder.empty) with
  | mk answer reader => cases answer <;> rfl

theorem ofSource_of_halted (halted : Halted (run source limits)) :
    ∃ limit, ofSource source limits = .error (.limit limit) := by
  rcases halted with ⟨limit, stopped⟩
  exact ⟨limit, by rw [ofSource_eq_run, stopped]; rfl⟩

theorem outline_eq_of_agree {label : String}
    (agree : Agree label value (run edited limits) (run source limits))
    (free : ∀ limit, ofSource edited limits ≠ .error (.limit limit)) :
    outline (ofSource edited limits) = outline (ofSource source limits) := by
  rw [ofSource_eq_run] at free ⊢
  rw [ofSource_eq_run]
  revert free agree
  generalize run edited limits = ending
  generalize run source limits = ending'
  intro agree free
  cases agree with
  | answered answers states =>
    have alike := answers.imp fun _ _ => Meaning.corresponds_eq_iff.1
    exact congrArg Except.ok (congrArg₂ Compilation.mk (map_unplaced_of_alike alike) states.1)
  | failed faults =>
    exact congrArg Except.error
      ((Fault.quoting_id _).symm.trans (faults.trans (Fault.quoting_id _)))
  | @alone fault _ _ stopped =>
    cases fault with
    | limit limit => exact absurd rfl (free limit)
    | _ => contradiction

/-- A variable is transparent: behind a line that gives the value of a text to it, uses of it may be
replaced by the text in parentheses. The second line must not begin with an operator that takes it
for the rest of the first. -/
theorem variables_transparent (compiled : ofSource text own = .ok ⟨[value], graph⟩)
    (silent : graph.triples = []) (assignable : Assignable value) (plain : PlainText text.toList)
    (apart : ¬ BeginsTighter source)
    (expanded : Expanded name text.toList true source.toList edited.toList)
    (free : ∀ limit, ofSource (bindingLine name text ++ source) limits ≠ .error (.limit limit))
    (free' : ∀ limit, ofSource (bindingLine name text ++ edited) limits ≠ .error (.limit limit)) :
    outline (ofSource (bindingLine name text ++ edited) limits) =
      outline (ofSource (bindingLine name text ++ source) limits) := by
  rcases exists_grouped_of_compiled compiled silent plain with ⟨signs, grouped, whole, settled⟩
  rcases tokens_bindingLine grouped name whole
    with ⟨target, assign, mark, behind, targets, named, assigns, line⟩
  have unhalted {ending : String} (free : ∀ limit, ofSource ending limits ≠ .error (.limit limit)) :
      ¬ Halted (run ending limits) := fun halted => (ofSource_of_halted halted).elim free
  rcases parse_line_cases targets assigns limits.nesting with shallow | ⟨room, deep, read⟩
  · refine absurd ?_ (unhalted free)
    rw [run, line]
    exact shallow _ _
  have ran (ending : String) : run (bindingLine name text ++ ending) limits =
      valueLine grouped limits.citation room (String.ofList name.text) target.span assign.span mark
        (Cursor.tokens ⟨'\n' :: ending.toList, behind⟩) := by
    rw [run, line, read, named, deep]
    rfl
  have spelt : Spelt (likewise (String.ofList name.text) value)
      (StandsFor grouped (String.ofList name.text)) false
      (Cursor.tokens ⟨'\n' :: edited.toList, behind⟩)
      (Cursor.tokens ⟨'\n' :: source.toList, behind⟩) :=
    spelt_of_expanded grouped (whole ▸ expanded.on_new_line) behind behind
  have agree : Halted (run (bindingLine name text ++ source) limits) ∨
      Agree (String.ofList name.text) value
      (run (bindingLine name text ++ edited) limits)
      (run (bindingLine name text ++ source) limits) := by
    rw [ran, ran]
    rcases settled with means | ⟨fault, fails⟩
    · exact agree_of_means means assignable spelt fun next later read =>
        power_le_of_looserKinds limits.citation (looser_of_new_line apart read)
    · exact agree_of_fails fails
  exact outline_eq_of_agree (agree.resolve_left (unhalted free)) free'

def letter : VariableName :=
  ⟨['x'], List.cons_ne_nil _ _, List.forall_mem_singleton.2 (by decide +kernel)⟩

theorem variables_transparent_described :
    ofSource "a" .standard = .ok ⟨[.entities [.user "a"] ⟨0, 1, 1, 1⟩], Graph.empty⟩ ∧
      Expanded letter "a".toList true "*x => b:*x".toList "(a) => b:*x".toList ∧
      outline (ofSource (bindingLine letter "a" ++ "(a) => b:*x") .standard) =
        outline (ofSource (bindingLine letter "a" ++ "*x => b:*x") .standard) := by
  have compiled : ofSource "a" .standard =
      .ok ⟨[.entities [.user "a"] ⟨0, 1, 1, 1⟩], Graph.empty⟩ := by decide +kernel
  have expanded : Expanded letter "a".toList true "*x => b:*x".toList "(a) => b:*x".toList := by
    have use : "*x => b:*x".toList = (Sign.reference letter).text ++ " => b:*x".toList := by
      decide +kernel
    have row : "(a) => b:*x".toList = enclosed "a".toList ++ " => b:*x".toList := by decide +kernel
    have stop : Stops isNameChar " => b:*x".toList := by
      rw [show " => b:*x".toList = ' ' :: "=> b:*x".toList by decide +kernel]
      exact .cons (by decide +kernel)
    rw [use, row]
    exact .replace (Sign.reference_spelled letter stop) .same
  have free : (ofSource (bindingLine letter "a" ++ "*x => b:*x") .standard).isOk = true := by
    decide +kernel
  have free' : (ofSource (bindingLine letter "a" ++ "(a) => b:*x") .standard).isOk = true := by
    decide +kernel
  exact ⟨compiled, expanded,
    variables_transparent compiled rfl trivial (by decide +kernel) (by decide +kernel) expanded
    (exists_of_isOk free).2 (exists_of_isOk free').2⟩

/-- A colon on the second line takes the line break, and its use of the variable belongs to the
value of the variable. -/
theorem variable_unknown_in_own_value :
    ofSource "a" .standard = .ok ⟨[.entities [.user "a"] ⟨0, 1, 1, 1⟩], Graph.empty⟩ ∧
      PlainText "a".toList ∧ Expanded letter "a".toList true ":*x".toList ":(a)".toList ∧
      (∀ limit, ofSource (bindingLine letter "a" ++ ":*x") .standard ≠ .error (.limit limit)) ∧
      (∀ limit, ofSource (bindingLine letter "a" ++ ":(a)") .standard ≠ .error (.limit limit)) ∧
      outline (ofSource (bindingLine letter "a" ++ ":(a)") .standard) ≠
        outline (ofSource (bindingLine letter "a" ++ ":*x") .standard) := by
  have expanded : Expanded letter "a".toList true ":*x".toList ":(a)".toList := by
    have colon : (Sign.operator .colon [':'] ⟨.none, .none⟩).Spelled ['*', 'x'] :=
      Sign.colon_spelled _ (.cons (by decide)) (by decide)
    have use : ":*x".toList = [':', '*', 'x'] := by decide +kernel
    have row : ":(a)".toList = ':' :: (enclosed "a".toList ++ []) := by decide +kernel
    rw [use, row]
    exact .keep colon (.replace (Sign.reference_spelled letter nofun) .same)
  have unknown : ofSource (bindingLine letter "a" ++ ":*x") .standard =
      .error (.undefined "x" ⟨2, 2⟩) := by
    decide +kernel
  have known : (ofSource (bindingLine letter "a" ++ ":(a)") .standard).isOk = true := by
    decide +kernel
  exact ⟨by decide +kernel, by decide +kernel, expanded, by simp [unknown],
    (exists_of_isOk known).2, by decide +kernel⟩

end Compilation

end FactGraph
