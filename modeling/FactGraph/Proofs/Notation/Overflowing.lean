import FactGraph.Proofs.Limits
import FactGraph.Proofs.Notation.Compiled

namespace FactGraph.Notation

open Attempt Precedence Precedence.Reader Grammar Token

variable {nesting citation room : Nat} {mark : Mark} {builder reached : Builder} {level : Level}
  {tree : Tree level} {meaning : Meaning}

def Overflows (nesting citation room : Nat) {level : Level} (tree : Tree level) (mark : Mark)
    (builder : Builder) : Prop :=
  ∀ (power : Nat) (next : Token) (after : List Token),
    power < level.power → (Grammar.symbols citation).power next.kind ≤ level.follower →
      (expressionWithin (Grammar.symbols citation) nesting room power
        (facing (tokensOf mark tree.signs ++ next :: after) builder)).1 =
          .error (.limit (.nesting nesting))

namespace Overflows

theorem zero (nesting citation : Nat) (tree : Tree level) (mark : Mark) (builder : Builder) :
    Overflows nesting citation 0 tree mark builder := fun _ _ _ _ _ => rfl

theorem lift {other : Level} {same : Tree other}
    (overflows : Overflows nesting citation room tree mark builder)
    (tighter : other.power ≤ level.power) (looser : other.follower ≤ level.follower)
    (signs : same.signs = tree.signs) :
    Overflows nesting citation room same mark builder := by
  intro power next after binds follows
  rw [signs]
  exact overflows power next after (Nat.lt_of_lt_of_le binds tighter) (Nat.le_trans follows looser)

theorem group {opening closing : Blanks} {inner : Tree .sequence}
    (overflows : Overflows nesting citation room inner (mark.past ('(' :: opening.text)) builder) :
    Overflows nesting citation (room + 1) (.group opening inner closing) mark builder := by
  intro power next after _ _
  have tokens : tokensOf mark (Tree.group opening inner closing).signs ++ next :: after =
      (Sign.leftParen opening).token mark ::
        (tokensOf (mark.past ('(' :: opening.text)) inner.signs ++
          (Sign.rightParen closing).token ((mark.past ('(' :: opening.text)).past inner.text) ::
          next :: after) := by
    simp [tokensOf_append, Tree.textOf_signs, Sign.leftParen]
  have kind : ((Sign.leftParen opening).token mark).kind = .leftParen := rfl
  rw [tokens, expressionWithin_facing ((complete citation).knows _) (by simp) (by simp [kind]) rfl,
    Form.group, run_bind, run_expression, bind_assoc]
  exact fst_bind_of_error (overflows 0 _ _ (by decide) (Nat.zero_le _))

section

variable {first second : Level} {left : Tree first} {right : Tree second} {sign : Sign}
  {mark' : Mark} {rule : Following Builder Meaning} {asked : Nat}

theorem of_follow (following : (Grammar.symbols citation).following? sign.kind = some rule)
    (binds : level.power ≤ (Grammar.symbols citation).power sign.kind)
    (reads : ∀ power next after, power < level.power →
      expressionWithin (Grammar.symbols citation) nesting (room + 1) power
        (facing (tokensOf mark tree.signs ++ next :: after) builder) =
          follow (Grammar.symbols citation)
          (expressionWithin (Grammar.symbols citation) nesting room) power
            (some meaning)
            (facing (sign.token mark' ::
              (tokensOf (mark'.past sign.text) right.signs ++ next :: after)) reached))
    (asks : ∀ operand tokens, ∃ later, run (Grammar.symbols citation) operand
      (rule (sign.token mark') (some meaning))
      (facing (tokensOf (mark'.past sign.text) right.signs ++ tokens) reached) =
        (operand asked >>= later)
        (facing (tokensOf (mark'.past sign.text) right.signs ++ tokens) reached))
    (tighter : asked < second.power) (looser : level.follower ≤ second.follower)
    (overflows : Overflows nesting citation room right (mark'.past sign.text) reached) :
    Overflows nesting citation (room + 1) tree mark builder := by
  intro power next after tight loose
  rcases asks (expressionWithin (Grammar.symbols citation) nesting room) (next :: after)
    with ⟨later, same⟩
  rw [reads power next after tight, follow_facing ((complete citation).knows _) (by simp)
    (Reads.inside_of_following following) following (expressionWithin_consumes _ nesting room)
    (Nat.lt_of_lt_of_le tight binds), bind_of_eq same, bind_assoc]
  exact fst_bind_of_error (overflows asked next after tighter (Nat.le_trans loose looser))

theorem of_operator (signs : tree.signs = left.signs ++ sign :: right.signs)
    (above : level.power ≤ first.power)
    (below : (Grammar.symbols citation).power sign.kind ≤ first.follower)
    (following : (Grammar.symbols citation).following? sign.kind = some rule)
    (binds : level.power ≤ (Grammar.symbols citation).power sign.kind)
    (bound : builder.Bound Stated)
    (means : left.eval citation mark builder = (.ok meaning, reached))
    (asks : ∀ operand tokens, ∃ later,
      run (Grammar.symbols citation) operand
        (rule (sign.token (mark.past left.text)) (some meaning))
        (facing (tokensOf ((mark.past left.text).past sign.text) right.signs ++ tokens) reached) =
          (operand asked >>= later)
            (facing (tokensOf ((mark.past left.text).past sign.text) right.signs ++
              tokens) reached))
    (tighter : asked < second.power) (looser : level.follower ≤ second.follower)
    (deep : room < max left.depth (right.depth + 1))
    (outer : ∀ room, room < left.depth → Overflows nesting citation room left mark builder)
    (inner : ∀ room, room < right.depth →
      Overflows nesting citation room right (mark.past (left.text ++ sign.text)) reached) :
    Overflows nesting citation room tree mark builder := by
  cases room with
  | zero => exact .zero nesting citation tree mark builder
  | succ room =>
    -- The left operand has the room of the whole, and the right one a level less.
    by_cases fits : room + 1 < left.depth
    · intro power next after tight _
      rw [signs, Reads.tokensOf_operator]
      exact outer (room + 1) fits power _ _ (Nat.lt_of_lt_of_le tight above) below
    · have deeper : room < right.depth := by omega
      refine of_follow following binds ?_ asks tighter looser (Mark.past_append _ _ _ ▸
        inner room deeper)
      intro power next after tight
      rw [signs, Reads.tokensOf_operator]
      have read := left.reads nesting citation room power mark (sign.token (mark.past left.text))
        (tokensOf (mark.past (left.text ++ sign.text)) right.signs ++ next :: after) builder
        (Nat.lt_of_lt_of_le tight above) below bound
      rw [means] at read
      rw [Mark.past_append] at read ⊢
      exact read.resolve_left fun stopped => fits stopped.1

end

end Overflows

namespace Evaluation

variable {step : Step} {context : String}

theorem eq_entities_of_needed {found : List Ident × Span}
    (ran : (step >>= needEntities context) builder = (.ok found, reached)) :
    step builder = (.ok (.entities found.1 found.2), reached) := by
  rcases exists_of_bind_ok ran with ⟨meaning, middle, stepped, needed⟩
  cases meaning with
  | entities idents place =>
    obtain ⟨rfl, rfl⟩ := by simpa [needEntities] using needed
    exact stepped
  | descriptor | assignment | target => cases needed

theorem exists_descriptor_of_needed {found : List Property}
    (ran : (step >>= needProperties context) builder = (.ok found, reached)) :
    ∃ place, step builder = (.ok (.descriptor found place), reached) := by
  rcases exists_of_bind_ok ran with ⟨meaning, middle, stepped, needed⟩
  cases meaning with
  | descriptor properties place =>
    obtain ⟨rfl, rfl⟩ := by simpa [needProperties] using needed
    exact ⟨place, stepped⟩
  | entities | assignment | target => cases needed

end Evaluation

theorem Tree.bound_of_eval (tree : Tree level) (bound : builder.Bound Stated)
    (means : tree.eval citation mark builder = (.ok meaning, reached)) :
    Stated meaning ∧ reached.Bound Stated := by
  have settled := tree.eval_settles citation mark builder bound
  rw [means] at settled
  exact ⟨settled.2 meaning rfl, settled.1⟩

namespace Overflows

theorem arrow {left : Tree .labelled} {gap : Gap} {right : Tree .description}
    (bound : builder.Bound Stated)
    (means : left.eval citation mark builder = (.ok meaning, reached))
    (subject : ∀ place, meaning ≠ .assignment place) (deep : room < (left.arrow gap right).depth)
    (outer : ∀ room, room < left.depth → Overflows nesting citation room left mark builder)
    (inner : ∀ room, room < right.depth →
      Overflows nesting citation room right
        (mark.past (left.text ++ gap.around ['=', '>'])) reached) :
    Overflows nesting citation room (left.arrow gap right) mark builder := by
  have stated := (left.bound_of_eval bound means).1
  have looser : Power.description ≤ Power.label := by decide
  have tighter : Power.describing < Level.description.power := by decide
  refine of_operator rfl looser looser rfl (Nat.le_refl _) bound means
    (fun operand tokens => ?_) tighter (Nat.le_refl _) deep outer inner
  cases meaning with
  | entities | descriptor => exact ⟨_, rfl⟩
  | assignment place => exact absurd rfl (subject place)
  | target => cases stated

theorem assign {name : VariableName} {gap : Gap} {right : Tree .description}
    (unknown : builder.bindings.isDefined (String.ofList name.text) = false)
    (overflows :
      Overflows nesting citation room right
        (mark.past ('@' :: name.text ++ gap.around [':', '='])) builder) :
    Overflows nesting citation (room + 1) (.assign name gap right) mark builder := by
  let sign : Sign := .operator .assign [':', '='] gap
  let behind : Mark := mark.past (Sign.target name).text
  have opening : (Grammar.symbols citation).opening? ((Sign.target name).token mark).kind =
      some target := rfl
  have following : (Grammar.symbols citation).following? sign.kind = some assignment := rfl
  have reads (power : Nat) (next : Token) (after : List Token) (_ : power < Level.statement.power) :
      expressionWithin (Grammar.symbols citation) nesting (room + 1) power
        (facing (tokensOf mark (Tree.assign name gap right).signs ++ next :: after) builder) =
          follow (Grammar.symbols citation)
          (expressionWithin (Grammar.symbols citation) nesting room) power
            (some (.target (String.ofList name.text) ((Sign.target name).token mark).span))
            (facing (sign.token behind ::
              (tokensOf (behind.past sign.text) right.signs ++ next :: after))
              builder) := by
    rw [Tree.signs, tokensOf, List.cons_append,
      expressionWithin_facing ((complete citation).knows _) (by simp)
      (Reads.inside_of_opening opening) opening]
    rfl
  have inner : Overflows nesting citation room right (behind.past sign.text) builder :=
    Mark.past_append _ _ _ ▸ overflows
  refine of_follow following (Nat.le_refl _) reads (fun operand tokens => ?_)
    (show Power.assignment < Level.description.power by decide) (by decide) inner
  have state (tokens : List Token) : (facing tokens builder).state = builder := rfl
  rw [assignment, run_bind, bind_ok (run_state_apply _ _ _), state, unknown]
  exact ⟨_, rfl⟩

end Overflows

/-- A tree that means something overflows wherever it nests deeper than there is room for. -/
theorem Tree.overflows (tree : Tree level) (bound : builder.Bound Stated)
    (means : tree.eval citation mark builder = (.ok meaning, reached)) (deep : room < tree.depth) :
    Overflows nesting citation room tree mark builder := by
  -- Where the right operand begins, the builder is as the evaluation of the left one leaves it.
  induction tree generalizing room mark builder meaning reached with
  | identifier name =>
    obtain rfl := Nat.lt_one_iff.1 deep
    exact .zero _ _ _ _ _
  | reference name =>
    obtain rfl := Nat.lt_one_iff.1 deep
    exact .zero _ _ _ _ _
  | ofAtom tree ih => exact (ih bound means deep).lift (by decide) (by decide) rfl
  | ofProperty tree ih => exact (ih bound means deep).lift (by decide) (by decide) rfl
  | ofLabelled tree ih => exact (ih bound means deep).lift (by decide) (by decide) rfl
  | ofDescription tree ih => exact (ih bound means deep).lift (by decide) (by decide) rfl
  | single tree ih => exact (ih bound means deep).lift (by decide) (by decide) rfl
  | group opening inner closing ih =>
    cases room with
    | zero => exact .zero _ _ _ _ _
    | succ room => exact .group (ih bound means (Nat.lt_of_succ_lt_succ deep))
  | colon left gap right ihLeft ihRight =>
    rcases exists_of_bind_ok means with ⟨predicates, middle, first, rest⟩
    rcases exists_of_bind_ok rest with ⟨objects, _, second, _⟩
    have first := Evaluation.eq_entities_of_needed first
    have second := Evaluation.eq_entities_of_needed second
    exact .of_operator rfl (Nat.le_refl _) (Nat.le_refl _) rfl (Nat.le_refl _) bound first
      (fun _ _ => ⟨_, rfl⟩) (show Power.property < Level.atom.power by decide) (by decide) deep
      (fun _ => ihLeft bound first) (fun _ => ihRight (left.bound_of_eval bound first).2 second)
  | bang left gap right ihLeft ihRight =>
    rcases exists_of_bind_ok means with ⟨target, middle, first, rest⟩
    cases target with
    | entities | assignment | target => cases rest
    | descriptor properties place =>
      rcases properties with _ | ⟨property, _ | ⟨_, _⟩⟩
      · cases rest
      · rcases exists_of_bind_ok rest with ⟨names, _, second, _⟩
        have second := Evaluation.eq_entities_of_needed second
        exact .of_operator rfl (Nat.le_refl _) (Nat.le_refl _) rfl (Nat.le_refl _) bound first
          (fun _ _ => ⟨_, rfl⟩) (show Power.label < Level.property.power by decide) (by decide) deep
          (fun _ => ihLeft bound first) (fun _ => ihRight (left.bound_of_eval bound first).2 second)
      · cases rest
  | arrow left gap right ihLeft ihRight =>
    rcases exists_of_bind_ok means with ⟨subject, middle, first, rest⟩
    have settled := (left.bound_of_eval bound first).2
    cases subject with
    | assignment | target => cases rest
    | entities idents place =>
      rcases exists_of_bind_ok rest with ⟨properties, _, second, _⟩
      rcases Evaluation.exists_descriptor_of_needed second with ⟨_, second⟩
      exact .arrow bound first nofun deep (fun _ => ihLeft bound first)
        (fun _ => ihRight settled second)
    | descriptor properties place =>
      rcases exists_of_bind_ok rest with ⟨properties, _, second, _⟩
      rcases Evaluation.exists_descriptor_of_needed second with ⟨_, second⟩
      exact .arrow bound first nofun deep (fun _ => ihLeft bound first)
        (fun _ => ihRight settled second)
  | assign name gap right ih =>
    rcases exists_of_bind_ok means with ⟨seen, middle, looked, rest⟩
    obtain ⟨rfl, rfl⟩ : builder = seen ∧ builder = middle := by simpa using looked
    by_cases defined : builder.bindings.isDefined (String.ofList name.text) = true
    · rw [if_pos defined] at rest
      cases rest
    · rw [if_neg defined] at rest
      rcases exists_of_bind_ok rest with ⟨_, _, valued, _⟩
      rcases exists_of_bind_ok valued with ⟨value, after, second, _⟩
      cases room with
      | zero => exact .zero _ _ _ _ _
      | succ room =>
        exact .assign (Bool.eq_false_iff.2 defined) (ih bound second (Nat.lt_of_succ_lt_succ deep))
  | more earlier between last ihEarlier ihLast =>
    rcases exists_of_bind_ok means with ⟨before, middle, first, rest⟩
    rcases exists_of_bind_ok rest with ⟨joined, _, second, _⟩
    rcases earlier.bound_of_eval bound first with ⟨stated, settled⟩
    refine .of_operator rfl (Nat.le_refl _) (Nat.le_refl _) rfl (Nat.le_refl _) bound first
      (fun operand tokens => ?_) (show Power.terminator < Level.statement.power by decide)
      (by decide) deep (fun _ => ihEarlier bound first)
      (fun _ => ihLast settled second)
    have goesOn :
        (facing (tokensOf ((mark.past earlier.text).past (Sign.pause between).text)
          last.signs ++ tokens)
      middle).atConstructEnd = false := last.atConstructEnd_facing _ _ _
    unfold terminator
    rw [run_bind, bind_ok (run_ended_apply _ _ _), goesOn]
    cases before with
    | target => cases stated
    | entities | descriptor | assignment => exact ⟨_, rfl⟩

namespace Program

variable {ending : Token}

theorem parseFrom_eq_sequence (program : Program) (limits : Limits) (builder : Builder) :
    Compilation.parseFrom builder limits program.source =
      ((sequence (Grammar.symbols limits.citation) limits.nesting
          (facing (tokensOf Mark.start program.signs ++ [program.ending]) builder)).1,
        (sequence (Grammar.symbols limits.citation) limits.nesting
          (facing (tokensOf Mark.start program.signs ++ [program.ending]) builder)).2.state) := by
  rw [← parse_eq_sequence (complete limits.citation) (by simp), ← program.tokens_source]
  rfl

theorem body_overflows {body : Tree .sequence}
    (overflows : Overflows nesting citation room body mark builder)
    (ends : ending.kind = .endOfInput) (trail : Option Pause) (after : Mark) :
    (expressionWithin (Grammar.symbols citation) nesting room 0
      (facing (tokensOf mark body.signs ++ (tokensOf after (pauseSigns trail) ++ [ending]))
        builder)).1 = .error (.limit (.nesting nesting)) := by
  cases trail with
  | none => exact overflows 0 ending [] (by decide) (by rw [ends]; exact Nat.zero_le _)
  | some pause =>
    exact overflows 0 ((Sign.pause pause).token after) [ending] (by decide) (Nat.le_refl _)

theorem expression_overflows (program : Program) (ends : ending.kind = .endOfInput)
    (deep : nesting < program.depth) (overflows : ∀ room, room < program.body.depth →
      Overflows nesting citation room program.body
        (Mark.start.past (pauseText program.lead)) builder) :
    (expression (Grammar.symbols citation) nesting 0
      (facing (tokensOf Mark.start program.signs ++ [ending]) builder)).1 =
        .error (.limit (.nesting nesting)) := by
  rcases program with ⟨lead, body, trail⟩
  simp only [signs, tokensOf_append, textOf_pauseSigns, Tree.textOf_signs, List.append_assoc]
  cases lead with
  | none => exact body_overflows (overflows nesting deep) ends trail _
  | some pause =>
    cases nesting with
    | zero => rfl
    | succ room =>
      have opening :
          (Grammar.symbols citation).opening? ((Sign.pause pause).token Mark.start).kind =
            some (Form.skip 0) := rfl
      have goesOn : (facing (tokensOf (Mark.start.past pause.text) body.signs ++
        (tokensOf ((Mark.start.past pause.text).past body.text) (pauseSigns trail) ++ [ending]))
          builder).atConstructEnd = false := body.atConstructEnd_facing _ _ _
      have inner := body_overflows (overflows room (Nat.lt_of_succ_lt_succ deep)) ends trail
        ((Mark.start.past pause.text).past body.text)
      rw [expression, pauseSigns, tokensOf, tokensOf, List.singleton_append, pauseText,
        expressionWithin_facing ((complete citation).knows _) (by simp)
          (Reads.inside_of_opening opening) opening,
        Form.skip, run_bind, bind_assoc, bind_ok (run_ended_apply _ _ _), goesOn]
      simp only [Bool.false_eq_true, if_false, run_expression]
      exact fst_bind_of_error inner

theorem parseFrom_overflows (program : Program) (limits : Limits)
    (deep : limits.nesting < program.depth)
    (overflows : ∀ room, room < program.body.depth →
      Overflows limits.nesting limits.citation room program.body
      (Mark.start.past (pauseText program.lead)) Builder.empty) :
    (Compilation.parseFrom Builder.empty limits program.source).1 =
      .error (.limit (.nesting limits.nesting)) := by
  have failed : (expression (Grammar.symbols limits.citation) limits.nesting 0
      (facing (tokensOf Mark.start program.signs ++ [program.ending]) Builder.empty)).1 = _ :=
    program.expression_overflows rfl deep overflows
  rw [program.parseFrom_eq_sequence, sequence_eq, program.atEndOfInput_facing]
  exact fst_bind_of_error failed

theorem parseFrom_of_shallow (program : Program) {limits : Limits}
    (fits : program.depth ≤ limits.nesting) :
    Compilation.parseFrom Builder.empty limits program.source =
      program.eval limits.citation Builder.empty := by
  have agrees : Agrees (.limit (.nesting limits.nesting)) (limits.nesting < program.depth)
      (sequence (Grammar.symbols limits.citation) limits.nesting
        (facing (tokensOf Mark.start program.signs ++ [program.ending]) Builder.empty)) _ _ :=
    program.sequence_agrees rfl Builder.bound_empty
  have same := agrees.resolve_left fun stopped => Nat.not_lt.2 fits stopped.1
  rw [program.parseFrom_eq_sequence]
  rcases meant : program.eval limits.citation Builder.empty with ⟨fault | meanings, built⟩
  · rw [meant] at same
    exact Prod.ext same.1 same.2
  · rw [meant] at same
    rw [same]
    rfl

/-- What means something is compiled if it nests no deeper than the limit, and otherwise only the
limit is met. -/
theorem ofSource_eq_ite (program : Program) {limits : Limits} {meanings : List Meaning}
    {built : Builder} (means : program.eval limits.citation Builder.empty = (.ok meanings, built)) :
    Compilation.ofSource program.source limits =
      if program.depth ≤ limits.nesting then .ok ⟨meanings, built.graph⟩
      else .error (.limit (.nesting limits.nesting)) := by
  by_cases fits : program.depth ≤ limits.nesting
  · rw [if_pos fits, Compilation.ofSource, program.parseFrom_of_shallow fits, means]
  · rw [if_neg fits]
    rcases exists_of_bind_ok means with ⟨meaning, _, body, _⟩
    exact Compilation.ofSource_of_error
      (program.parseFrom_overflows limits (Nat.lt_of_not_le fits) fun room deep =>
      program.body.overflows Builder.bound_empty body deep)

end Program

end FactGraph.Notation
