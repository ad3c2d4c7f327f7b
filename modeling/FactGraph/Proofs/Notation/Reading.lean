import FactGraph.Grammar
import FactGraph.Proofs.Notation.Agreement
import FactGraph.Proofs.Notation.Placing
import FactGraph.Proofs.Notation.Settled
import FactGraph.Proofs.Precedence.Running

/-! The reader of the notation does on the tokens of a tree what the evaluation does on the tree.
The powers of the symbols never enter the evaluation, so this is where they are shown to be right:
one case for each way to make a tree. -/

namespace FactGraph.Notation

open Attempt Precedence Precedence.Reader Grammar Token

variable {α : Type}

namespace Level

/-- The operators of an expression of this level bind at least so tightly, its right operands
aside. -/
def power : Level → Nat
  | atom => Power.group
  | property => Power.property
  | labelled => Power.label
  | description => Power.description
  | statement => Power.assignment
  | sequence => Power.terminator

/-- What follows an expression of this level binds at most so tightly. -/
def follower : Level → Nat
  | description => Power.describing
  | level => level.power

end Level

theorem complete (citation : Nat) : Complete (Grammar.symbols citation) := by
  intro kind
  cases kind <;> rfl

/-- How a tree is read: a reader at its tokens comes to what follows them with the meaning of the
tree, and goes on with the operators there. -/
def Reads (nesting citation : Nat) {level : Level} (tree : Tree level) : Prop :=
  ∀ (room power : Nat) (mark : Mark) (next : Token) (after : List Token) (builder : Builder),
    power < level.power → (Grammar.symbols citation).power next.kind ≤ level.follower →
    builder.Bound Stated →
    Agrees (.limit (.nesting nesting)) (room + 1 < tree.depth)
      (expressionWithin (Grammar.symbols citation) nesting (room + 1) power
        (facing (tokensOf mark tree.signs ++ next :: after) builder))
      (tree.eval citation mark builder)
      fun meaning reached =>
        follow (Grammar.symbols citation)
          (expressionWithin (Grammar.symbols citation) nesting room) power (some meaning)
          (facing (next :: after) reached)

theorem Tree.atConstructEnd_facing {level : Level} (tree : Tree level) (mark : Mark)
    (rest : List Token) (builder : Builder) :
    (facing (tokensOf mark tree.signs ++ rest) builder).atConstructEnd = false := by
  induction tree generalizing rest with
  | identifier | reference | group | assign => rfl
  | colon _ _ _ ih | bang _ _ _ ih | arrow _ _ _ ih | more _ _ _ ih =>
    rw [Tree.signs, tokensOf_append, List.append_assoc]
    exact ih _
  | ofAtom _ ih | ofProperty _ ih | ofLabelled _ ih | ofDescription _ ih | single _ ih =>
    exact ih rest

theorem Tree.depth_pos {level : Level} (tree : Tree level) : 0 < tree.depth := by
  induction tree with
  | identifier | reference => exact Nat.one_pos
  | group | assign => exact Nat.succ_pos _
  | colon _ _ _ ih | bang _ _ _ ih | arrow _ _ _ ih | more _ _ _ ih =>
    exact Nat.lt_of_lt_of_le ih (Nat.le_max_left _ _)
  | ofAtom _ ih | ofProperty _ ih | ofLabelled _ ih | ofDescription _ ih | single _ ih => exact ih

namespace Reads

variable {nesting citation room power : Nat} {level : Level} {tree : Tree level} {mark : Mark}
  {builder : Builder} {deep : Prop}

/-- As an operand, a tree is read up to a token that binds no tighter than the operand asks for. -/
theorem operand (reads : Reads nesting citation tree) (tighter : power < level.power)
    {next : Token} {after : List Token}
    (stops : (Grammar.symbols citation).power next.kind ≤ power)
    (looser : (Grammar.symbols citation).power next.kind ≤ level.follower)
    (bound : builder.Bound Stated) (deeper : room < tree.depth → deep) :
    Agrees (.limit (.nesting nesting)) deep
      (expressionWithin (Grammar.symbols citation) nesting room power
        (facing (tokensOf mark tree.signs ++ next :: after) builder))
      (tree.eval citation mark builder)
      fun meaning reached => (.ok (some meaning), facing (next :: after) reached) := by
  cases room with
  | zero => exact .inl ⟨deeper tree.depth_pos, rfl⟩
  | succ room =>
    have read := reads room power mark next after builder tighter looser bound
    have stop (meaning : Meaning) (reached : Builder) :
        follow (Grammar.symbols citation)
          (expressionWithin (Grammar.symbols citation) nesting room) power (some meaning)
          (facing (next :: after) reached) = (.ok (some meaning), facing (next :: after) reached) :=
      follow_facing_of_le (expressionWithin_consumes _ nesting room) stops _
    simp only [stop] at read
    exact read.mono deeper

theorem continued (reads : Reads nesting citation tree) (tighter : power < level.power)
    {next : Token} {after : List Token}
    (stops : (Grammar.symbols citation).power next.kind ≤ power)
    (looser : (Grammar.symbols citation).power next.kind ≤ level.follower)
    (bound : builder.Bound Stated)
    {rest : Option Meaning → Attempt (Reader Builder) (Option Meaning)}
    {continuation : Meaning → Attempt Builder Meaning}
    {result : Meaning → Builder → Except Fault (Option Meaning) × Reader Builder}
    (deeper : room < tree.depth → deep)
    (goesOn : ∀ meaning reached, Agrees (.limit (.nesting nesting)) deep
      (rest (some meaning) (facing (next :: after) reached))
      (continuation meaning reached) result) :
    Agrees (.limit (.nesting nesting)) deep
      ((expressionWithin (Grammar.symbols citation) nesting room power >>= rest)
        (facing (tokensOf mark tree.signs ++ next :: after) builder))
      ((tree.eval citation mark >>= continuation) builder) result := by
  refine .chain (.andThen (reads.operand tighter stops looser bound deeper)) ?_
  intro meaning reached _
  exact goesOn meaning reached

variable {limit : Fault} {answer : Except Fault α × Builder}
  {next : α → Builder → Except Fault (Option Meaning) × Reader Builder}

theorem inside_of_opening {kind : Kind} {rule : Opening Builder Meaning}
    (opening : (Grammar.symbols citation).opening? kind = some rule) : kind ≠ .endOfInput := by
  intro ends
  simp [ends, Symbols.opening?, Grammar.symbols] at opening

theorem inside_of_following {kind : Kind} {rule : Following Builder Meaning}
    (following : (Grammar.symbols citation).following? kind = some rule) : kind ≠ .endOfInput := by
  intro ends
  simp [ends, Symbols.following?, Grammar.symbols] at following

theorem opened (sign : Token) {rest : List Token} {rule : Opening Builder Meaning}
    (opening : (Grammar.symbols citation).opening? sign.kind = some rule)
    (more : rest ≠ [])
    (agrees : Agrees limit deep
      ((do
        let left ← run (Grammar.symbols citation)
          (expressionWithin (Grammar.symbols citation) nesting room) (rule sign)
        follow (Grammar.symbols citation)
          (expressionWithin (Grammar.symbols citation) nesting room) power left :
          Attempt (Reader Builder) (Option Meaning)) (facing rest builder)) answer next) :
    Agrees limit deep (expressionWithin (Grammar.symbols citation) nesting (room + 1) power
      (facing (sign :: rest) builder)) answer next := by
  rw [expressionWithin_facing ((complete citation).knows _) more
    (inside_of_opening opening) opening]
  exact agrees

theorem followed (sign : Token) {rest : List Token} {rule : Following Builder Meaning}
    {left : Option Meaning}
    (following : (Grammar.symbols citation).following? sign.kind = some rule)
    (more : rest ≠ [])
    (binds : power < (Grammar.symbols citation).power sign.kind)
    (agrees : Agrees limit deep
      ((do
        let value ← run (Grammar.symbols citation)
          (expressionWithin (Grammar.symbols citation) nesting room) (rule sign left)
        follow (Grammar.symbols citation)
          (expressionWithin (Grammar.symbols citation) nesting room) power value :
          Attempt (Reader Builder) (Option Meaning)) (facing rest builder)) answer next) :
    Agrees limit deep (follow (Grammar.symbols citation)
      (expressionWithin (Grammar.symbols citation) nesting room) power left
      (facing (sign :: rest) builder)) answer next := by
  rw [follow_facing ((complete citation).knows _) more (inside_of_following following) following
    (expressionWithin_consumes _ nesting room) binds]
  exact agrees

theorem operator (reads : Reads nesting citation tree) (tighter : power < level.power)
    {sign : Token} {rest : List Token} {rule : Following Builder Meaning}
    {continuation : Meaning → Attempt Builder Meaning}
    {next : Meaning → Builder → Except Fault (Option Meaning) × Reader Builder}
    (following : (Grammar.symbols citation).following? sign.kind = some rule)
    (more : rest ≠ [])
    (looser : (Grammar.symbols citation).power sign.kind ≤ level.follower)
    (binds : power < (Grammar.symbols citation).power sign.kind)
    (bound : builder.Bound Stated) (deeper : room + 1 < tree.depth → deep)
    (goesOn : ∀ meaning reached, Stated meaning → reached.Bound Stated →
      Agrees (.limit (.nesting nesting)) deep
        ((do
          let value ← run (Grammar.symbols citation)
            (expressionWithin (Grammar.symbols citation) nesting room) (rule sign (some meaning))
          follow (Grammar.symbols citation)
            (expressionWithin (Grammar.symbols citation) nesting room) power value :
            Attempt (Reader Builder) (Option Meaning)) (facing rest reached))
        (continuation meaning reached) next) :
    Agrees (.limit (.nesting nesting)) deep
      (expressionWithin (Grammar.symbols citation) nesting (room + 1) power
        (facing (tokensOf mark tree.signs ++ sign :: rest) builder))
      ((tree.eval citation mark >>= continuation) builder) next := by
  have read := reads room power mark sign rest builder tighter looser bound
  apply (read.mono deeper).chain
  intro meaning reached evaluated
  have settled := tree.eval_settles citation mark builder bound
  rw [evaluated] at settled
  exact followed sign following more binds
    (goesOn meaning reached (settled.2 meaning rfl) settled.1)

theorem perform {limit : Fault} {step : Attempt Builder α} (tokens : List Token)
    (operand : Nat → Attempt (Reader Builder) (Option Meaning)) :
    Agrees limit deep
      (run (Grammar.symbols citation) operand (Action.perform step) (facing tokens builder))
      (step builder) fun value reached => (.ok value, facing tokens reached) := by
  rw [run_perform_apply]
  right
  rcases stepped : step builder with ⟨fault | value, reached⟩
  · have failed : step (facing tokens builder).state = (.error fault, reached) := stepped
    simp only [failed, and_self]
  · have done : step (facing tokens builder).state = (.ok value, reached) := stepped
    simp only [done]
    rfl

theorem looked {limit : Fault} (tokens : List Token)
    (operand : Nat → Attempt (Reader Builder) (Option Meaning)) :
    Agrees limit deep
      (run (Grammar.symbols citation) operand Action.state (facing tokens builder))
      (Attempt.state builder) fun seen reached => (.ok seen, facing tokens reached) :=
  .inr rfl

theorem resolved {limit : Fault} (name : VariableName) (tokens : List Token)
    (operand : Nat → Attempt (Reader Builder) (Option Meaning)) :
    Agrees limit deep
      (run (Grammar.symbols citation) operand
        (Grammar.reference ((Sign.reference name).token mark)) (facing tokens builder))
      (Evaluation.reference name ((Sign.reference name).token mark).span builder)
      fun meaning reached => (.ok (some meaning), facing tokens reached) := by
  rw [Grammar.reference, run_bind, bind_ok (run_state_apply _ _ _)]
  right
  unfold Evaluation.reference
  rcases found : builder.bindings.resolve (String.ofList name.text)
    ((Sign.reference name).token mark).span with fault | meaning
  · have failed : (facing tokens builder).state.bindings.resolve
        (((Sign.reference name).token mark).value.getD "") ((Sign.reference name).token mark).span =
          .error fault := found
    simp only [failed]
    exact ⟨rfl, rfl⟩
  · have known : (facing tokens builder).state.bindings.resolve
        (((Sign.reference name).token mark).value.getD "") ((Sign.reference name).token mark).span =
          .ok meaning := found
    simp only [known]
    rfl

theorem tokensOf_operator {first second : Level} (left : Tree first) (sign : Sign)
    (right : Tree second) (rest : List Token) :
    tokensOf mark (left.signs ++ sign :: right.signs) ++ rest =
      tokensOf mark left.signs ++ sign.token (mark.past left.text) ::
        (tokensOf (mark.past (left.text ++ sign.text)) right.signs ++ rest) := by
  simp [tokensOf_append, Tree.textOf_signs, Mark.past_append]

theorem colon {left : Tree .property} {gap : Gap} {right : Tree .atom}
    (predicates : Reads nesting citation left) (objects : Reads nesting citation right) :
    Reads nesting citation (left.colon gap right) := by
  intro room power mark next after builder tighter looser bound
  have depth : (left.colon gap right).depth = max left.depth (right.depth + 1) := rfl
  rw [Tree.signs, tokensOf_operator, Tree.eval, Evaluation.property, bind_assoc]
  refine predicates.operator tighter rfl (by simp) (Nat.le_refl _) tighter bound (by omega) ?_
  intro meaning reached _ settled
  cases meaning with
  | descriptor | assignment | target => exact .refuse rfl
  | entities idents place =>
    have rule (operand : Nat → Attempt (Reader Builder) (Option Meaning)) (sign : Token) :
        run (Grammar.symbols citation) operand (property sign (some (.entities idents place))) =
          operand Power.property >>= fun value => run (Grammar.symbols citation) operand (do
            let objects ← needEntities "object for property (colon) operator" sign.span value
            return some (.descriptor (crossProduct idents objects.1 place) place)) := rfl
    rw [rule, bind_assoc]
    simp only [Evaluation.needEntities, pure_bind, bind_assoc]
    refine objects.continued (by decide) looser (Nat.le_trans looser (by decide))
      settled (by omega) ?_
    intro object reached
    cases object with
    | descriptor | assignment | target => exact .refuse rfl
    | entities idents place => exact .inr rfl

theorem bang {left : Tree .labelled} {gap : Gap} {right : Tree .property}
    (target : Reads nesting citation left) (name : Reads nesting citation right) :
    Reads nesting citation (left.bang gap right) := by
  intro room power mark next after builder tighter looser bound
  have placed : ((Sign.operator .bang ['!'] gap).token (mark.past left.text)).span =
      gap.place ['!'] (mark.past left.text) :=
    Sign.operator_span _ gap (by decide) (.cons (by decide)) (.cons (by decide))
  have depth : (left.bang gap right).depth = max left.depth (right.depth + 1) := rfl
  rw [Tree.signs, tokensOf_operator, Tree.eval, Evaluation.label, ← placed]
  refine target.operator tighter rfl (by simp) (Nat.le_refl _) tighter bound (by omega) ?_
  intro meaning reached _ settled
  cases meaning with
  | entities | assignment | target => exact .refuse rfl
  | descriptor properties place =>
    rcases properties with _ | ⟨property, _ | ⟨_, _⟩⟩
    · exact .refuse rfl
    · simp only [label, run_bind, run_expression, bind_assoc]
      refine name.continued (by decide) looser (Nat.le_trans looser (by decide))
        settled (by omega) ?_
      intro named reached
      cases named with
      | descriptor | assignment | target => exact .refuse rfl
      | entities idents place =>
        rcases idents with _ | ⟨ident, _ | ⟨_, _⟩⟩
        · exact .refuse rfl
        · exact .inr rfl
        · exact .refuse rfl
    · exact .refuse rfl

theorem arrow {left : Tree .labelled} {gap : Gap} {right : Tree .description}
    (subject : Reads nesting citation left) (object : Reads nesting citation right) :
    Reads nesting citation (left.arrow gap right) := by
  intro room power mark next after builder tighter looser bound
  have placed : ((Sign.operator .arrow ['=', '>'] gap).token (mark.past left.text)).span =
      gap.place ['=', '>'] (mark.past left.text) :=
    Sign.operator_span _ gap (by decide) (.cons (by decide)) (.cons (by decide))
  have depth : (left.arrow gap right).depth = max left.depth (right.depth + 1) := rfl
  have loosest : power < Level.labelled.power := Nat.lt_of_lt_of_le tighter (by decide)
  have binds : Power.description ≤ Power.label := by decide
  rw [Tree.signs, tokensOf_operator, Tree.eval, Evaluation.description, ← placed]
  refine subject.operator loosest rfl (by simp) binds tighter bound (by omega) ?_
  intro meaning reached _ settled
  cases meaning with
  | assignment | target => exact .refuse rfl
  | entities idents place =>
    have rule (operand : Nat → Attempt (Reader Builder) (Option Meaning)) (sign : Token) :
        run (Grammar.symbols citation) operand
            (description citation sign (some (.entities idents place))) =
          operand Power.describing >>= fun value => run (Grammar.symbols citation) operand (do
            let properties ← needProperties
              "target (right hand operand) for description (arrow) operator" sign.span value
            Action.perform
              (Builder.onGraph (Property.attachEach citation sign.span idents properties))
            return some (.entities idents place)) := rfl
    rw [rule, bind_assoc]
    simp only [bind_assoc]
    refine object.continued (by decide) looser looser settled (by omega) ?_
    intro described reached
    cases described with
    | entities | assignment | target => exact .refuse rfl
    | descriptor properties _ =>
      simp only [Evaluation.needProperties, pure_bind, Grammar.needProperties, run_bind, bind_assoc]
      refine .chain (.andThen (perform _ _)) ?_
      intro _ _ _
      exact .inr rfl
  | descriptor properties place =>
    have rule (operand : Nat → Attempt (Reader Builder) (Option Meaning)) (sign : Token) :
        run (Grammar.symbols citation) operand
            (description citation sign (some (.descriptor properties place))) =
          operand Power.describing >>= fun value => run (Grammar.symbols citation) operand (do
            let citations ← needProperties
              "target (right hand operand) for citation (arrow) operator" sign.span value
            return some (.descriptor (properties.map (·.citedBy citations)) place)) := rfl
    rw [rule, bind_assoc]
    simp only [bind_assoc]
    refine object.continued (by decide) looser looser settled (by omega) ?_
    intro cited reached
    cases cited with
    | entities | assignment | target => exact .refuse rfl
    | descriptor citations _ => exact .inr rfl

theorem identifier (name : EntityName) : Reads nesting citation (.identifier name) := by
  intro room power mark next after builder _ _ _
  rw [Tree.eval, ← Sign.identifier_span]
  apply opened ((Sign.identifier name).token mark) rfl (List.cons_ne_nil _ _)
  rw [Grammar.identifier, run_bind, bind_assoc]
  refine .chain (.andThen (perform _ _)) ?_
  intro _ _ _
  exact .inr rfl

theorem reference (name : VariableName) : Reads nesting citation (.reference name) := by
  intro room power mark next after builder _ _ _
  rw [Tree.eval, ← Sign.reference_span]
  apply opened ((Sign.reference name).token mark) rfl (List.cons_ne_nil _ _)
  exact .andThen (resolved _ _ _)

theorem assign {name : VariableName} {gap : Gap} {right : Tree .description}
    (value : Reads nesting citation right) : Reads nesting citation (.assign name gap right) := by
  intro room power mark next after builder tighter looser bound
  have placed : ((Sign.operator .assign [':', '='] gap).token (mark.past ('@' :: name.text))).span =
      gap.place [':', '='] (mark.past ('@' :: name.text)) :=
    Sign.operator_span _ gap (by decide) (.cons (by decide)) (.cons (by decide))
  rw [Tree.eval, Evaluation.assignment, ← placed, ← Sign.target_span]
  apply opened ((Sign.target name).token mark) rfl (List.cons_ne_nil _ _)
  have leaf (operand : Nat → Attempt (Reader Builder) (Option Meaning)) (sign : Token) :
      run (Grammar.symbols citation) operand (target sign) =
        pure (some (.target (sign.value.getD "") sign.span)) := rfl
  rw [leaf, pure_bind]
  apply followed ((Sign.operator .assign [':', '='] gap).token (mark.past ('@' :: name.text))) rfl
  · simp
  · exact tighter
  have rule (operand : Nat → Attempt (Reader Builder) (Option Meaning)) (sign : Token)
      (place : Span) (text : String) :
      run (Grammar.symbols citation) operand (assignment sign (some (.target text place))) =
        (run (Grammar.symbols citation) operand Action.state >>= fun builder =>
          if builder.bindings.isDefined text then Attempt.refuse (.redefined text place.position)
          else operand Power.assignment >>= fun right =>
            run (Grammar.symbols citation) operand (do
              let value ← Grammar.needValue sign.span right
              Action.perform (Builder.onBindings (Bindings.define text value place))
              return some (.assignment sign.span))) := by
    rw [assignment, run_bind]
    congr 1
    funext builder
    split <;> rfl
  rw [rule, bind_assoc]
  refine .chain (.andThen (looked _ _)) ?_
  intro seen reached same
  obtain ⟨rfl, rfl⟩ : builder = seen ∧ builder = reached := by simpa using same
  have text : ((Sign.target name).token mark).value.getD "" = String.ofList name.text := rfl
  rw [text, Mark.past_append]
  by_cases defined : builder.bindings.isDefined (String.ofList name.text) = true
  · simp only [if_pos defined]
    exact .refuse rfl
  · simp only [if_neg defined, bind_assoc]
    have depth : (Tree.assign name gap right).depth = right.depth + 1 := rfl
    refine value.continued (by decide) looser (Nat.le_trans looser (by decide)) bound (by omega) ?_
    intro given reached
    cases given with
    | assignment | target => exact .refuse rfl
    | entities | descriptor =>
      simp only [Evaluation.needValue, pure_bind, Grammar.needValue, run_bind, bind_assoc]
      refine .chain (.andThen (perform _ _)) ?_
      intro _ _ _
      exact .inr rfl

theorem group {opening closing : Blanks} {inner : Tree .sequence}
    (reads : Reads nesting citation inner) :
    Reads nesting citation (.group opening inner closing) := by
  intro room power mark next after builder tighter looser bound
  have tokens : tokensOf mark (Tree.group opening inner closing).signs ++ next :: after =
      (Sign.leftParen opening).token mark ::
        (tokensOf (mark.past ('(' :: opening.text)) inner.signs ++
          (Sign.rightParen closing).token ((mark.past ('(' :: opening.text)).past inner.text) ::
            next :: after) := by
    simp [tokensOf_append, Tree.textOf_signs, Sign.leftParen]
  rw [tokens]
  apply opened ((Sign.leftParen opening).token mark) rfl (by simp)
  have rule (operand : Nat → Attempt (Reader Builder) (Option Meaning)) (sign : Token) :
      run (Grammar.symbols citation) operand (Form.group 0 .rightParen sign) =
        operand 0 >>= fun inner => advance (Grammar.symbols citation)
        (some .rightParen) >>= fun _ =>
          pure inner := rfl
  rw [rule, bind_assoc]
  simp only [bind_assoc]
  have depth : (Tree.group opening inner closing).depth = inner.depth + 1 := rfl
  refine (Agrees.andThen (reads.operand (by decide) (Nat.le_refl 0) (Nat.zero_le _) bound
    (by omega))).congr ?_
  intro meaning reached
  have inside : Kind.rightParen ≠ .endOfInput := by decide
  have closes : ∃ passed, advance (Grammar.symbols citation) (some .rightParen)
      (facing ((Sign.rightParen closing).token
        ((mark.past ('(' :: opening.text)).past inner.text) ::
        next :: after) reached) = (.ok passed, facing (next :: after) reached) :=
    advance_facing ((complete citation).knows _) (List.cons_ne_nil _ _) inside fun _ same =>
    Option.some.inj same
  rcases closes with ⟨passed, closed⟩
  rw [bind_ok closed, pure_bind]

theorem more {earlier : Tree .sequence} {between : Pause} {last : Tree .statement}
    (left : Reads nesting citation earlier) (right : Reads nesting citation last) :
    Reads nesting citation (earlier.more between last) := by
  intro room power mark next after builder tighter looser bound
  have depth : (earlier.more between last).depth = max earlier.depth (last.depth + 1) := rfl
  rw [Tree.signs, tokensOf_operator, Tree.eval, Evaluation.sequence]
  refine left.operator tighter rfl (by simp) (Nat.le_refl _) tighter bound (by omega) ?_
  intro meaning reached stated settled
  have goesOn : (facing (tokensOf (mark.past (earlier.text ++ between.text)) last.signs ++
      next :: after) reached).atConstructEnd = false := last.atConstructEnd_facing _ _ _
  have rule (operand : Nat → Attempt (Reader Builder) (Option Meaning)) (sign : Token) :
      run (Grammar.symbols citation) operand (terminator sign (some meaning)) =
        run (Grammar.symbols citation) operand Action.ended >>= fun ended =>
          if ended then pure (some meaning)
          else operand Power.terminator >>= fun right =>
            run (Grammar.symbols citation) operand (join sign.span (some meaning) right) := by
    unfold terminator
    rw [run_bind]
    congr 1
    funext ended
    cases ended with
    | true => rfl
    | false =>
      cases meaning with
      | target => contradiction
      | entities | descriptor | assignment => rfl
  rw [rule, bind_assoc, bind_ok (run_ended_apply _ _ _)]
  simp only [Sign.pause, goesOn, Bool.false_eq_true, if_false, bind_assoc]
  refine right.continued (by decide) looser (Nat.le_trans looser (by decide)) settled (by omega) ?_
  intro joined reached
  cases meaning with
  | target => contradiction
  | assignment => exact .inr rfl
  | entities =>
    cases joined with
    | entities | assignment => exact .inr rfl
    | descriptor | target => exact .refuse rfl
  | descriptor =>
    cases joined with
    | descriptor => exact .inr rfl
    | entities | assignment | target => exact .refuse rfl

theorem lift {other : Level} {same : Tree other} (reads : Reads nesting citation tree)
    (tighter : other.power ≤ level.power) (looser : other.follower ≤ level.follower)
    (signs : same.signs = tree.signs) (eval : same.eval citation = tree.eval citation)
    (depth : same.depth = tree.depth) : Reads nesting citation same := by
  intro room power mark next after builder binds follows bound
  rw [signs, eval, depth]
  exact reads room power mark next after builder (Nat.lt_of_lt_of_le binds tighter)
    (Nat.le_trans follows looser) bound

end Reads

theorem Tree.reads (nesting citation : Nat) {level : Level} (tree : Tree level) :
    Reads nesting citation tree := by
  induction tree with
  | identifier name => exact .identifier name
  | reference name => exact .reference name
  | group opening inner closing ih => exact ih.group
  | colon left gap right ihLeft ihRight => exact ihLeft.colon ihRight
  | bang left gap right ihLeft ihRight => exact ihLeft.bang ihRight
  | arrow left gap right ihLeft ihRight => exact ihLeft.arrow ihRight
  | assign name gap right ih => exact ih.assign
  | more earlier between last ihEarlier ihLast => exact ihEarlier.more ihLast
  | ofAtom tree ih => exact ih.lift (by decide) (by decide) rfl rfl rfl
  | ofProperty tree ih => exact ih.lift (by decide) (by decide) rfl rfl rfl
  | ofLabelled tree ih => exact ih.lift (by decide) (by decide) rfl rfl rfl
  | ofDescription tree ih => exact ih.lift (by decide) (by decide) rfl rfl rfl
  | single tree ih => exact ih.lift (by decide) (by decide) rfl rfl rfl

end FactGraph.Notation
