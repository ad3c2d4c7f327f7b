import FactGraph.Compilation
import FactGraph.Proofs.Notation.Reading

namespace FactGraph.Notation

open Attempt Precedence Precedence.Reader Token

namespace Program

def pauseSigns : Option Pause → List Sign
  | some pause => [.pause pause]
  | none => []

theorem textOf_pauseSigns (pause : Option Pause) : textOf (pauseSigns pause) = pauseText pause := by
  cases pause <;> simp [pauseSigns, pauseText, Sign.pause]

def signs (program : Program) : List Sign :=
  pauseSigns program.lead ++ (program.body.signs ++ pauseSigns program.trail)

theorem textOf_signs (program : Program) : textOf program.signs = program.text := by
  simp [signs, text, textOf_pauseSigns, Tree.textOf_signs]

theorem legible_trail (trail : Option Pause) :
    Legible (pauseSigns trail) [] ∧ Stops isEntityChar (textOf (pauseSigns trail) ++ []) := by
  cases trail with
  | none => exact ⟨trivial, .nil⟩
  | some pause =>
    refine ⟨⟨Sign.pause_spelled pause (by simp), trivial⟩, .append ?_ .nil⟩
    intro c inside
    simp only [pauseSigns, textOf_cons, textOf_nil, List.append_nil, Sign.pause] at inside
    exact isEntityChar_of_isTerminatorChar (pause.belonging c inside)

theorem legible_lead (lead : Option Pause) {rest : List Char}
    (next : ∀ c ∈ rest.head?, beginsOperand c = true) : Legible (pauseSigns lead) rest := by
  cases lead with
  | none => trivial
  | some pause => exact ⟨Sign.pause_spelled pause (by simpa using next), trivial⟩

theorem legible (program : Program) : Legible program.signs [] := by
  rcases legible_trail program.trail with ⟨trail, stop⟩
  obtain ⟨c, tail, begins, operand⟩ :=
    program.body.text_head (textOf (pauseSigns program.trail) ++ [])
  have lead : Legible (pauseSigns program.lead)
      (textOf (program.body.signs ++ pauseSigns program.trail) ++ []) := by
    rw [textOf_append, Tree.textOf_signs, List.append_assoc, begins]
    exact legible_lead program.lead (by simpa using operand)
  exact legible_append.2 ⟨lead, legible_append.2 ⟨program.body.legible stop, trail⟩⟩

def ending (program : Program) : Token :=
  Token.endOfInput ((Mark.start.past program.text).span 0)

theorem tokens_source (program : Program) :
    (Cursor.ofSource program.source).tokens =
      (tokensOf Mark.start program.signs ++ [program.ending]).map .ok := by
  have text : textOf program.signs ++ [] = program.source.toList := by
    simp [source, textOf_signs]
  have ended : Cursor.tokens ⟨[], Mark.start.past program.text⟩ = [.ok program.ending] :=
    Cursor.tokens_of_rest_nil rfl
  have read := tokens_of_legible program.legible Mark.start
  rw [text, textOf_signs, ended] at read
  rw [Cursor.ofSource, read, List.map_append]
  rfl

variable {nesting citation room : Nat} {builder : Builder} {mark : Mark} {ending : Token}

theorem follow_trail (mark : Mark) (trail : Option Pause) (ends : ending.kind = .endOfInput)
    (meaning : Option Meaning) :
    follow (Grammar.symbols citation)
        (expressionWithin (Grammar.symbols citation) nesting room) 0 meaning
        (facing (tokensOf mark (pauseSigns trail) ++ [ending]) builder) =
      (.ok meaning, facing [ending] builder) := by
  have stop : follow (Grammar.symbols citation)
      (expressionWithin (Grammar.symbols citation) nesting room) 0 meaning
      (facing [ending] builder) = (.ok meaning, facing [ending] builder) :=
    follow_facing_of_le (expressionWithin_consumes _ nesting room)
      (by rw [ends]; exact Nat.le_refl 0) meaning
  cases trail with
  | none => exact stop
  | some pause =>
    have closed : (facing [ending] builder).atConstructEnd = true := by
      simp [atConstructEnd, facing, ends, Kind.endsConstruct]
    have ended : run (Grammar.symbols citation)
        (expressionWithin (Grammar.symbols citation) nesting room)
        (Grammar.terminator ((Sign.pause pause).token mark) meaning) (facing [ending] builder) =
          (.ok meaning, facing [ending] builder) := by
      unfold Grammar.terminator
      rw [run_bind, bind_ok (run_ended_apply _ _ _), closed]
      rfl
    have follows : follow (Grammar.symbols citation)
        (expressionWithin (Grammar.symbols citation) nesting room) 0 meaning
        (facing ((Sign.pause pause).token mark :: [ending]) builder) =
          (run (Grammar.symbols citation)
            (expressionWithin (Grammar.symbols citation) nesting room)
            (Grammar.terminator ((Sign.pause pause).token mark) meaning) >>= fun value =>
              follow (Grammar.symbols citation)
                (expressionWithin (Grammar.symbols citation) nesting room) 0 value)
            (facing [ending] builder) :=
      follow_facing ((complete citation).knows _) (List.cons_ne_nil _ _)
        (show Kind.terminator ≠ .endOfInput by decide) rfl
        (expressionWithin_consumes _ nesting room)
        (show 0 < Grammar.Power.terminator by decide) meaning
    rw [bind_ok ended, stop] at follows
    exact follows

theorem body_agrees (body : Tree .sequence) (trail : Option Pause) (after : Mark)
    (ends : ending.kind = .endOfInput) (bound : builder.Bound Stated) :
    Agrees (.limit (.nesting nesting)) (room < body.depth)
      (expressionWithin (Grammar.symbols citation) nesting room 0
        (facing (tokensOf mark body.signs ++ (tokensOf after (pauseSigns trail) ++ [ending]))
          builder))
      (body.eval citation mark builder)
      fun meaning reached => (.ok (some meaning), facing [ending] reached) := by
  cases room with
  | zero => exact .inl ⟨body.depth_pos, rfl⟩
  | succ room =>
    have read (next : Token) (rest : List Token)
        (looser : (Grammar.symbols citation).power next.kind ≤ Level.sequence.follower) :=
      body.reads nesting citation room 0 mark next rest builder (by decide) looser bound
    cases trail with
    | none =>
      exact (read ending [] (by rw [ends]; exact Nat.zero_le _)).congr fun _ _ =>
        follow_trail after none ends _
    | some pause =>
      exact (read ((Sign.pause pause).token after) [ending] (Nat.le_refl _)).congr fun _ _ =>
        follow_trail after (some pause) ends _

theorem lead_agrees (pause : Pause) (body : Tree .sequence) (trail : Option Pause)
    (before after : Mark) (ends : ending.kind = .endOfInput) (bound : builder.Bound Stated) :
    Agrees (.limit (.nesting nesting)) (room < body.depth + 1)
      (expressionWithin (Grammar.symbols citation) nesting room 0
        (facing ((Sign.pause pause).token before ::
          (tokensOf mark body.signs ++ (tokensOf after (pauseSigns trail) ++ [ending]))) builder))
      (body.eval citation mark builder)
      fun meaning reached => (.ok (some meaning), facing [ending] reached) := by
  cases room with
  | zero => exact .inl ⟨Nat.succ_pos _, rfl⟩
  | succ room =>
    apply Reads.opened ((Sign.pause pause).token before) rfl (by simp)
    have goesOn :
        (facing (tokensOf mark body.signs ++ (tokensOf after (pauseSigns trail) ++ [ending]))
        builder).atConstructEnd = false := body.atConstructEnd_facing _ _ _
    rw [Form.skip, run_bind, bind_assoc, bind_ok (run_ended_apply _ _ _), goesOn]
    simp only [Bool.false_eq_true, if_false, run_expression]
    exact (Agrees.andThen ((body_agrees body trail after ends bound).mono Nat.succ_lt_succ)).congr
      fun _ _ => follow_trail after none ends _

theorem expression_agrees (program : Program) (ends : ending.kind = .endOfInput)
    (bound : builder.Bound Stated) :
    Agrees (.limit (.nesting nesting)) (nesting < program.depth)
      (expression (Grammar.symbols citation) nesting 0
        (facing (tokensOf Mark.start program.signs ++ [ending]) builder))
      (program.body.eval citation (Mark.start.past (pauseText program.lead)) builder)
      fun meaning reached => (.ok (some meaning), facing [ending] reached) := by
  rcases program with ⟨lead, body, trail⟩
  simp only [signs, tokensOf_append, textOf_pauseSigns, Tree.textOf_signs, List.append_assoc]
  cases lead with
  | none => exact body_agrees body trail _ ends bound
  | some pause => exact lead_agrees pause body trail _ _ ends bound

theorem atEndOfInput_facing (program : Program) (builder : Builder) :
    (facing (tokensOf Mark.start program.signs ++ [ending]) builder).atEndOfInput = false := by
  rcases program with ⟨lead, body, trail⟩
  apply Reader.atEndOfInput_facing (by simp)
  cases lead with
  | some pause => rfl
  | none =>
    simp only [signs, pauseSigns, List.nil_append, tokensOf_append, List.append_assoc]
    exact body.atConstructEnd_facing _ _ _

theorem sequence_agrees (program : Program) (ends : ending.kind = .endOfInput)
    (bound : builder.Bound Stated) :
    Agrees (.limit (.nesting nesting)) (nesting < program.depth)
      (sequence (Grammar.symbols citation) nesting
        (facing (tokensOf Mark.start program.signs ++ [ending]) builder))
      (program.eval citation builder)
      fun meanings reached => (.ok meanings, facing [ending] reached) := by
  have finished (reached : Builder) : sequence (Grammar.symbols citation) nesting
      (facing [ending] reached) = (.ok [], facing [ending] reached) := by
    rw [sequence_eq, if_pos (by simp [atEndOfInput, facing, ends])]
  rw [sequence_eq, program.atEndOfInput_facing]
  refine .chain (.andThen (expression_agrees program ends bound)) fun meaning reached _ => .inr ?_
  exact bind_ok (finished reached)

end Program

/-- Whatever the layout and the limits, compiling the text of a program gives the meanings, the
fault, the graph and the variables that the evaluation of its tree gives, unless the run meets the
limit of nesting; and it cannot meet it if the tree nests no deeper than that. -/
theorem parseFrom_source (program : Program) (limits : Limits) :
    Compilation.parseFrom Builder.empty limits program.source =
        program.eval limits.citation Builder.empty ∨
      (limits.nesting < program.depth ∧
        (Compilation.parseFrom Builder.empty limits program.source).1 =
          .error (.limit (.nesting limits.nesting))) := by
  have run : Compilation.parseFrom Builder.empty limits program.source =
      ((sequence (Grammar.symbols limits.citation) limits.nesting
          (facing (tokensOf Mark.start program.signs ++ [program.ending]) Builder.empty)).1,
        (sequence (Grammar.symbols limits.citation) limits.nesting
          (facing (tokensOf Mark.start program.signs ++ [program.ending])
            Builder.empty)).2.state) := by
    rw [← parse_eq_sequence (complete limits.citation) (by simp), ← program.tokens_source]
    rfl
  have ends : program.ending.kind = .endOfInput := rfl
  have agrees : Agrees (.limit (.nesting limits.nesting)) (limits.nesting < program.depth)
      (sequence (Grammar.symbols limits.citation) limits.nesting
        (facing (tokensOf Mark.start program.signs ++ [program.ending]) Builder.empty)) _ _ :=
    program.sequence_agrees ends Builder.bound_empty
  rw [run]
  rcases agrees with ⟨deep, stopped⟩ | same
  · exact .inr ⟨deep, stopped⟩
  · left
    rcases meant : program.eval limits.citation Builder.empty with ⟨fault | meanings, built⟩
    · rw [meant] at same
      exact Prod.ext same.1 same.2
    · rw [meant] at same
      rw [same]
      rfl

end FactGraph.Notation
