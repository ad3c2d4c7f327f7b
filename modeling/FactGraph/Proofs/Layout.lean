import FactGraph.Proofs.Grammar.Unplaced
import FactGraph.Proofs.Notation.Layout
import FactGraph.Proofs.Token.Covering
import Mathlib.Control.Monad.Basic
import Mathlib.Logic.Relation

namespace FactGraph

open Token Notation

namespace Token

def outlined (outcome : Except Fault Token) : Except Fault (Kind × Option String) :=
  (outcome.map Token.outline).mapError Fault.unplaced

def outlines (cursor : Cursor) : List (Except Fault (Kind × Option String)) :=
  cursor.tokens.map outlined

theorem outlines_eq (rest : List Char) (mark mark' : Mark) :
    outlines ⟨rest, mark⟩ = outlines ⟨rest, mark'⟩ := by
  unfold outlines
  by_cases ended : rest = []
  · rw [Cursor.tokens_of_rest_nil ended, Cursor.tokens_of_rest_nil ended]
    rfl
  · have token (mark : Mark) :=
      Cursor.token_of_rest_ne_nil (show (Cursor.mk rest mark).rest ≠ [] from ended)
    cases found : Pattern.first? rest Pattern.all with
    | none =>
      simp only [found] at token
      rw [Cursor.tokens_of_fault ended (token mark), Cursor.tokens_of_fault ended (token mark')]
      rfl
    | some hit =>
      rcases hit with ⟨kind, lexeme⟩
      simp only [found] at token
      have shorter := Pattern.length_rest_lt_of_first? found
      rw [Cursor.tokens_of_token ended (token mark), Cursor.tokens_of_token ended (token mark')]
      exact congrArg₂ List.cons rfl (outlines_eq lexeme.rest _ _)
termination_by rest.length

end Token

namespace Notation

variable {signs : List Sign} {rest : List Char}

theorem map_outlined_tokensOf (mark : Mark) (signs : List Sign) :
    ((tokensOf mark signs).map .ok).map outlined = (signs.map Sign.outline).map .ok := by
  induction signs generalizing mark with
  | nil => rfl
  | cons sign signs ih => exact congrArg₂ List.cons rfl (ih _)

theorem outlines_of_legible (legible : Legible signs rest) (mark : Mark) :
    outlines ⟨textOf signs ++ rest, mark⟩ =
      (signs.map Sign.outline).map .ok ++ outlines ⟨rest, mark.past (textOf signs)⟩ := by
  rw [outlines, tokens_of_legible legible, List.map_append, map_outlined_tokensOf]
  rfl

theorem outlines_eq_of_signs {source edited : String} {others : List Sign}
    (legible : Legible signs rest) (whole : source.toList = textOf signs ++ rest)
    (relaid : Legible others rest) (same : edited.toList = textOf others ++ rest)
    (outline : others.map Sign.outline = signs.map Sign.outline) :
    outlines (Cursor.ofSource edited) = outlines (Cursor.ofSource source) := by
  rw [Cursor.ofSource, Cursor.ofSource, same, whole, outlines_of_legible relaid,
    outlines_of_legible legible, outline, outlines_eq rest]

theorem joined_tokensOf (mark : Mark) (signs : List Sign) :
    joined (tokensOf mark signs) = textOf signs := by
  induction signs generalizing mark with
  | nil => rfl
  | cons sign signs ih =>
    have text : (sign.token mark).text.toList = sign.text := String.toList_ofList
    rw [tokensOf, joined, List.flatMap_cons, text, textOf_cons, ← ih]
    rfl

variable {cursor : Cursor} {token : Token} {after : List (Except Fault Token)}

theorem exists_sign_of_tokens (read : cursor.tokens = .ok token :: after)
    (unended : token.kind ≠ .endOfInput) :
    ∃ (sign : Sign) (rest : List Char), cursor.rest = sign.text ++ rest ∧ sign.Spelled rest ∧
      token = sign.token cursor.mark ∧
      after = Cursor.tokens ⟨rest, cursor.mark.past sign.text⟩ := by
  by_cases ended : cursor.rest = []
  · rw [Cursor.tokens_of_rest_nil ended] at read
    obtain rfl := Except.ok.inj (List.cons.inj read).1
    exact absurd rfl unended
  · have next := Cursor.token_of_rest_ne_nil ended
    cases found : Pattern.first? cursor.rest Pattern.all with
    | none =>
      simp only [found] at next
      rw [Cursor.tokens_of_fault ended next] at read
      simp at read
    | some hit =>
      rcases hit with ⟨kind, lexeme⟩
      simp only [found] at next
      rw [Cursor.tokens_of_token ended next] at read
      have whole := (Pattern.append_of_first? found).1
      refine ⟨⟨kind, lexeme.text, lexeme.value⟩, lexeme.rest, whole.symm, ?_, ?_,
        (List.cons.inj read).2.symm⟩
      · rwa [Sign.Spelled, whole]
      · exact (Except.ok.inj (List.cons.inj read).1).symm

theorem exists_signs_of_tokens {tokens : List Token}
    (read : cursor.tokens = tokens.map .ok ++ after)
    (unended : ∀ token ∈ tokens, token.kind ≠ .endOfInput) :
    ∃ signs rest, cursor.rest = textOf signs ++ rest ∧
    Legible signs rest ∧ tokens = tokensOf cursor.mark signs ∧
      after = Cursor.tokens ⟨rest, cursor.mark.past (textOf signs)⟩ := by
  induction tokens generalizing cursor with
  | nil => exact ⟨[], cursor.rest, rfl, trivial, rfl, read.symm⟩
  | cons token tokens ih =>
    rcases exists_sign_of_tokens read (unended token List.mem_cons_self) with
      ⟨sign, behind, whole, spelled, rfl, later⟩
    rcases ih later.symm fun token inside => unended token (List.mem_cons_of_mem _ inside) with
      ⟨signs, rest, whole', legible, rfl, ending⟩
    obtain rfl : behind = textOf signs ++ rest := whole'
    refine ⟨sign :: signs, rest, ?_, ⟨spelled, legible⟩, rfl, ?_⟩
    · rw [whole, textOf_cons, List.append_assoc]
    · rw [ending, textOf_cons, Mark.past_append]

/-- The tokens in front of a token of a source are a row of signs, and the token is read behind
them. -/
theorem exists_row {source : String} {before : List Token}
    (read : (Cursor.ofSource source).tokens = before.map .ok ++ .ok token :: after) :
    ∃ early rest, source.toList = textOf early ++ rest ∧
    Legible early rest ∧ joined before = textOf early ∧
      Cursor.tokens ⟨rest, Mark.start.past (textOf early)⟩ = .ok token :: after := by
  -- Nothing is read behind the end of the input, but the token is read behind all of these.
  have unended : ∀ other ∈ before, other.kind ≠ .endOfInput := by
    intro other inside ends
    rcases List.append_of_mem inside with ⟨first, second, rfl⟩
    have split : (Cursor.ofSource source).tokens =
        first.map .ok ++ .ok other :: (second.map .ok ++ .ok token :: after) := by simp [read]
    have none := (Cursor.tokens_ofSource source).eq_nil_of_endOfInput split ends
    simp at none
  rcases exists_signs_of_tokens read unended with ⟨early, rest, whole, legible, rfl, later⟩
  exact ⟨early, rest, whole, legible, joined_tokensOf _ early, later.symm⟩

theorem exists_row_snoc {source : String} {before : List Token}
    (read : (Cursor.ofSource source).tokens = before.map .ok ++ .ok token :: after)
    (unended : token.kind ≠ .endOfInput) :
    ∃ early sign rest, source.toList = textOf early ++ (sign.text ++ rest) ∧
    Legible (early ++ [sign]) rest ∧
      joined before = textOf early ∧ token.kind = sign.kind ∧ token.text.toList = sign.text := by
  rcases exists_row read with ⟨early, behind, whole, legible, front, later⟩
  rcases exists_sign_of_tokens later unended with ⟨sign, rest, rfl, spelled, rfl, -⟩
  refine ⟨early, sign, rest, whole, legible_append.2 ⟨?_, spelled, trivial⟩, front, rfl,
    String.toList_ofList⟩
  simpa using legible

end Notation

/-- One change of layout. Blanks are put in front of a sign that takes them there, or behind one
that takes them there, anywhere among those that the sign has; or the pause between two operands is
replaced. -/
inductive Relaid (source edited : String) : Prop
  | blanks {before : List Token} {token : Token} {after : List (Except Fault Token)}
      {first second rest : List Char}
      (read : (Cursor.ofSource source).tokens = before.map .ok ++ .ok token :: after)
      (text : token.text.toList = first ++ second) (loose : Loose token.kind first second)
      (whole : source.toList = joined before ++ (first ++ (second ++ rest))) (blanks : Blanks)
      (same : edited.toList = joined before ++ (first ++ (blanks.text ++ (second ++ rest))))
  | pause {before : List Token} {left token right : Token} {after : List (Except Fault Token)}
      {rest : List Char} (read : (Cursor.ofSource source).tokens = before.map .ok ++
        .ok left :: .ok token :: .ok right :: after)
      (ends : left.kind ∈ endingKinds) (kind : token.kind = .terminator)
      (starts : right.kind ∈ startingKinds)
      (whole : source.toList = joined before ++ (left.text.toList ++ (token.text.toList ++ rest)))
      (pause : Pause) (same : edited.toList =
        joined before ++ (left.text.toList ++ (pause.text ++ rest)))

namespace Relaid

variable {source edited : String}

theorem ne_endOfInput_of_mem {kinds : List Kind} {kind : Kind} (inside : kind ∈ kinds)
    (none : .endOfInput ∉ kinds) : kind ≠ .endOfInput := by
  rintro rfl
  exact none inside

theorem ne_endOfInput_of_loose {kind : Kind} {first second : List Char}
    (loose : Loose kind first second) :
    kind ≠ .endOfInput := by
  rcases loose with ⟨leads, -⟩ | ⟨trails, -⟩
  · exact ne_endOfInput_of_mem leads (by decide)
  · exact ne_endOfInput_of_mem trails (by decide)

theorem outlines_eq (change : Relaid source edited) :
    outlines (Cursor.ofSource edited) = outlines (Cursor.ofSource source) := by
  cases change with
  | @blanks before token after first second rest read text loose whole blanks same =>
    rcases exists_row_snoc read (ne_endOfInput_of_loose loose) with
      ⟨early, sign, rest', start, legible, front, kind, shape⟩
    have cut : sign.text = first ++ second := shape.symm.trans text
    obtain rfl : rest' = rest := by
      rw [whole, front, cut, List.append_assoc] at start
      simpa using start.symm
    rw [kind] at loose
    -- Only the signs at the cut change, and they still say the same.
    rcases legible.widen cut loose blanks with ⟨others, relaid, outline, spaced⟩
    refine outlines_eq_of_signs legible ?_ relaid ?_ outline
    · rw [start]
      simp
    · rw [same, front, spaced]
      simp
  | @pause before left token right after rest read ends kind starts whole between same =>
    rcases exists_row read with ⟨early, _, start, legible, front, readLeft⟩
    rcases exists_sign_of_tokens readLeft (ne_endOfInput_of_mem ends (by decide)) with
      ⟨first, _, rfl, spelled, rfl, readPause⟩
    rcases exists_sign_of_tokens readPause.symm (by rw [kind]; decide) with
      ⟨middle, _, follows, spelled', rfl, readRight⟩
    rcases exists_sign_of_tokens readRight.symm (ne_endOfInput_of_mem starts (by decide)) with
      ⟨last, rest', follows', spelled'', rfl, -⟩
    subst follows follows'
    have row : Legible (early ++ [first, middle, last]) rest' := by
      refine legible_append.2 ⟨?_, ?_, ?_, spelled'', trivial⟩
      · simpa using legible
      · simpa using spelled
      · simpa using spelled'
    have texts (sign : Sign) (mark : Mark) : (sign.token mark).text.toList = sign.text :=
      String.toList_ofList
    obtain rfl : rest = last.text ++ rest' := by
      rw [whole, front, texts, texts] at start
      simpa using start
    refine outlines_eq_of_signs row ?_ (row.replace_pause ends kind starts between) ?_ ?_
    · rw [start]
      simp
    · rw [same, front, texts]
      simp
    · simp

end Relaid

theorem forall₂_due_of_outlined_eq {first second : List (Except Fault Token)}
    (same : first.map outlined = second.map outlined) :
    List.Forall₂ (Precedence.Reader.Due Grammar.placeless) first second := by
  have equal : List.Forall₂ (fun left right => outlined left = outlined right) first second := by
    rwa [← List.forall₂_map_right_iff, ← List.forall₂_map_left_iff, List.forall₂_eq_eq_eq]
  refine equal.imp ?_
  intro left right same
  cases left <;> cases right
  · exact .fault (Except.error.inj same)
  · contradiction
  · contradiction
  · exact .token (Except.ok.inj same)

theorem forall₂_due_of_outlines_eq {first second : Cursor}
    (same : outlines first = outlines second) :
    List.Forall₂ (Precedence.Reader.Due Grammar.placeless) first.tokens second.tokens :=
  forall₂_due_of_outlined_eq same

/-- Sources that come from each other by any changes of layout have the same tokens, but for texts
and places, up to the same fault; and under any limits they come to the same, but for places. -/
theorem layout_without_meaning {source edited : String}
    (changes : Relation.EqvGen Relaid source edited) :
    outlines (Cursor.ofSource edited) = outlines (Cursor.ofSource source) ∧
      ∀ limits, Compilation.outline (Compilation.ofSource edited limits) =
        Compilation.outline (Compilation.ofSource source limits) := by
  have tokens : outlines (Cursor.ofSource edited) = outlines (Cursor.ofSource source) := by
    induction changes with
    | rel _ _ change => exact change.outlines_eq
    | refl => rfl
    | symm _ _ _ ih => exact ih.symm
    | trans _ _ _ _ _ ih ih' => exact ih'.trans ih
  exact ⟨tokens, fun limits =>
    Compilation.outline_ofSource_eq limits (forall₂_due_of_outlines_eq tokens)⟩

theorem layout_without_meaning_lines :
    Relation.EqvGen Relaid "a=>b;c:d" "a\n =>b\n\nc:d" ∧
      outlines (Cursor.ofSource "a\n =>b\n\nc:d") = outlines (Cursor.ofSource "a=>b;c:d") ∧
      ∀ limits, Compilation.outline (Compilation.ofSource "a\n =>b\n\nc:d" limits) =
        Compilation.outline (Compilation.ofSource "a=>b;c:d" limits) := by
  let subject : Token := ⟨.identifier, "a", some "a", ⟨0, 1, 1, 1⟩⟩
  have arrow : Relaid "a=>b;c:d" "a\n =>b;c:d" := by
    let token : Token := ⟨.arrow, "=>", none, ⟨1, 3, 1, 2⟩⟩
    have read : (Cursor.ofSource "a=>b;c:d").tokens =
        [subject].map .ok ++ .ok token :: (Cursor.ofSource "a=>b;c:d").tokens.drop 2 := by
      decide +kernel
    have loose : Loose token.kind [] ['=', '>'] := .inl ⟨by decide, List.forall_mem_nil _⟩
    have whole : "a=>b;c:d".toList = joined [subject] ++
        ([] ++ (['=', '>'] ++ "b;c:d".toList)) := by decide
    let blanks : Blanks := ⟨['\n', ' '], List.all_eq_true.1 (by decide)⟩
    have same : "a\n =>b;c:d".toList =
        joined [subject] ++ ([] ++ (blanks.text ++ (['=', '>'] ++ "b;c:d".toList))) := by decide
    exact .blanks read (by decide) loose whole blanks same
  have line : Relaid "a\n =>b;c:d" "a\n =>b\n\nc:d" := by
    let before : List Token := [subject, ⟨.arrow, "\n =>", none, ⟨3, 5, 2, 2⟩⟩]
    let left : Token := ⟨.identifier, "b", some "b", ⟨5, 6, 2, 4⟩⟩
    let token : Token := ⟨.terminator, ";", none, ⟨6, 7, 2, 5⟩⟩
    let right : Token := ⟨.identifier, "c", some "c", ⟨7, 8, 2, 6⟩⟩
    have read : (Cursor.ofSource "a\n =>b;c:d").tokens = before.map .ok ++
        .ok left :: .ok token :: .ok right :: (Cursor.ofSource "a\n =>b;c:d").tokens.drop 5 := by
      decide +kernel
    have ends : left.kind ∈ endingKinds := by decide
    have starts : right.kind ∈ startingKinds := by decide
    have whole : "a\n =>b;c:d".toList =
        joined before ++ (left.text.toList ++ (token.text.toList ++ "c:d".toList)) := by decide
    let pause : Pause := ⟨['\n', '\n'], by decide, List.all_eq_true.1 (by decide)⟩
    have same : "a\n =>b\n\nc:d".toList =
        joined before ++ (left.text.toList ++ (pause.text ++ "c:d".toList)) := by decide
    exact .pause read ends rfl starts whole pause same
  have changes : Relation.EqvGen Relaid "a=>b;c:d" "a\n =>b\n\nc:d" :=
    .trans _ _ _ (.rel _ _ arrow) (.rel _ _ line)
  exact ⟨changes, layout_without_meaning changes⟩

end FactGraph
