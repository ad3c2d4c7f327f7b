import FactGraph.Proofs.Grammar.Continuing

/-! A source that goes on behind a semicolon. What its beginning has stated on its own is still
stated, unless the beginning ends within the right side of a `=>` that terminators do not end. -/

namespace FactGraph

open Precedence

namespace Grammar

variable {citation nesting : Nat} {beyond : List (Except Fault Token)}

theorem extends_of_sequence {reader : Reader Builder}
    (sound : reader.Sound Builder.Sound Token.Valued) :
    reader.state.Extends (Reader.sequence (symbols citation) nesting reader).2.state := by
  have keep := (symbols_grow citation).keep reader.state
  have keeps : Attempt.Keeps
      (Reader.Sound (fun builder => builder.Sound ∧ reader.state.Extends builder) Token.Valued)
      (Reader.sequence (symbols citation) nesting) fun values =>
      ∀ meaning ∈ values, meaning.Named := by
    intro other kept
    exact Reader.sequenceWithin_keeps keep nesting other.pending.length other kept
  exact (Reader.grows_of_keeps (.refl _) keeps sound).1

theorem graph_of_courses {reader after other : Reader Builder} {calls : List Call}
    {values : List Meaning} {watch : Watch}
    (courses : Courses (symbols citation) nesting reader calls (.ok values, after))
    (abreast : reader.Abreast beyond other) (sound : other.Sound Builder.Sound Token.Valued)
    (outside : watch.depth = 0) :
    after.state.graph.Extends (Reader.sequence (symbols citation) nesting other).2.state.graph ∨
      DescribesLast citation nesting (Reader.Visits (symbols citation) nesting reader) ∧
        (watch.along (Call.kinds calls)).standing = .extended := by
  generalize ending : (Except.ok values, after) = result at courses
  induction courses generalizing values other watch beyond with
  | failed | laterFailed => cases ending
  | finished =>
    cases ending
    rw [abreast.state_eq]
    exact .inl (extends_of_sequence sound).graph
  | @more reader calls value middle later others last goes_on read rest ih =>
    cases ending
    have outcome :=
      expression_accompanied nesting 0 _ _ _ _ _ watch read abreast (.expression sound)
    rw [Reader.sequence_of_goes_on abreast.goes_on, Call.kinds_append, Watch.along_append]
    rcases run : (Task.expression nesting 0).step (symbols citation) nesting other
      with ⟨answer, further⟩
    rw [run] at outcome
    have sound_after (value : Option Meaning) (ran : answer = .ok value) :
        further.Sound Builder.Sound Token.Valued := by
      have proper : Proper ⟨.expression nesting 0, other⟩ := .expression sound
      exact (proper.ends (keep citation) (ran ▸ run)).1
    cases outcome with
    | abreast keeps readers =>
      rw [Attempt.bind_ok run, Attempt.snd_bind_pure]
      have later := ih readers (sound_after _ rfl) (keeps.depth.trans outside) rfl
      exact later.imp_right (.imp_left (.imp fun _ => .later goes_on read.step_eq))
    | parted ended _ stays =>
      -- The first run is at its end, so this expression is its last.
      have done : after = middle ∧ later = [] := by
        cases rest with
        | finished => exact ⟨rfl, rfl⟩
        | more goes_on => exact absurd (goes_on.symm.trans ended.atEndOfInput) nofun
      obtain ⟨rfl, rfl⟩ := done
      refine (stays outside).imp ?_ (.imp_left (.imp fun _ => .now goes_on))
      intro extended
      rcases answer with fault | found
      · rw [Attempt.bind_error run]
        exact extended
      · rw [Attempt.bind_ok run, Attempt.snd_bind_pure]
        exact extended.trans (extends_of_sequence (sound_after found rfl)).graph

theorem graph_of_wholeCourse {reader after other : Reader Builder} {calls : List Call}
    {values : List Meaning}
    (course : WholeCourse (symbols citation) nesting reader calls (.ok values, after))
    (unbegun : reader.current = none ∧ other.current = none) (state : reader.state = other.state)
    (continues : Token.Continues beyond reader.pending other.pending)
    (sound : other.Sound Builder.Sound Token.Valued) :
    after.state.graph.Extends (Reader.parse (symbols citation) nesting other).2.state.graph ∨
      DescribesLast citation nesting (reader.Meets (symbols citation) nesting) ∧
        (Watch.start.along (Call.kinds calls)).standing = .extended := by
  cases course with
  | begun passed courses =>
    rcases Reader.exists_of_advance passed with ⟨rest, pending, rfl⟩
    rcases Reader.Abreast.of_continues continues reader.state with
      ⟨token, tokens, second, later, own, others, abreast⟩
    rw [pending] at own
    obtain ⟨same, rfl⟩ := List.cons.inj own
    obtain rfl := Except.ok.inj same
    have begun : Reader.advance (symbols citation) none other =
        (.ok second, ⟨later, some second, reader.state⟩) := by
      simp only [Reader.advance, Reader.obstacle?, unbegun.2, others,
        Notation.complete citation second.kind, if_true, state]
    have sound_begun : Reader.Sound Builder.Sound Token.Valued
        ⟨later, some second, reader.state⟩ :=
      ((Reader.advance_keeps (symbols citation) none).of_ok sound begun).1
    have whole : Reader.parse (symbols citation) nesting other =
        Reader.sequence (symbols citation) nesting ⟨later, some second, reader.state⟩ :=
      Attempt.bind_ok begun
    rw [whole]
    refine (graph_of_courses courses abreast sound_begun rfl).imp_right (.imp_left (.imp ?_))
    intro stage visits
    exact ⟨_, _, passed, visits⟩

end Grammar

namespace Compilation

open Grammar

/-- The tokens of a source whose run has an answer are those that it takes, and the end of the
input. -/
theorem exists_calls {table : Symbols Builder Meaning} {nesting : Nat} {source : String}
    {start : Builder} {values : List Meaning} {after : Reader Builder}
    (parsed : Reader.parse table nesting (Reader.ofSource source start) = (.ok values, after)) :
    ∃ calls last, WholeCourse table nesting (Reader.ofSource source start) calls
      (.ok values, after) ∧
      last.kind = .endOfInput ∧
      (Token.Cursor.ofSource source).tokens = Call.taken calls ++ [.ok last] := by
  rcases WholeCourse.exists_of_parse table nesting (Reader.ofSource source start)
    with ⟨calls, course⟩
  rw [parsed] at course
  rcases course.takes with ⟨rest, split, left_over⟩
  rcases left_over values rfl with ⟨last, later, rfl, ends⟩
  have whole : (Token.Cursor.ofSource source).tokens = Call.taken calls ++ .ok last :: later :=
    split
  obtain rfl := (Token.Cursor.tokens_ofSource source).eq_nil_of_endOfInput whole ends
  exact ⟨calls, last, course, ends, whole⟩

theorem exists_wholeCourse {source : String} {limits : Limits} {compilation : Compilation}
    (compiled : ofSource source limits = .ok compilation) :
    ∃ calls after last,
      WholeCourse (symbols limits.citation) limits.nesting
        (Reader.ofSource source Builder.empty) calls (.ok compilation.meanings, after) ∧
      after.state.graph = compilation.graph ∧ last.kind = .endOfInput ∧
      (Token.Cursor.ofSource source).tokens = Call.taken calls ++ [.ok last] := by
  rcases parsed : Reader.parse (symbols limits.citation) limits.nesting
    (Reader.ofSource source Builder.empty) with
    ⟨answer, after⟩
  rw [ofSource, parseFrom, parsed] at compiled
  cases answer with
  | error fault => contradiction
  | ok meanings =>
    obtain rfl := Except.ok.inj compiled
    rcases exists_calls parsed with ⟨calls, last, course, ends, whole⟩
    exact ⟨calls, after, last, course, rfl, ends, whole⟩

theorem standing_of_tokens {source : String} {calls : List Call} {last : Token}
    (tokens : (Token.Cursor.ofSource source).tokens = Call.taken calls ++ [.ok last])
    (ends : last.kind = .endOfInput) :
    Standing.ofSource source = (Watch.start.along (Call.kinds calls)).standing := by
  have kinds : kindsOf (Call.taken calls ++ [.ok last]) = Call.kinds calls ++ [.endOfInput] := by
    simp [kindsOf, Call.taken, Call.kinds, List.filterMap_map, Except.toOption, ends]
  rw [Standing.ofSource, tokens, kinds, Watch.along_append]
  change ((Watch.start.along (Call.kinds calls)).past .endOfInput).standing = _
  rw [Watch.standing_past, Standing.past_endOfInput, ite_self]

/-- At its end the source is within the right side of a `=>` with entities on its left, and this is
not ended by a terminator, since one stands where its operand should begin. -/
def EndsDescribing (source : String) (limits : Limits) : Prop :=
  Standing.ofSource source = .extended ∧
    DescribesLast limits.citation limits.nesting
      ((Reader.ofSource source Builder.empty).Meets (symbols limits.citation) limits.nesting)

/-- What a source states on its own it states in front of a semicolon and any other text, too, at
the same places, unless it ends within the right side of a `=>` that terminators do not end. -/
theorem graph_stays_before_semicolon {source : String} {limits : Limits} {compilation : Compilation}
    (compiled : ofSource source limits = .ok compilation) (settled : ¬ EndsDescribing source limits)
    (more : String) :
    let graph := (parseFrom Builder.empty limits (source ++ ";" ++ more)).2.graph
    compilation.graph.triples <+: graph.triples ∧
      ∀ ident, compilation.graph.hasStatement ident = true →
        graph.place? ident = compilation.graph.place? ident := by
  rcases exists_wholeCourse compiled with ⟨calls, after, last, course, graph, ends, tokens⟩
  have clean : ∀ fault, .error fault ∉ (Token.Cursor.ofSource source).tokens := by
    simp [tokens, Call.taken]
  have longer : Token.Scanned [] (source.toList ++ ';' :: more.toList)
      (Token.Cursor.ofSource (source ++ ";" ++ more)).tokens := by
    have scanned := Token.Cursor.tokens_ofSource (source ++ ";" ++ more)
    simpa using scanned
  rcases (Token.Cursor.tokens_ofSource source).continues clean longer with ⟨_, _, continues, _⟩
  have unbegun : (Reader.ofSource source Builder.empty).current = none ∧
      (Reader.ofSource (source ++ ";" ++ more) Builder.empty).current = none := ⟨rfl, rfl⟩
  rcases graph_of_wholeCourse course unbegun rfl continues (sound_ofSource _) with extended | open_
  · rw [← graph]
    exact ⟨extended.triples, extended.placed⟩
  · exact absurd ⟨(standing_of_tokens tokens ends).trans open_.2, open_.1⟩ settled

theorem graph_stays_before_unfinished :
    ∃ compilation, ofSource "a => b:c" .standard = .ok compilation ∧
    ¬ EndsDescribing "a => b:c" .standard ∧
      let graph := (parseFrom Builder.empty .standard ("a => b:c" ++ ";" ++ "d => (")).2.graph
      compilation.graph.triples <+: graph.triples ∧
        ∀ ident, compilation.graph.hasStatement ident = true →
          graph.place? ident = compilation.graph.place? ident := by
  have compiled : ofSource "a => b:c" .standard =
      .ok ((ofSource "a => b:c" .standard).toOption.get (by decide +kernel)) := by
    decide +kernel
  have settled : ¬ EndsDescribing "a => b:c" .standard := by
    rintro ⟨extended, _⟩
    exact absurd extended (by decide +kernel)
  exact ⟨_, compiled, settled, graph_stays_before_semicolon compiled settled "d => ("⟩

/-- A right side that a terminator begins. It takes the entity behind the semicolon as well, which
is none of its properties, and then nothing is stated. -/
theorem statement_lost_behind_semicolon :
    ∃ compilation, ofSource "a => ;b:c" .standard = .ok compilation ∧
      ¬ compilation.graph.triples <+:
        (parseFrom Builder.empty .standard ("a => ;b:c" ++ ";" ++ "x")).2.graph.triples := by
  refine ⟨(ofSource "a => ;b:c" .standard).toOption.get (by decide +kernel), ?_, ?_⟩
  · decide +kernel
  · decide +kernel

end Compilation

end FactGraph
