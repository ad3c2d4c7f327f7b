import FactGraph.Proofs.Limits
import FactGraph.Proofs.Seam

namespace FactGraph

open Precedence Token

namespace Grammar

variable {citation nesting within : Nat} {alone : Fault → Prop} {start : Builder}
  {first source : String} {values : List Meaning} {after : Reader Builder}

theorem tokens_indistinct (alone : Fault → Prop) (source : String) :
    (indistinct alone).Tokens source := by
  intro first second own others
  refine (forall₂_due_of_outlined_eq (own.trans others.symm)).imp ?_
  rintro _ _ (same | same)
  · exact .token (Token.corresponds_eq_iff.2 same)
  · refine .fault ?_
    rw [likeness_indistinct]
    exact same

theorem unplaced_of_indistinct {builder other : Builder}
    (states : (indistinct alone).likeness.state builder other) :
    builder.unplaced = other.unplaced := by
  rw [likeness_indistinct] at states
  exact states

theorem indistinct_of_unplaced {builder other : Builder}
    (same : builder.unplaced = other.unplaced) :
    (indistinct alone).likeness.state builder other := by
  rw [likeness_indistinct]
  exact same

theorem extends_of_sequel {reader : Reader Builder}
    (sound : reader.Sound Builder.Sound Token.Valued) {value : Option Meaning}
    (named : Each Meaning.Named value) (room upper : Nat) (pause : Token)
    (answer : Option Meaning → List Meaning → List Meaning) :
    reader.state.Extends ((resume (symbols citation) nesting room upper pause value >>= fun found =>
      Reader.sequence (symbols citation) nesting >>= fun more =>
          pure (answer found more)) reader).2.state := by
  have closed := closed_growing citation reader.state
  have keep := closed.symbols_keep
  have joins := (Task.action room (terminator pause value)).keeps keep nesting
    (fun same => (Task.action.inj same).2 ▸ (closed.terminator (fun _ => True) trivial named).keeps)
    nofun
  have follows (found : Option Meaning) (good : Each Meaning.Named found) :=
    (Task.follow upper 0 found).keeps keep nesting nofun fun same =>
    (Task.follow.inj same).2.2 ▸ good
  have later : Attempt.Keeps _ (Reader.sequence (symbols citation) nesting) _ := fun other kept =>
    Reader.sequenceWithin_keeps keep nesting other.pending.length other kept
  have keeps := (joins.bind follows).bind fun found _ => later.bind fun more _ =>
    (Attempt.Keeps.pure trivial : Attempt.Keeps _ (pure (answer found more)) fun _ => True)
  exact (Reader.grows_of_keeps (.refl _) keeps sound).1

theorem valued_of_outlined {outcomes : List (Except Fault Token)} {cursor : Cursor}
    (same : outcomes.map outlined = outlines cursor) (token : Token)
    (inside : .ok token ∈ outcomes) : token.Valued := by
  rcases exists_token_of_outlined same inside with ⟨other, read, outline⟩
  have valued : other.Valued := Cursor.isSome_value_of_mem_tokens cursor other read
  rw [Token.outline, Token.outline, Prod.mk.injEq] at outline
  rwa [Token.Valued, outline.1, outline.2] at valued

theorem extends_of_joined
    (parsed : Reader.parse (symbols citation) nesting (Reader.ofSource first start) =
      (.ok values, after))
    (sound : start.Sound) (room : 0 < nesting) (free : (Trail.ofSource first).held = false)
    (begins : ∃ outline later, outlines ⟨unpaused source, .start⟩ = .ok outline :: later) :
    after.state.Sound ∧ after.state.Extends
      (Reader.parse (symbols citation) nesting
        (Reader.ofSource (first ++ ";" ++ source) start)).2.state := by
  rcases (Reader.parse_keeps (keep citation) nesting).of_ok (sound.ofSource first) parsed
    with ⟨kept, named⟩
  rcases parse_joined parsed room free .start begins with
    ⟨next, rest, outlines, early, value, pause, inner, upper, rfl, _, _, _, _, ending⟩
  have tokens := valued_of_outlined outlines
  have behind : Reader.Sound Builder.Sound Token.Valued ⟨rest, some next, after.state⟩ := by
    refine ⟨kept.state, ?_, fun token inside => tokens token (List.mem_cons_of_mem _ inside)⟩
    rintro token held
    obtain rfl := Option.some.inj held
    exact tokens _ List.mem_cons_self
  rw [ending]
  refine ⟨kept.state, extends_of_sequel behind ?_ inner upper pause _⟩
  intro meaning mem
  exact named meaning (List.mem_append_right _ (Option.mem_toList.2 mem))

end Grammar

def Limits.widened (limits : Limits) : Limits := { limits with nesting := limits.nesting + 2 }

theorem Limits.within_widened (limits : Limits) : limits.Within limits.widened :=
  ⟨Nat.le_add_right _ _, Nat.le_refl _⟩

namespace Compilation

open Grammar

/-- Sources that are read one after the other, each behind what those before it have built. All of
them are statements. -/
inductive Reads (limits : Limits) : Builder → List String → Builder → Prop
  | none {builder : Builder} : Reads limits builder [] builder
  | next {builder middle final : Builder} {source : String} {rest : List String}
      {values : List Meaning} (read : parseFrom builder limits source = (.ok values, middle))
      (stated : AllStated values) (later : Reads limits middle rest final) :
      Reads limits builder (source :: rest) final

def joined (first : String) (rest : List String) : String :=
  rest.foldl (fun text source => text ++ ";" ++ source) first

/-- Nowhere in front of a semicolon between the sources is an operand being read that a terminator
has begun. -/
def ReleasedBetween (first : String) : List String → Prop
  | [] => True
  | source :: rest =>
    (Trail.ofSource first).held = false ∧ ReleasedBetween (first ++ ";" ++ source) rest

variable {limits : Limits} {start builder middle next final : Builder} {first source : String}
  {rest : List String} {values others : List Meaning}

theorem exists_parse_of_parseFrom (ran : parseFrom builder limits source = (.ok values, next)) :
    ∃ after, Reader.parse (symbols limits.citation) limits.nesting
      (Reader.ofSource source builder) = (.ok values, after) ∧
      after.state = next := by
  unfold parseFrom at ran
  rcases parsed : Reader.parse (symbols limits.citation) limits.nesting
    (Reader.ofSource source builder) with
    ⟨answer, after⟩
  rw [parsed] at ran
  obtain ⟨rfl, rfl⟩ := Prod.mk.inj ran
  exact ⟨after, rfl, rfl⟩

theorem exists_joined_next (ran : parseFrom start limits.widened first = (.ok values, middle))
    (sound : start.Sound) (stated : AllStated values)
    (read : parseFrom builder limits source = (.ok others, next)) (stated_next : AllStated others)
    (same : builder.unplaced = middle.unplaced) (free : (Trail.ofSource first).held = false) :
    ∃ values after, parseFrom start limits.widened (first ++ ";" ++ source) = (.ok values, after) ∧
      AllStated values ∧ next.unplaced = after.unplaced ∧ middle.Extends after ∧ middle.Sound := by
  rcases exists_parse_of_parseFrom ran with ⟨after, parsed, rfl⟩
  rcases exists_parse_of_parseFrom read with ⟨last, also, rfl⟩
  have carried : (indistinct fun fault => fault.isLimit = true).Carried limits.citation
      fun _ => True :=
    indistinct_carried _
  rcases parse_joined_of_parts carried.fair (separates _) (symbols_indistinct _ _) parsed stated
    free also stated_next (Nat.le_refl _) rfl (indistinct_of_unplaced same)
    (tokens_indistinct _ source) with
    ⟨joined, ending, whole, stated_joined, states⟩
  rcases parse_unpaused (separates _) also .start with ⟨_, _, _, _, _, _, _, _, _, outlines, _⟩
  rcases extends_of_joined parsed sound (Nat.succ_pos _) free ⟨_, _, outlines.symm⟩
    with ⟨sound_after, extended⟩
  rw [whole] at extended
  refine ⟨joined, ending.state, ?_, stated_joined, unplaced_of_indistinct states,
    extended, sound_after⟩
  simp only [parseFrom, Limits.widened] at whole ⊢
  rw [whole]

theorem exists_joined_all (reads : Reads limits builder rest final)
    (ran : parseFrom start limits.widened first = (.ok values, middle)) (sound : start.Sound)
    (stated : AllStated values) (same : builder.unplaced = middle.unplaced)
    (released : ReleasedBetween first rest) :
    ∃ values after, parseFrom start limits.widened (joined first rest) = (.ok values, after) ∧
    AllStated values ∧
      after.unplaced = final.unplaced ∧ middle.Extends after := by
  induction reads generalizing first values middle with
  | none => exact ⟨values, middle, ran, stated, same.symm, .refl middle⟩
  | next read stated_next _ ih =>
    rcases exists_joined_next ran sound stated read stated_next same released.1 with
      ⟨joint, last, ran_joint, stated_joint, same_joint, extended, _⟩
    rcases ih ran_joint stated_joint same_joint released.2
      with ⟨all, after, ran_all, stated_all, same_all, further⟩
    exact ⟨all, after, ran_all, stated_all, same_all, extended.trans further⟩

/-- What has an answer has it with more room, too. -/
theorem parseFrom_widened (ran : parseFrom start limits first = (.ok values, middle)) :
    parseFrom start limits.widened first = (.ok values, middle) := by
  rcases parseFrom_within limits.within_widened start first with ⟨reached, stopped⟩ | same
  · rw [ran] at stopped
    cases stopped
  · rw [← same, ran]

/-- Statements that are read one after the other can be joined by semicolons, and nested two levels
deeper they build the same: the same triples, values of variables and counters, and the first of
them at the same places. But in front of none of these semicolons may an operand be read that a
terminator has begun, since it goes on behind it. -/
theorem statements_joined (ran : parseFrom Builder.empty limits first = (.ok values, middle))
    (stated : AllStated values) (reads : Reads limits middle rest final)
    (released : ReleasedBetween first rest) :
    ∃ values after, parseFrom Builder.empty limits.widened (joined first rest) =
      (.ok values, after) ∧
      AllStated values ∧ after.unplaced = final.unplaced ∧ middle.Extends after :=
  exists_joined_all reads (parseFrom_widened ran) ⟨⟨[], .empty⟩, Builder.bound_empty⟩
    stated rfl released

theorem statements_joined_assignment :
    ∃ values middle final, parseFrom Builder.empty .standard "@x := a" = (.ok values, middle) ∧
    AllStated values ∧
      Reads .standard middle ["*x => b:c", "d => *x:e"] final ∧
      ReleasedBetween "@x := a" ["*x => b:c", "d => *x:e"] ∧
      ∃ values after, parseFrom Builder.empty Limits.standard.widened
        (joined "@x := a" ["*x => b:c", "d => *x:e"]) =
        (.ok values, after) ∧ AllStated values ∧ after.unplaced = final.unplaced ∧
          middle.Extends after := by
  let first := parseFrom Builder.empty .standard "@x := a"
  let second := parseFrom first.2 .standard "*x => b:c"
  let third := parseFrom second.2 .standard "d => *x:e"
  have ran : first = (.ok (first.1.toOption.get (by decide +kernel)), first.2) := by decide +kernel
  have ran_second : second = (.ok (second.1.toOption.get (by decide +kernel)), second.2) := by
    decide +kernel
  have ran_third : third = (.ok (third.1.toOption.get (by decide +kernel)), third.2) := by
    decide +kernel
  have stated : AllStated (first.1.toOption.get (by decide +kernel)) := by decide +kernel
  have reads : Reads .standard first.2 ["*x => b:c", "d => *x:e"] third.2 :=
    .next ran_second (by decide +kernel) (.next ran_third (by decide +kernel) .none)
  have released : ReleasedBetween "@x := a" ["*x => b:c", "d => *x:e"] :=
    ⟨by decide +kernel, by decide +kernel, trivial⟩
  exact ⟨_, _, _, ran, stated, reads, released, statements_joined ran stated reads released⟩

/-- A right side that a terminator begins goes on behind the semicolon, and takes the entity there,
which is none of its properties. -/
theorem statements_not_joined :
    ∃ values middle others final, parseFrom Builder.empty .standard "a => ;b:c" =
      (.ok values, middle) ∧
      AllStated values ∧ parseFrom middle .standard "x" = (.ok others, final) ∧ AllStated others ∧
      ∀ values after,
        parseFrom Builder.empty Limits.standard.widened ("a => ;b:c" ++ ";" ++ "x") ≠
          (.ok values, after) := by
  let first := parseFrom Builder.empty .standard "a => ;b:c"
  let second := parseFrom first.2 .standard "x"
  refine ⟨first.1.toOption.get (by decide +kernel), first.2,
    second.1.toOption.get (by decide +kernel), second.2, ?_⟩
  refine ⟨by decide +kernel, by decide +kernel, by decide +kernel, by decide +kernel, ?_⟩
  intro values after ran
  have refused :
      (parseFrom Builder.empty Limits.standard.widened ("a => ;b:c" ++ ";" ++ "x")).1.toOption =
        none := by
    decide +kernel
  rw [ran] at refused
  cases refused

end Compilation

end FactGraph
