import FactGraph.Proofs.Grammar.Growing
import FactGraph.Proofs.Graph.Refusal
import FactGraph.Proofs.Precedence.Origin
import FactGraph.Proofs.Precedence.Running
import FactGraph.Proofs.Token.Location

namespace FactGraph

def Fault.IsFirst (fault : Fault) : Prop := ∀ name place, fault ≠ .redefined name place

theorem Token.Scanned.isFirst {before rest : List Char} {outcomes : List (Except Fault Token)}
    (scanned : Scanned before rest outcomes) {fault : Fault} (inside : .error fault ∈ outcomes) :
    fault.IsFirst := by
  induction scanned with
  | ended => simp at inside
  | stopped =>
    rw [List.mem_singleton, Except.error.injEq] at inside
    subst inside
    exact nofun
  | read _ _ ih =>
    rw [List.mem_cons] at inside
    exact ih (inside.resolve_left nofun)

theorem Site.Refused.isFirst {most : Nat} {graph : Graph} {site : Site} {fault : Fault}
    (refused : site.Refused most graph fault) : fault.IsFirst := by
  cases refused <;> exact nofun

namespace Grammar

open Precedence
open Precedence.Action (Raises)

theorem unexpected_isFirst (context : String) (expected : List String) (found : Option Meaning)
    (span : Span) :
    (unexpected context expected found span).IsFirst := by
  cases found <;> exact nofun

theorem needEntities_raises (context : String) (span : Span) (value : Option Meaning) :
    (needEntities context span value).Raises Fault.IsFirst := by
  unfold needEntities
  split
  · exact .pure _
  · exact unexpected_isFirst _ _ _ _

theorem needProperties_raises (context : String) (span : Span) (value : Option Meaning) :
    (needProperties context span value).Raises Fault.IsFirst := by
  unfold needProperties
  split
  · exact .pure _
  · exact unexpected_isFirst _ _ _ _

theorem reference_raises (token : Token) : (reference token).Raises Fault.IsFirst := by
  apply Raises.state.bind
  intro builder
  split
  · exact .pure _
  · next fault missing =>
    unfold Bindings.resolve at missing
    split at missing
    · contradiction
    · exact Except.error.inj missing ▸ nofun

theorem join_raises (span : Span) (left right : Option Meaning) :
    (join span left right).Raises Fault.IsFirst := by
  unfold join
  split
  all_goals first | exact .pure _ | exact unexpected_isFirst _ _ _ _

theorem terminator_raises (token : Token) (left : Option Meaning) :
    (terminator token left).Raises Fault.IsFirst := by
  apply Raises.ended.bind
  intro answer
  split
  · exact .pure _
  · split
    · exact unexpected_isFirst _ _ _ _
    · exact (Raises.expression _).bind fun right => join_raises _ _ _

theorem property_raises (token : Token) (left : Option Meaning) :
    (property token left).Raises Fault.IsFirst := by
  apply (needEntities_raises _ _ _).bind
  intro predicates
  apply (Raises.expression _).bind
  intro right
  exact (needEntities_raises _ _ _).bind fun objects => .pure _

theorem description_raises (citation : Nat) (token : Token) (left : Option Meaning) :
    (description citation token left).Raises Fault.IsFirst := by
  unfold description
  split
  · apply (Raises.expression _).bind
    intro right
    apply (needProperties_raises _ _ _).bind
    intro properties
    refine (Raises.perform ?_).bind fun _ => .pure _
    intro builder fault failed
    rcases Property.exists_refused_of_attachEach failed with ⟨_, _, refused, _⟩
    exact refused.isFirst
  · apply (Raises.expression _).bind
    intro right
    exact (needProperties_raises _ _ _).bind fun citations => .pure _
  · exact unexpected_isFirst _ _ _ _

theorem label_raises (token : Token) (left : Option Meaning) :
    (label token left).Raises Fault.IsFirst := by
  unfold label
  split
  · apply (Raises.expression _).bind
    intro right
    apply (needEntities_raises _ _ _).bind
    rintro ⟨names, place⟩
    dsimp only
    split
    · exact .pure _
    · exact nofun
  · exact nofun
  · exact unexpected_isFirst _ _ _ _

variable {citation nesting room : Nat} {name : String} {place : Position} {token : Token}
  {left : Option Meaning} {span : Span} {reader reached : Reader Builder}

theorem assignment_of_isDefined (defined : reader.state.bindings.isDefined name = true) :
    (Task.action room (assignment token (some (.target name span)))).step (symbols citation)
      nesting reader = (.error (.redefined name span.position), reader) := by
  have goes_on :
      (Task.action room (assignment token (some (.target name span)))).step (symbols citation)
        nesting reader =
      Reader.run (symbols citation) (Reader.expressionWithin (symbols citation) nesting room)
        (if reader.state.bindings.isDefined name then .refuse (.redefined name span.position)
          else _) reader := rfl
  rw [goes_on, if_pos defined]
  rfl

theorem needValue_cases (span : Span) (value : Option Meaning) :
    (∃ meaning, needValue span value = pure meaning) ∨
      ∃ fault, fault.IsFirst ∧ needValue span value = .refuse fault := by
  unfold needValue
  split
  · exact .inl ⟨_, rfl⟩
  · exact .inl ⟨_, rfl⟩
  · exact .inr ⟨_, unexpected_isFirst _ _ _ _, rfl⟩

theorem define_refuses {variable_ : String} {meaning answer : Meaning}
    (refuses : (Action.perform (Builder.onBindings (Bindings.define variable_ meaning span)) >>=
      fun _ => pure (some answer)).Refuses (symbols citation) nesting room (.redefined name place)
        reached reader) :
    variable_ = name ∧ span.position = place ∧ reached.state.bindings.isDefined name = true := by
  have ran := refuses.run_eq
  rw [Task.step, Reader.run_bind, Attempt.bind_apply, Reader.run_perform_apply] at ran
  by_cases defined : reader.state.bindings.isDefined variable_ = true
  · simp only [Builder.onBindings, Bindings.define, defined, if_true, Prod.mk.injEq,
      Except.error.injEq, Fault.redefined.injEq] at ran
    obtain ⟨⟨rfl, rfl⟩, rfl⟩ := ran
    exact ⟨rfl, rfl, defined⟩
  · simp [Builder.onBindings, Bindings.define, defined, Reader.run, Action.pure_eq] at ran

/-- A rule that says that a variable has a value is that of `:=`, with this variable as its target,
and the variable has one. -/
theorem assignment_refuses
    (refuses :
      (assignment token left).Refuses (symbols citation) nesting room (.redefined name place)
        reached reader) :
    ∃ span, left = some (.target name span) ∧ span.position = place ∧
      reached.state.bindings.isDefined name = true := by
  unfold assignment at refuses
  split at refuses
  · next variable_ span =>
    have asked := refuses.of_state
    split at asked
    · next defined =>
      cases asked
      exact ⟨span, rfl, rfl, defined⟩
    · rcases asked.of_expression with ⟨value, after, _, rest⟩
      rcases needValue_cases token.span value with ⟨meaning, found⟩ | ⟨fault, first, found⟩
      · rw [found, pure_bind] at rest
        rcases define_refuses rest with ⟨rfl, position, known⟩
        exact ⟨span, rfl, position, known⟩
      · have raises : (Action.refuse fault : Step (Option Meaning)).Raises Fault.IsFirst := first
        rw [found] at rest
        exact absurd rfl (rest.allowed_of_raises raises name place)
  · have first : Fault.IsFirst _ := refuses.allowed_of_raises (unexpected_isFirst _ _ _ _)
    exact absurd rfl (first name place)

theorem opening_raises {kind : Token.Kind} {rule : Opening Builder Meaning}
    (found : (symbols citation).opening? kind = some rule) (token : Token) :
    (rule token).Raises Fault.IsFirst := by
  cases kind with
  | target =>
    obtain rfl := Option.some.inj found
    exact .pure _
  | reference =>
    obtain rfl := Option.some.inj found
    exact reference_raises token
  | identifier =>
    obtain rfl := Option.some.inj found
    exact (Raises.perform nofun).bind fun _ => .pure _
  | leftParen =>
    obtain rfl := Option.some.inj found
    exact (Raises.expression 0).bind fun _ => (Raises.pass _).bind fun _ => .pure _
  | terminator =>
    obtain rfl := Option.some.inj found
    apply Raises.ended.bind
    intro answer
    split
    · exact .pure _
    · exact .expression 0
  | _ => simp [Symbols.opening?, symbols] at found

theorem following_raises {kind : Token.Kind} {rule : Following Builder Meaning}
    (other : kind ≠ .assign) (found : (symbols citation).following? kind = some rule)
    (token : Token) (left : Option Meaning) :
    (rule token left).Raises Fault.IsFirst := by
  cases kind with
  | assign => contradiction
  | arrow =>
    obtain rfl := Option.some.inj found
    exact description_raises citation token left
  | colon =>
    obtain rfl := Option.some.inj found
    exact property_raises token left
  | bang =>
    obtain rfl := Option.some.inj found
    exact label_raises token left
  | terminator =>
    obtain rfl := Option.some.inj found
    exact terminator_raises token left
  | _ => simp [Symbols.following?, symbols] at found

theorem assignment_of_blamed {stage : Stage Builder Meaning}
    (blamed : stage.Blamed (symbols citation) nesting (.redefined name place) reached) :
    ∃ room token span reader, token.kind = .assign ∧ span.position = place ∧
      stage = ⟨.action room (assignment token (some (.target name span))), reader⟩ ∧
      reached.state.bindings.isDefined name = true := by
  cases blamed with
  | @opening rule token room reader found refuses =>
    exact absurd rfl (refuses.allowed_of_raises (opening_raises found token) name place)
  | @following rule token left room reader found refuses =>
    by_cases assign : token.kind = .assign
    · rw [assign] at found
      obtain rfl := Option.some.inj found
      rcases assignment_refuses refuses with ⟨span, rfl, position, defined⟩
      exact ⟨room, token, span, reader, assign, position, rfl, defined⟩
    · exact absurd rfl (refuses.allowed_of_raises
        (following_raises assign found token left) name place)

end Grammar

namespace Compilation

open Precedence

/-- The run over the source comes to the rule of a `:=` with the variable as its target at this
place, which refuses since the variable has a value. Such is what has been built when the rule is
entered. -/
def Redefines (limits : Limits) (source name : String) (place : Position) (entered : Builder) :
    Prop :=
  ∃ room token span reader, token.kind = .assign ∧ span.position = place ∧ reader.state = entered ∧
    let stage : Stage Builder Meaning :=
      ⟨.action room (Grammar.assignment token (some (.target name span))), reader⟩
    (Reader.ofSource source Builder.empty).Meets (Grammar.symbols limits.citation)
        limits.nesting stage ∧
    (stage.ending (Grammar.symbols limits.citation) limits.nesting).1 =
        .error (.redefined name place)

theorem builder_of_meets {limits : Limits} {source : String} {stage : Stage Builder Meaning}
    {fault : Fault}
    (meets : (Reader.ofSource source Builder.empty).Meets (Grammar.symbols limits.citation)
      limits.nesting stage)
    (failed : (stage.ending (Grammar.symbols limits.citation) limits.nesting).1 = .error fault) :
    (parseFrom Builder.empty limits source).2 =
      (stage.ending (Grammar.symbols limits.citation) limits.nesting).2.state := by
  rcases ended : stage.ending (Grammar.symbols limits.citation) limits.nesting
    with ⟨answer, reached⟩
  rw [ended] at failed
  obtain rfl : answer = .error fault := failed
  rw [parseFrom, meets.parse_eq_error ended]

namespace Redefines

variable {limits : Limits} {source name : String} {place : Position} {entered : Builder}

theorem unchanged (redefines : Redefines limits source name place entered)
    (defined : entered.bindings.isDefined name = true) :
    (parseFrom Builder.empty limits source).2 = entered := by
  rcases redefines with ⟨room, token, span, reader, _, _, rfl, meets, failed⟩
  rw [builder_of_meets meets failed, Stage.ending, Grammar.assignment_of_isDefined defined]

theorem grows (redefines : Redefines limits source name place entered) :
    entered.Extends (parseFrom Builder.empty limits source).2 := by
  rcases redefines with ⟨room, token, span, reader, _, _, rfl, meets, failed⟩
  have sound :=
    meets.sound (Grammar.closed_named limits.citation).symbols_keep (sound_ofSource source)
  have grow := (Grammar.symbols_grow limits.citation).keep reader.state
  have operands (power : Nat) := Reader.expressionWithin_keeps grow limits.nesting room power
  have target : Each Meaning.Named (some (.target name span)) := Grammar.each_some (by trivial)
  have rule : (Grammar.assignment token (some (.target name span))).Keeps
      (fun builder => builder.Sound ∧ reader.state.Extends builder) Meaning.Named
      (Each Meaning.Named) :=
    ((Grammar.closed_growing limits.citation reader.state).assignmentRule (fun _ => True) trivial
      trivial target).keeps
  rw [builder_of_meets meets failed]
  exact (Reader.grows_of_keeps (.refl _) (Reader.run_keeps _ operands rule) sound.reader).1

end Redefines

/-- A run that fails since a variable has a value already has come to a `:=` that refuses. If the
variable had its value when the rule was entered, nothing has been built since. Otherwise the value
was given by what stands behind the `:=`, and what has been stated there stays. -/
theorem builder_of_redefined {limits : Limits} {source name : String} {place : Position}
    (failed : (parseFrom Builder.empty limits source).1 = .error (.redefined name place)) :
    let final := (parseFrom Builder.empty limits source).2
    (∃ entered, Redefines limits source name place entered) ∧
    ∀ entered, Redefines limits source name place entered →
      (entered.bindings.isDefined name = true → final = entered) ∧
      (entered.bindings.isDefined name = false →
        entered.Extends final ∧ final.bindings.isDefined name = true) := by
  dsimp only
  rcases parsed : Reader.parse (Grammar.symbols limits.citation) limits.nesting
    (Reader.ofSource source Builder.empty) with ⟨answer, reached⟩
  have run : parseFrom Builder.empty limits source = (answer, reached.state) := by
    rw [parseFrom, parsed]
  rw [run] at failed ⊢
  obtain rfl : answer = .error (.redefined name place) := failed
  have readable : .error (.redefined name place) ∉
      (Reader.ofSource source Builder.empty).remaining := fun inside =>
    (Token.Cursor.tokens_ofSource source).isFirst inside name place rfl
  rcases Reader.exists_blamed_of_parse parsed id readable with ⟨call, meets, blamed⟩
  have stopped := congrArg Prod.fst blamed.ending_eq
  rcases Grammar.assignment_of_blamed blamed
    with ⟨room, token, span, reader, assign, position, rfl, defined⟩
  refine ⟨⟨reader.state, room, token, span, reader, assign, position, rfl, meets, stopped⟩, ?_⟩
  intro entered redefines
  have left : (parseFrom Builder.empty limits source).2 = reached.state := congrArg Prod.snd run
  refine ⟨fun known => left ▸ redefines.unchanged known, fun _ => ⟨left ▸ redefines.grows, defined⟩⟩

theorem builder_of_redefined_second_line :
    (parseFrom Builder.empty .standard "@x := a\n@x := b => c:d").1 =
      .error (.redefined "x" ⟨2, 1⟩) ∧
      let final := (parseFrom Builder.empty .standard "@x := a\n@x := b => c:d").2
      (∃ entered, Redefines .standard "@x := a\n@x := b => c:d" "x" ⟨2, 1⟩ entered) ∧
      ∀ entered, Redefines .standard "@x := a\n@x := b => c:d" "x" ⟨2, 1⟩ entered →
        (entered.bindings.isDefined "x" = true → final = entered) ∧
        (entered.bindings.isDefined "x" = false →
          entered.Extends final ∧ final.bindings.isDefined "x" = true) :=
  ⟨by decide +kernel, builder_of_redefined (by decide +kernel)⟩

/-- A variable that is given a value within its own value. The outer `:=` is refused after the
statement in the parentheses has been made. -/
theorem redefined_within_own_value :
    ∃ entered, Redefines .standard "@x := (@x := a; b => c:d)" "x" ⟨1, 1⟩ entered ∧
      (parseFrom Builder.empty .standard "@x := (@x := a; b => c:d)").2.graph.triples ≠
        entered.graph.triples := by
  let source := "@x := (@x := a; b => c:d)"
  let rest := (Token.Cursor.ofSource source).tokens.drop 3
  let target : Token := ⟨.target, "@x", some "x", ⟨0, 2, 1, 1⟩⟩
  let assign : Token := ⟨.assign, " := ", none, ⟨3, 5, 1, 4⟩⟩
  let open_ : Token := ⟨.leftParen, "(", none, ⟨6, 7, 1, 7⟩⟩
  have tokens : (Token.Cursor.ofSource source).tokens =
      .ok target :: .ok assign :: .ok open_ :: rest := by
    decide +kernel
  have start : Reader.ofSource source Builder.empty =
      ⟨.ok target :: .ok assign :: .ok open_ :: rest, none, Builder.empty⟩ := by
    rw [Reader.ofSource, tokens]
  let stage : Stage Builder Meaning :=
    ⟨.action 127 (Grammar.assignment assign (some (.target "x" target.span))),
      ⟨rest, some open_, Builder.empty⟩⟩
  have meets : (Reader.ofSource source Builder.empty).Meets (Grammar.symbols 256) 128 stage := by
    rw [start]
    refine ⟨target, ⟨.ok assign :: .ok open_ :: rest, some target, Builder.empty⟩, rfl, .now rfl ?_⟩
    apply Relation.ReflTransGen.head (Stage.Leads.opened rfl rfl)
    exact .single (.following (by decide) rfl)
  refine ⟨Builder.empty, ⟨127, assign, target.span, _, rfl, rfl, rfl, meets, ?_⟩, ?_⟩
  · decide +kernel
  · decide +kernel

end Compilation

end FactGraph
