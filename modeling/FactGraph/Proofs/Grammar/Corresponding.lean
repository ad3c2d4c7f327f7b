import FactGraph.Grammar
import FactGraph.Proofs.Corresponding
import FactGraph.Proofs.Precedence.Guarded

/-! Two runs of the notation that correspond. Rules look at the kinds of tokens and meanings, but
never into a name or an identifier: whatever relates these in the two runs is carried along by all
rules, if the few operations carry it that name, bind and state. -/

namespace FactGraph

open Precedence

namespace Grammar

/-- What stands for what in two runs, what they have built, and how much of a fault is compared. The
first may stop alone with some of its faults. -/
structure Correspondence where
  ident : Ident → Ident → Prop
  text : Option String → Option String → Prop
  naming : String → String → Prop
  graph : Graph → Graph → Prop
  bindings : Bindings → Bindings → Prop
  quote : String → String
  alone : Fault → Prop

namespace Correspondence

abbrev property (c : Correspondence) : Property → Property → Prop := Property.Corresponds c.ident

abbrev meaning (c : Correspondence) : Meaning → Meaning → Prop :=
  Meaning.Corresponds c.ident c.naming

def likeness (c : Correspondence) : Likeness Builder Meaning where
  together fault other := fault.quoting c.quote = other.quoting c.quote
  alone := c.alone
  state builder other :=
    c.graph builder.graph other.graph ∧ c.bindings builder.bindings other.bindings
  meaning := c.meaning
  token := Token.Corresponds c.text c.naming

/-- The operations that name, bind and state carry the correspondence along. Those on graphs need to
do so only where the first run comes to a graph that is kept. -/
structure Carried (c : Correspondence) (citation : Nat) (kept : Graph → Prop) : Prop where
  /-- No name is compared in a fault, or they are the same. -/
  quoted : (∀ first second, c.quote first = c.quote second) ∨
    (∀ value value', c.text value value' → value = value') ∧
    ∀ name name', c.naming name name' → name = name'
  strayed : (∀ graph, kept graph) ∨ c.alone straying
  allocated {value value' : Option String} {graph graph' : Graph} :
      c.text value value' → c.graph graph graph' →
    c.ident (graph.allocate value).1 (graph'.allocate value').1 ∧
      c.graph (graph.allocate value).2 (graph'.allocate value').2
  attached {idents idents' : List Ident} {properties properties' : List Property}
      {graph graph' : Graph}
    (span span' : Span) :
      List.Forall₂ c.ident idents idents' → List.Forall₂ c.property properties properties' →
    c.graph graph graph' → kept (Property.attachEach citation span idents properties graph).2 →
    Attempt.Alike c.likeness.toFailing c.graph Eq
      (Property.attachEach citation span idents properties graph)
      (Property.attachEach citation span' idents' properties' graph')
  resolved {name name' : String} {bindings bindings' : Bindings} : c.naming name name' →
    c.bindings bindings bindings' → Option.Rel c.meaning (bindings.lookup name)
    (bindings'.lookup name')
  defined {name name' : String} {value value' : Meaning} {bindings bindings' : Bindings} :
      c.naming name name' →
    c.meaning value value' → c.bindings bindings bindings' → bindings'.isDefined name' = false →
    c.bindings ((name, value) :: bindings) ((name', value') :: bindings')

variable {c : Correspondence} {citation : Nat} {kept : Graph → Prop} {token token' : Token}
  {left left' : Option Meaning}

namespace Carried

variable (carried : c.Carried citation kept)

include carried

theorem name_quoted {name name' : String} (names : c.naming name name') :
    c.quote name = c.quote name' := by
  rcases carried.quoted with silent | ⟨_, plain⟩
  · exact silent _ _
  · rw [plain _ _ names]

theorem token_quoted (tokens : c.likeness.token token token') :
    c.quote token.describe = c.quote token'.describe := by
  rcases carried.quoted with silent | ⟨texts, names⟩
  · exact silent _ _
  · have value : token.value = token'.value := by
      by_cases named : token.kind = .target ∨ token.kind = .reference
      · rcases tokens.naming named with ⟨present, related⟩
        have same := names _ _ related
        cases found : token.value <;> cases found' : token'.value <;> simp_all
      · by_cases text : token.kind = .identifier
        · exact texts _ _ (tokens.text text)
        · apply tokens.none
          cases kind : token.kind <;> simp_all [Token.Kind.carriesName]
    rw [Token.describe, Token.describe, tokens.kind, value]

theorem meaning_quoted {first second : Meaning} (meanings : c.meaning first second) :
    c.quote first.describe = c.quote second.describe := by
  cases meanings with
  | target names =>
    rcases carried.quoted with silent | ⟨_, plain⟩
    · exact silent _ _
    · obtain rfl := plain _ _ names
      rfl
  | _ => rfl

theorem fair : c.likeness.Fair where
  kind tokens := tokens.kind
  pastEnd _ := rfl
  mismatch expected _ _ tokens := by
    simp only [likeness, Fault.quoting, carried.token_quoted tokens]
  unexpected context expected _ _ tokens := by
    simp only [likeness, Fault.quoting, carried.token_quoted tokens]
  internal _ := rfl

theorem unexpected_corresponds (context : String) (expected : List String) (span span' : Span)
    (lefts : c.likeness.operand left left') :
    c.likeness.together (unexpected context expected left span)
      (unexpected context expected left' span') := by
  cases lefts with
  | none => rfl
  | some meanings =>
    simp only [likeness, unexpected, Fault.quoting, carried.meaning_quoted meanings]

abbrev Rule {α β : Type} (c : Correspondence) (kept : Graph → Prop) (same : α → β → Prop)
    (step : Step α) (other : Step β) : Prop :=
  step.Follows (fun builder => kept builder.graph) c.likeness same other

theorem needEntities_rule (context : String) (span span' : Span)
    (lefts : c.likeness.operand left left') :
    Rule c kept (fun found found' => List.Forall₂ c.ident found.1 found'.1)
      (needEntities context span left)
      (needEntities context span' left') := by
  have fault := carried.unexpected_corresponds context ["entities"] span span' lefts
  cases lefts with
  | none => exact .refuse fault
  | some meanings =>
    cases meanings with
    | entities related => exact .pure related
    | _ => exact .refuse fault

theorem needProperties_rule (context : String) (span span' : Span)
    (lefts : c.likeness.operand left left') :
    Rule c kept (List.Forall₂ c.property) (needProperties context span left)
      (needProperties context span' left') := by
  have fault := carried.unexpected_corresponds context ["descriptor"] span span' lefts
  cases lefts with
  | none => exact .refuse fault
  | some meanings =>
    cases meanings with
    | descriptor related => exact .pure related
    | _ => exact .refuse fault

theorem needValue_rule (span span' : Span) (lefts : c.likeness.operand left left') :
    Rule c kept c.meaning (needValue span left) (needValue span' left') := by
  have fault :=
    carried.unexpected_corresponds "assignment value" ["entities", "descriptor"] span span' lefts
  cases lefts with
  | none => exact .refuse fault
  | some meanings =>
    cases meanings with
    | entities related => exact .pure (.entities related)
    | descriptor related => exact .pure (.descriptor related)
    | _ => exact .refuse fault

theorem strays : (∀ builder : Builder, kept builder.graph) ∨ c.likeness.alone straying :=
  carried.strayed.imp_left fun all builder => all builder.graph

theorem onGraph_rule {α β : Type} {same : α → β → Prop} {step : Attempt Graph α}
    {other : Attempt Graph β} (steps : ∀ graph graph', c.graph graph graph' → kept (step graph).2 →
      Attempt.Alike c.likeness.toFailing c.graph same (step graph) (other graph')) :
    Rule c kept same (Action.perform (Builder.onGraph step))
      (Action.perform (Builder.onGraph other)) := by
  apply Action.Follows.perform carried.strays
  rintro builder builder' ⟨graphs, bindings⟩ inside
  have ending := steps builder.graph builder'.graph graphs inside
  unfold Builder.onGraph
  revert ending
  generalize step builder.graph = outcome
  generalize other builder'.graph = outcome'
  intro ending
  cases ending with
  | answered answers reached => exact .answered answers ⟨reached, bindings⟩
  | failed faults reached => exact .failed faults ⟨reached, bindings⟩
  | alone stopped => exact .alone stopped

theorem identifier_rule (tokens : c.likeness.token token token') (kind : token.kind = .identifier) :
    Rule c kept c.likeness.operand (identifier token) (identifier token') := by
  have allocated {graph graph' : Graph} (graphs : c.graph graph graph') :=
    carried.allocated (tokens.text kind) graphs
  have named : Rule c kept c.ident
      (Action.perform (Builder.onGraph (Attempt.change (Graph.allocate token.value))))
      (Action.perform (Builder.onGraph (Attempt.change (Graph.allocate token'.value)))) := by
    apply carried.onGraph_rule
    intro graph graph' graphs _
    exact .answered (allocated graphs).1 (allocated graphs).2
  apply named.bind
  intro ident ident' idents
  exact .pure (.some (.entities (.cons idents .nil)))

omit carried in
theorem target_rule (tokens : c.likeness.token token token') (kind : token.kind = .target) :
    Rule c kept c.likeness.operand (target token) (target token') :=
  .pure (.some (.target (tokens.naming (.inl kind)).2))

theorem reference_rule (tokens : c.likeness.token token token') (kind : token.kind = .reference) :
    Rule c kept c.likeness.operand (reference token) (reference token') := by
  have names := (tokens.naming (.inr kind)).2
  apply Action.Follows.state.bind
  rintro builder builder' ⟨_, bindings⟩
  simp only [Bindings.resolve]
  rcases rel_cases (carried.resolved names bindings)
    with ⟨found, found'⟩ | ⟨value, value', found, found', values⟩
  · simp only [found, found']
    apply Action.Follows.refuse
    simp only [likeness, Fault.quoting, carried.name_quoted names]
  · simp only [found, found']
    exact .pure (.some values)

theorem join_rule {right right' : Option Meaning} (span span' : Span)
    (lefts : c.likeness.operand left left') (rights : c.likeness.operand right right') :
    Rule c kept c.likeness.operand (join span left right) (join span' left' right') := by
  have fault (context : String) (expected : List String) :=
    carried.unexpected_corresponds context expected span span' rights
  cases lefts with
  | none => exact .pure rights
  | some meanings =>
    cases meanings with
    | entities related =>
      cases rights with
      | none => exact .pure (.some (.entities related))
      | some meanings =>
        cases meanings with
        | entities more => exact .pure (.some (.entities (List.rel_append related more)))
        | assignment => exact .pure (.some (.entities related))
        | _ => exact .refuse (fault _ _)
    | descriptor related =>
      cases rights with
      | none => exact .pure (.some (.descriptor related))
      | some meanings =>
        cases meanings with
        | descriptor more => exact .pure (.some (.descriptor (List.rel_append related more)))
        | _ => exact .refuse (fault _ _)
    | _ => exact .pure rights

theorem terminator_rule (lefts : c.likeness.operand left left') :
    Rule c kept c.likeness.operand (terminator token left) (terminator token' left') := by
  apply Action.Follows.ended.bind
  rintro ended _ rfl
  cases ended with
  | true => exact .pure lefts
  | false =>
    have read {left left' : Option Meaning} (lefts : c.likeness.operand left left') :
        Rule c kept c.likeness.operand (Action.expression Power.terminator >>= join token.span left)
          (Action.expression Power.terminator >>= join token'.span left') :=
      (Action.Follows.expression _).bind fun _ _ rights => carried.join_rule _ _ lefts rights
    have fault :=
      carried.unexpected_corresponds "expression" ["entities", "descriptor",
        "assignment"] token.span
      token'.span lefts
    cases lefts with
    | none => exact read .none
    | some meanings =>
      cases meanings with
      | target => exact .refuse fault
      | entities related => exact read (.some (.entities related))
      | descriptor related => exact read (.some (.descriptor related))
      | assignment => exact read (.some .assignment)

theorem isDefined_eq {name name' : String} {bindings bindings' : Bindings}
    (names : c.naming name name') (bound : c.bindings bindings bindings') :
    bindings.isDefined name = bindings'.isDefined name' :=
  isSome_eq_of_rel (carried.resolved names bound)

theorem define_rule {name name' : String} {value value' : Meaning} (place place' : Span)
    (names : c.naming name name') (values : c.meaning value value') :
    Rule c kept Eq (Action.perform (Builder.onBindings (Bindings.define name value place)))
      (Action.perform (Builder.onBindings (Bindings.define name' value' place'))) := by
  apply Action.Follows.perform carried.strays
  rintro builder builder' ⟨graphs, bindings⟩ _
  simp only [Builder.onBindings, Bindings.define, carried.isDefined_eq names bindings]
  split
  · refine .failed ?_ ⟨graphs, bindings⟩
    simp only [likeness, Fault.quoting, carried.name_quoted names]
  · next free =>
    exact .answered rfl ⟨graphs, carried.defined names values bindings (Bool.eq_false_iff.2 free)⟩

theorem assignment_rule (lefts : c.likeness.operand left left') :
    Rule c kept c.likeness.operand (assignment token left) (assignment token' left') := by
  have fault :=
    carried.unexpected_corresponds "assignment target" ["variable"] token.span token'.span lefts
  cases lefts with
  | none => exact .refuse fault
  | some meanings =>
    cases meanings with
    | @target name name' place place' names =>
      apply Action.Follows.state.bind
      rintro builder builder' ⟨_, bindings⟩
      rw [carried.isDefined_eq names bindings]
      split
      · apply Action.Follows.refuse
        simp only [likeness, Fault.quoting, carried.name_quoted names]
      · apply (Action.Follows.expression _).bind
        intro right right' rights
        apply (carried.needValue_rule _ _ rights).bind
        intro value value' values
        apply (carried.define_rule place place' names values).bind
        intro _ _ _
        exact .pure (.some .assignment)
    | _ => exact .refuse fault

omit carried in
theorem crossProduct_corresponds {predicates predicates' objects objects' : List Ident}
    (span span' : Span) (first : List.Forall₂ c.ident predicates predicates')
    (second : List.Forall₂ c.ident objects objects') :
    List.Forall₂ c.property (crossProduct predicates objects span)
      (crossProduct predicates' objects' span') := by
  unfold crossProduct
  refine List.rel_flatMap first ?_
  intro predicate predicate' predicates
  refine List.rel_map ?_ second
  intro object object' objects
  exact Property.corresponds_plain _ _ predicates objects

theorem property_rule (lefts : c.likeness.operand left left') :
    Rule c kept c.likeness.operand (Grammar.property token left)
      (Grammar.property token' left') := by
  apply (carried.needEntities_rule _ _ _ lefts).bind
  intro found found' predicates
  apply (Action.Follows.expression _).bind
  intro right right' rights
  apply (carried.needEntities_rule _ _ _ rights).bind
  intro other other' objects
  exact .pure (.some (.descriptor (crossProduct_corresponds _ _ predicates objects)))

theorem description_rule (lefts : c.likeness.operand left left') :
    Rule c kept c.likeness.operand (description citation token left)
      (description citation token' left') := by
  have fault := carried.unexpected_corresponds "subject (left hand operand) for arrow operator"
    ["entities", "descriptor"] token.span token'.span lefts
  cases lefts with
  | none => exact .refuse fault
  | some meanings =>
    cases meanings with
    | entities idents =>
      apply (Action.Follows.expression _).bind
      intro right right' rights
      apply (carried.needProperties_rule _ _ _ rights).bind
      intro properties properties' related
      have attached := carried.onGraph_rule fun graph graph' graphs inside =>
        carried.attached token.span token'.span idents related graphs inside
      apply attached.bind
      intro _ _ _
      exact .pure (.some (.entities idents))
    | descriptor related =>
      apply (Action.Follows.expression _).bind
      intro right right' rights
      apply (carried.needProperties_rule _ _ _ rights).bind
      intro citations citations' cited
      refine .pure (.some (.descriptor (List.rel_map ?_ related)))
      intro property property' properties
      exact properties.citedBy cited
    | _ => exact .refuse fault

theorem label_rule (lefts : c.likeness.operand left left') :
    Rule c kept c.likeness.operand (label token left) (label token' left') := by
  have fault :=
    carried.unexpected_corresponds "label target" ["descriptor"] token.span token'.span lefts
  cases lefts with
  | none => exact .refuse fault
  | some meanings =>
    cases meanings with
    | descriptor related =>
      cases related with
      | nil => exact .refuse rfl
      | cons first more =>
        cases more with
        | nil =>
          apply (Action.Follows.expression _).bind
          intro right right' rights
          apply (carried.needEntities_rule _ _ _ rights).bind
          rintro ⟨names, _⟩ ⟨names', _⟩ found
          cases found with
          | nil => exact .refuse rfl
          | cons name others =>
            cases others with
            | nil => exact .pure (.some (.descriptor (.cons (first.labelled name) .nil)))
            | cons _ others =>
              apply Action.Follows.refuse
              simp only [likeness, Fault.quoting, List.length_cons, others.length_eq]
        | cons _ more =>
          apply Action.Follows.refuse
          simp only [likeness, Fault.quoting, List.length_cons, more.length_eq]
    | _ => exact .refuse fault

/-- All rules carry the correspondence along, as far as the graphs of the first run are kept. -/
theorem symbols_follow :
    ((symbols citation).guarded fun builder => kept builder.graph).Parallel c.likeness
      (symbols citation) := by
  intro kind
  cases kind with
  | target => exact .some ⟨rfl, .some fun _ _ kind tokens => target_rule tokens kind, .none⟩
  | reference =>
    exact .some ⟨rfl, .some fun _ _ kind tokens => carried.reference_rule tokens kind, .none⟩
  | identifier =>
    exact .some ⟨rfl, .some fun _ _ kind tokens => carried.identifier_rule tokens kind, .none⟩
  | assign => exact .some ⟨rfl, .none, .some fun _ _ _ _ _ _ lefts => carried.assignment_rule lefts⟩
  | arrow => exact .some ⟨rfl, .none, .some fun _ _ _ _ _ _ lefts => carried.description_rule lefts⟩
  | colon => exact .some ⟨rfl, .none, .some fun _ _ _ _ _ _ lefts => carried.property_rule lefts⟩
  | bang => exact .some ⟨rfl, .none, .some fun _ _ _ _ _ _ lefts => carried.label_rule lefts⟩
  | leftParen =>
    refine .some ⟨rfl, .some fun _ _ _ _ => ?_, .none⟩
    apply (Action.Follows.expression _).bind
    intro inner inner' inners
    apply (Action.Follows.pass _).bind
    intro _ _ _
    exact .pure inners
  | rightParen => exact .some ⟨rfl, .none, .none⟩
  | terminator =>
    refine .some ⟨rfl, .some fun _ _ _ _ => ?_, .some fun _ _ _ _ _ _ lefts =>
      carried.terminator_rule lefts⟩
    apply Action.Follows.ended.bind
    rintro ended _ rfl
    cases ended with
    | true => exact .pure .none
    | false => exact .expression _
  | endOfInput => exact .some ⟨rfl, .none, .none⟩

end Carried

end Correspondence

end Grammar

end FactGraph
