import FactGraph.Compilation
import FactGraph.Proofs.Bindings
import FactGraph.Proofs.Precedence.Failing

/-! What has to be shown of the operations of the notation, so that every run over every source
keeps an invariant of what is built, and gives good meanings. The faults that the operations refuse
with are accounted for by what they have been given. -/

namespace FactGraph.Grammar

open Precedence

/-- Each operation of the notation keeps the invariant, and makes good meanings out of good ones. -/
structure Closed (citation : Nat) (inv : Builder → Prop) (good : Meaning → Prop)
    (fine : Token → Prop) :
    Prop where
  allocated (token : Token) : fine token → token.kind = .identifier →
    Attempt.Keeps inv (Builder.onGraph (Attempt.change (Graph.allocate token.value)))
      fun ident => good (.entity ident token.span)
  target (token : Token) :
      fine token → token.kind = .target → good (.target (token.value.getD "") token.span)
  bound (builder : Builder) : inv builder → builder.Bound good
  joinedEntities {idents more : List Ident} {place other : Span} :
    good (.entities idents place) → good (.entities more other) →
    good (.entities (idents ++ more) place)
  joinedProperties {properties more : List Property} {place other : Span} :
    good (.descriptor properties place) → good (.descriptor more other) →
      good (.descriptor (properties ++ more) place)
  assigned (name : String) {meaning : Meaning} (place : Span) : good meaning →
    Attempt.Keeps inv (Builder.onBindings (Bindings.define name meaning place)) fun _ => True
  assignment (token : Token) : fine token → token.kind = .assign → good (.assignment token.span)
  crossed {predicates objects : List Ident} {place other : Span} :
    good (.entities predicates place) → good (.entities objects other) →
      good (.descriptor (crossProduct predicates objects place) place)
  attached (token : Token) {idents : List Ident} {properties : List Property} {place other : Span} :
    fine token → token.kind = .arrow → good (.entities idents place) →
    good (.descriptor properties other) →
      Attempt.Keeps inv (Builder.onGraph
        (Property.attachEach citation token.span idents properties)) fun _ => True
  cited {properties citations : List Property} {place other : Span} :
    good (.descriptor properties place) → good (.descriptor citations other) →
      good (.descriptor (properties.map (·.citedBy citations)) place)
  labelled {property : Property} {name : Ident} {place other : Span} :
    good (.descriptor [property] place) → good (.entities [name] other) →
      good (.descriptor [property.labelled name] place)

def demands : List (String × List String) :=
  [("entities", ["entities"]),
    ("descriptor", ["descriptor"]),
    ("expression", ["entities", "descriptor", "assignment"]),
    ("assignment value", ["entities", "descriptor"]),
    ("assignment target", ["variable"]),
    ("predicate for property (colon) operator", ["entities"]),
    ("object for property (colon) operator", ["entities"]),
    ("subject (left hand operand) for arrow operator", ["entities", "descriptor"]),
    ("target (right hand operand) for description (arrow) operator", ["descriptor"]),
    ("target (right hand operand) for citation (arrow) operator", ["descriptor"]),
    ("label", ["entities"]),
    ("label target", ["descriptor"])]

/-- The faults that the operations refuse with, when they are called for tokens that are there, with
good meanings, and what has been built has the invariant. -/
inductive Refusal (citation : Nat) (inv : Builder → Prop) (good : Meaning → Prop)
    (there : Token → Prop) :
    Fault → Prop
  | unexpected {token : Token} {context : String} {expected : List String} {found : Option Meaning}
      (here : there token) (demanded : (context, expected) ∈ demands) (holds : Each good found) :
      Refusal citation inv good there (unexpected context expected found token.span)
  | undefined {token : Token} (here : there token) (kind : token.kind = .reference) :
      Refusal citation inv good there (.undefined (token.value.getD "") token.span.position)
  | redefined {name : String} {place : Span} (holds : good (.target name place)) :
      Refusal citation inv good there (.redefined name place.position)
  | labelTarget {token : Token} {properties : List Property} {place : Span} (here : there token)
      (holds : good (.descriptor properties place)) (counted : properties.length ≠ 1) :
      Refusal citation inv good there (.labelTarget properties.length token.span.position)
  | labelSource {token : Token} {names : List Ident} {place : Span} (here : there token)
      (holds : good (.entities names place)) (counted : names.length ≠ 1) :
      Refusal citation inv good there (.labelSource names.length token.span.position)
  | attached {token : Token} {idents : List Ident} {properties : List Property} {place other : Span}
      {builder : Builder} {fault : Fault} (here : there token)
      (entities : good (.entities idents place)) (described : good (.descriptor properties other))
      (kept : inv builder)
      (failed : (Property.attachEach citation token.span idents properties builder.graph).1 =
        .error fault) :
      Refusal citation inv good there fault

variable {citation : Nat} {inv : Builder → Prop} {good : Meaning → Prop} {fine there : Token → Prop}
  {value left : Option Meaning} {token : Token} {context : String}

theorem needEntities_accounts (here : there token) (demanded : (context, ["entities"]) ∈ demands)
    (holds : Each good value) :
    (needEntities context token.span value).Accounts inv good (Refusal citation inv good there)
      fun found => good (.entities found.1 found.2) := by
  simp only [needEntities]
  split
  · exact .pure (holds _ rfl)
  · exact .refuse (.unexpected here demanded holds)

theorem needProperties_accounts (here : there token)
    (demanded : (context, ["descriptor"]) ∈ demands) (holds : Each good value) :
    (needProperties context token.span value).Accounts inv good (Refusal citation inv good there)
      fun properties => ∃ place, good (.descriptor properties place) := by
  simp only [needProperties]
  split
  · next place => exact .pure ⟨place, holds _ rfl⟩
  · exact .refuse (.unexpected here demanded holds)

theorem needValue_accounts (here : there token) (holds : Each good value) :
    (needValue token.span value).Accounts inv good (Refusal citation inv good there) good := by
  simp only [needValue]
  split
  · exact .pure (holds _ rfl)
  · exact .pure (holds _ rfl)
  · exact .refuse (.unexpected here (by decide) holds)

theorem each_some {meaning : Meaning} (holds : good meaning) : Each good (some meaning) := by
  intro other same
  exact Option.some.inj same ▸ holds

namespace Closed

variable (closed : Closed citation inv good fine)

include closed

theorem identifier (here : fine token) (kind : token.kind = .identifier) :
    (Grammar.identifier token).Accounts inv good (Refusal citation inv good there) (Each good) := by
  apply (Action.Accounts.perform (closed.allocated token here kind) nofun).bind
  intro ident holds
  exact .pure (each_some holds)

theorem targetRule (here : fine token) (kind : token.kind = .target) :
    (Grammar.target token).Accounts inv good (Refusal citation inv good there) (Each good) :=
  .pure (each_some (closed.target token here kind))

theorem reference (here : there token) (kind : token.kind = .reference) :
    (Grammar.reference token).Accounts inv good (Refusal citation inv good there) (Each good) := by
  apply Action.Accounts.state.bind
  intro builder kept
  split
  · next meaning found =>
    have holds : good meaning := closed.bound builder kept _ (Bindings.mem_of_resolve found)
    exact .pure (each_some holds)
  · next fault missing =>
    obtain rfl := Bindings.eq_undefined_of_resolve missing
    exact .refuse (.undefined here kind)

theorem join (here : there token) (first : Each good left) (second : Each good value) :
    (Grammar.join token.span left value).Accounts inv good (Refusal citation inv good there)
      (Each good) := by
  unfold Grammar.join
  split
  · exact .pure (each_some (closed.joinedEntities (first _ rfl) (second _ rfl)))
  · exact .pure first
  · exact .pure (each_some (first _ rfl))
  · exact .refuse (.unexpected here (by decide) second)
  · exact .pure (each_some (closed.joinedProperties (first _ rfl) (second _ rfl)))
  · exact .pure first
  · exact .refuse (.unexpected here (by decide) second)
  · exact .pure second

theorem terminator (there : Token → Prop) (here : there token) (holds : Each good left) :
    (Grammar.terminator token left).Accounts inv good (Refusal citation inv good there)
      (Each good) := by
  apply Action.Accounts.ended.bind
  intro answer _
  split
  · exact .pure holds
  · split
    · exact .refuse (.unexpected here (by decide) holds)
    · apply (Action.Accounts.expression _).bind
      intro right more
      exact closed.join here holds more

theorem assignmentRule (there : Token → Prop) (here : there token)
    (marked : good (.assignment token.span)) (holds : Each good left) :
    (Grammar.assignment token left).Accounts inv good (Refusal citation inv good there)
      (Each good) := by
  unfold Grammar.assignment
  split
  · next name place =>
    have target : good (.target name place) := holds _ rfl
    apply Action.Accounts.state.bind
    intro builder _
    split
    · exact .refuse (.redefined target)
    · apply (Action.Accounts.expression _).bind
      intro right more
      apply (needValue_accounts here more).bind
      intro meaning given
      have defined (builder : Builder) (fault : Fault) (_ : inv builder)
          (failed : (Builder.onBindings (Bindings.define name meaning place) builder).1 =
            .error fault) :
          Refusal citation inv good there fault :=
        Bindings.eq_redefined_of_define failed ▸ .redefined target
      apply (Action.Accounts.perform (closed.assigned name place given) defined).bind
      intro _ _
      exact .pure (each_some marked)
  · exact .refuse (.unexpected here (by decide) holds)

theorem property (here : there token) (holds : Each good left) :
    (Grammar.property token left).Accounts inv good (Refusal citation inv good there)
      (Each good) := by
  apply (needEntities_accounts here (by decide) holds).bind
  intro predicates first
  apply (Action.Accounts.expression _).bind
  intro right more
  apply (needEntities_accounts here (by decide) more).bind
  intro objects second
  exact .pure (each_some (closed.crossed first second))

theorem description (here : fine token) (kind : token.kind = .arrow) (written : there token)
    (holds : Each good left) :
    (Grammar.description citation token left).Accounts inv good (Refusal citation inv good there)
      (Each good) := by
  unfold Grammar.description
  split
  · next idents place =>
    have first : good (.entities idents place) := holds _ rfl
    apply (Action.Accounts.expression _).bind
    intro right more
    apply (needProperties_accounts written (by decide) more).bind
    intro described found
    rcases found with ⟨other, second⟩
    have failed (builder : Builder) (fault : Fault) (kept : inv builder)
        (failed : (Property.attachEach citation token.span idents described builder.graph).1 =
          .error fault) :
        Refusal citation inv good there fault := .attached written first second kept failed
    apply (Action.Accounts.perform (closed.attached token here kind first second) failed).bind
    intro _ _
    exact .pure (each_some first)
  · next properties place =>
    have first : good (.descriptor properties place) := holds _ rfl
    apply (Action.Accounts.expression _).bind
    intro right more
    apply (needProperties_accounts written (by decide) more).bind
    intro citations found
    rcases found with ⟨other, second⟩
    exact .pure (each_some (closed.cited first second))
  · exact .refuse (.unexpected written (by decide) holds)

theorem label (here : there token) (holds : Each good left) :
    (Grammar.label token left).Accounts inv good (Refusal citation inv good there) (Each good) := by
  unfold Grammar.label
  split
  · next property place =>
    have first : good (.descriptor [property] place) := holds _ rfl
    apply (Action.Accounts.expression _).bind
    intro right more
    apply (needEntities_accounts here (by decide) more).bind
    intro found second
    rcases found with ⟨names, other⟩
    dsimp only
    split
    · exact .pure (each_some (closed.labelled first second))
    · next other_than_one =>
      have counted : names.length ≠ 1 := by
        intro one
        obtain ⟨name, only⟩ := List.length_eq_one_iff.1 one
        exact other_than_one name only
      exact .refuse (.labelSource here second counted)
  · next properties place other_than_one =>
    have counted : properties.length ≠ 1 := by
      intro one
      obtain ⟨property, only⟩ := List.length_eq_one_iff.1 one
      exact other_than_one property (only ▸ rfl)
    exact .refuse (.labelTarget here (holds _ rfl) counted)
  · exact .refuse (.unexpected here (by decide) holds)

theorem symbols_account :
    (symbols citation).Account inv good fine (Refusal citation inv good fine) where
  opening token rule here found := by
    rcases kind : token.kind
    all_goals
      simp only [Symbols.opening?, symbols, kind, Option.bind_some, Option.some.injEq,
        reduceCtorEq] at found
    · exact found ▸ closed.targetRule here kind
    · exact found ▸ closed.reference here kind
    · exact found ▸ closed.identifier here kind
    · rw [← found]
      apply (Action.Accounts.expression 0).bind
      intro inner holds
      apply (Action.Accounts.pass _).bind
      intro _ _
      exact .pure holds
    · rw [← found]
      apply Action.Accounts.ended.bind
      intro answer _
      split
      · exact .pure (by simp [Each])
      · exact Action.Accounts.expression 0
  following token rule left here found holds := by
    rcases kind : token.kind
    all_goals
      simp only [Symbols.following?, symbols, kind, Option.bind_some, Option.some.injEq,
        reduceCtorEq] at found
    · exact found ▸ closed.assignmentRule fine here (closed.assignment token here kind) holds
    · exact found ▸ closed.description here kind here holds
    · exact found ▸ closed.property here holds
    · exact found ▸ closed.label here holds
    · exact found ▸ closed.terminator fine here holds

theorem symbols_keep : (symbols citation).Keep inv good fine := closed.symbols_account.keep

end Closed

/-- Whatever the operations keep, a whole run over a source keeps, wherever it ends. -/
theorem parseFrom_keeps {limits : Limits} {source : String} {builder : Builder}
    (closed : Closed limits.citation inv good fine)
    (tokens : ∀ token, .ok token ∈ (Token.Cursor.ofSource source).tokens → fine token)
    (kept : inv builder) :
    inv (Compilation.parseFrom builder limits source).2 ∧
      ∀ meanings, (Compilation.parseFrom builder limits source).1 = .ok meanings →
        ∀ meaning ∈ meanings, good meaning := by
  have sound : Reader.Sound inv fine (Reader.ofSource source builder) :=
    ⟨kept, by simp [Reader.ofSource], tokens⟩
  rcases Reader.parse_keeps closed.symbols_keep limits.nesting _ sound with ⟨reached, answer⟩
  exact ⟨reached.state, answer⟩

end FactGraph.Grammar
