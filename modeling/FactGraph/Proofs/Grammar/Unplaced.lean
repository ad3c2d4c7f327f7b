import FactGraph.Compilation
import FactGraph.Proofs.Grammar.Corresponding
import FactGraph.Proofs.Graph.Unplaced

namespace FactGraph

/-- What a token says, wherever and however it is written. -/
def Token.outline (token : Token) : Token.Kind × Option String := (token.kind, token.value)

namespace Property

mutual

theorem corresponds_eq_iff : ∀ property property' : Property,
    property.Corresponds Eq property' ↔ property.unplaced = property'.unplaced
  | ⟨predicate, object, citations, label, place⟩,
    ⟨predicate', object', citations', label', place'⟩ => by
    simp only [Corresponds, unplaced, mk.injEq, correspondAll_eq_iff citations citations',
      Precedence.rel_eq_iff, and_true]

theorem correspondAll_eq_iff : ∀ properties properties' : List Property,
    CorrespondAll Eq properties properties' ↔ unplacedAll properties = unplacedAll properties'
  | [], [] => by simp [CorrespondAll]
  | [], _ :: _ => by simp [CorrespondAll, unplacedAll]
  | _ :: _, [] => by simp [CorrespondAll, unplacedAll]
  | property :: rest, property' :: rest' => by
    simp only [CorrespondAll, unplacedAll, List.cons.injEq, corresponds_eq_iff property property',
      correspondAll_eq_iff rest rest']

end

theorem forall₂_corresponds_eq_iff {properties properties' : List Property} :
    List.Forall₂ (Corresponds Eq) properties properties' ↔
      properties.map unplaced = properties'.map unplaced := by
  rw [← correspondAll_iff, correspondAll_eq_iff, unplacedAll_eq_map, unplacedAll_eq_map]

end Property

namespace Meaning

def unplaced : Meaning → Meaning
  | entities idents _ => entities idents .atStart
  | descriptor properties _ => descriptor (properties.map Property.unplaced) .atStart
  | assignment _ => assignment .atStart
  | target name _ => target name .atStart

inductive Alike : Meaning → Meaning → Prop
  | entities {idents : List Ident} {place other : Span} :
      Alike (.entities idents place) (.entities idents other)
  | descriptor {properties others : List Property} {place other : Span}
      (same : properties.map Property.unplaced = others.map Property.unplaced) :
      Alike (.descriptor properties place) (.descriptor others other)
  | assignment {place other : Span} : Alike (.assignment place) (.assignment other)
  | target {name : String} {place other : Span} : Alike (.target name place) (.target name other)

theorem alike_iff {first second : Meaning} :
    Alike first second ↔ first.unplaced = second.unplaced := by
  constructor
  · intro alike
    cases alike with
    | descriptor same => simp only [unplaced, same]
    | _ => rfl
  · intro same
    cases first <;> cases second <;>
      simp only [unplaced, reduceCtorEq, entities.injEq, descriptor.injEq,
      target.injEq, and_true] at same
    · exact same ▸ .entities
    · exact .descriptor same
    · exact .assignment
    · exact same ▸ .target

theorem corresponds_eq_iff {first second : Meaning} :
    Corresponds Eq Eq first second ↔ Alike first second := by
  constructor
  · intro related
    cases related with
    | entities same =>
      obtain rfl := List.forall₂_eq_eq_eq ▸ same
      exact .entities
    | descriptor same => exact .descriptor (Property.forall₂_corresponds_eq_iff.1 same)
    | assignment => exact .assignment
    | target same => exact same ▸ .target
  · intro alike
    cases alike with
    | entities => exact .entities (List.forall₂_same.2 fun _ _ => rfl)
    | descriptor same => exact .descriptor (Property.forall₂_corresponds_eq_iff.2 same)
    | assignment => exact .assignment
    | target => exact .target rfl

end Meaning

namespace Bindings

def unplaced (bindings : Bindings) : Bindings :=
  bindings.map fun entry => (entry.1, entry.2.unplaced)

theorem lookup_unplaced (bindings : Bindings) (name : String) :
    (unplaced bindings).lookup name = (bindings.lookup name).map Meaning.unplaced := by
  induction bindings with
  | nil => rfl
  | cons entry bindings ih =>
    have mapped : unplaced (entry :: bindings) = (entry.1, entry.2.unplaced) :: unplaced bindings :=
      rfl
    rw [mapped, List.lookup_cons, List.lookup_cons, ih]
    split <;> rfl

end Bindings

theorem Token.corresponds_eq_iff {token other : Token} :
    Token.Corresponds Eq Eq token other ↔ token.outline = other.outline := by
  rw [Token.outline, Token.outline, Prod.mk.injEq]
  constructor
  · intro tokens
    refine ⟨tokens.kind, ?_⟩
    by_cases named : token.kind = .target ∨ token.kind = .reference
    · rcases tokens.naming named with ⟨present, same⟩
      cases found : token.value <;> cases found' : other.value <;> simp_all
    · by_cases text : token.kind = .identifier
      · exact tokens.text text
      · apply tokens.none
        cases kind : token.kind <;> simp_all [Token.Kind.carriesName]
  · rintro ⟨kind, value⟩
    exact ⟨kind, fun _ => value, fun _ => value ▸ ⟨rfl, rfl⟩, fun _ => value⟩

theorem Fault.quoting_id (fault : Fault) : fault.quoting id = fault.unplaced := by
  cases fault <;> rfl

def Builder.unplaced (builder : Builder) : Builder :=
  ⟨builder.graph.unplaced, builder.bindings.unplaced⟩

namespace Grammar

open Precedence

def placeless : Likeness Builder Meaning where
  together first second := first.unplaced = second.unplaced
  alone _ := False
  state first second := first.unplaced = second.unplaced
  meaning := Meaning.Alike
  token first second := first.outline = second.outline

/-- Every name stands for itself, and every place for any other. The first run may stop alone with
some faults. -/
def indistinct (alone : Fault → Prop) : Correspondence where
  ident := Eq
  text := Eq
  naming := Eq
  graph first second := first.unplaced = second.unplaced
  bindings first second := first.unplaced = second.unplaced
  quote := id
  alone := alone

variable {alone : Fault → Prop}

theorem likeness_indistinct : (indistinct alone).likeness = { placeless with alone } := by
  have together : (indistinct alone).likeness.together = placeless.together := by
    funext first second
    simp only [Correspondence.likeness, indistinct, placeless, Fault.quoting_id]
  have state : (indistinct alone).likeness.state = placeless.state := by
    funext first second
    simp only [Correspondence.likeness, indistinct, placeless, Builder.unplaced, Builder.mk.injEq]
  have meaning : (indistinct alone).likeness.meaning = placeless.meaning := by
    funext first second
    exact propext Meaning.corresponds_eq_iff
  have token : (indistinct alone).likeness.token = placeless.token := by
    funext first second
    exact propext Token.corresponds_eq_iff
  calc (indistinct alone).likeness
      = ⟨⟨(indistinct alone).likeness.together, alone⟩, (indistinct alone).likeness.state,
          (indistinct alone).likeness.meaning, (indistinct alone).likeness.token⟩ := rfl
    _ = { placeless with alone } := by rw [together, state, meaning, token]

theorem alike_of_unplaces {α : Type} {step other common : Attempt Graph α}
    (first : Attempt.Unplaces step common) (second : Attempt.Unplaces other common)
    {graph graph' : Graph} (graphs : graph.unplaced = graph'.unplaced) :
    Attempt.Alike (indistinct alone).likeness.toFailing (indistinct alone).graph Eq (step graph)
      (other graph') := by
  have before := first graph
  have after := second graph'
  rw [graphs, after] at before
  revert before
  generalize step graph = ending
  generalize other graph' = ending'
  intro before
  rcases ending with ⟨fault | value, reached⟩ <;> rcases ending'
    with ⟨fault' | value', reached'⟩ <;>
    simp only [Except.mapError, Prod.mk.injEq, reduceCtorEq, false_and, Except.error.injEq,
      Except.ok.injEq] at before
  · refine .failed ?_ before.2.symm
    simp only [Correspondence.likeness, indistinct, Fault.quoting_id, before.1]
  · exact .answered before.1.symm before.2.symm

theorem indistinct_carried (citation : Nat) :
    (indistinct alone).Carried citation fun _ => True where
  quoted := .inr ⟨fun _ _ => id, fun _ _ => id⟩
  strayed := .inl fun _ => trivial
  allocated := by
    rintro value _ graph graph' rfl graphs
    have unplaces := Graph.allocate_unplaces value
    have ending : Attempt.Alike (indistinct alone).likeness.toFailing _ Eq _ _ :=
      alike_of_unplaces unplaces unplaces graphs
    cases ending with
    | answered answers reached => exact ⟨answers, reached⟩
  attached := by
    intro idents idents' properties properties' graph graph' span span' same related graphs _
    obtain rfl := List.forall₂_eq_eq_eq ▸ same
    have first := Property.attachEach_unplaces citation span idents properties
    have second := Property.attachEach_unplaces citation span' idents properties'
    rw [← Property.forall₂_corresponds_eq_iff.1 related] at second
    exact alike_of_unplaces first second graphs
  resolved := by
    rintro name _ bindings bindings' rfl same
    have values : (bindings.lookup name).map Meaning.unplaced =
        (bindings'.lookup name).map Meaning.unplaced := by
      rw [← Bindings.lookup_unplaced, same, Bindings.lookup_unplaced]
    revert values
    generalize bindings.lookup name = found
    generalize bindings'.lookup name = found'
    intro values
    cases found <;> cases found' <;> simp only [Option.map_none, Option.map_some, reduceCtorEq,
      Option.some.injEq] at values
    · exact .none
    · exact .some (Meaning.corresponds_eq_iff.2 (Meaning.alike_iff.2 values))
  defined := by
    rintro name _ value value' bindings bindings' rfl values same _
    have entry : (name, value.unplaced) = (name, value'.unplaced) :=
      congrArg _ (Meaning.alike_iff.1 (Meaning.corresponds_eq_iff.1 values))
    exact congrArg₂ List.cons entry same

theorem symbols_indistinct (alone : Fault → Prop) (citation : Nat) :
    (symbols citation).Parallel (indistinct alone).likeness (symbols citation) := by
  have carried : (indistinct alone).Carried citation fun _ => True := indistinct_carried citation
  have follow := carried.symbols_follow
  rwa [Symbols.guarded_of_forall (symbols citation) fun _ => trivial] at follow

theorem likeness_indistinct_never : (indistinct fun _ => False).likeness = placeless :=
  likeness_indistinct

theorem placeless_fair : placeless.Fair := likeness_indistinct_never ▸ (indistinct_carried 0).fair

theorem symbols_placeless (citation : Nat) :
    (symbols citation).Parallel placeless (symbols citation) :=
  likeness_indistinct_never ▸ symbols_indistinct _ citation

theorem graph_of_unplaced_eq {builder builder' : Builder}
    (states : builder.unplaced = builder'.unplaced) :
    builder.graph.unplaced = builder'.graph.unplaced := congrArg Builder.graph states

end Grammar

namespace Compilation

open Precedence

def unplaced (compilation : Compilation) : Compilation :=
  ⟨compilation.meanings.map Meaning.unplaced, compilation.graph.unplaced⟩

def outline : Except Fault Compilation → Except Fault Compilation
  | .ok compilation => .ok compilation.unplaced
  | .error fault => .error fault.unplaced

theorem map_unplaced_of_alike {meanings others : List Meaning}
    (alike : List.Forall₂ Meaning.Alike meanings others) :
    meanings.map Meaning.unplaced = others.map Meaning.unplaced := by
  induction alike with
  | nil => rfl
  | cons first _ ih => rw [List.map_cons, List.map_cons, ih, Meaning.alike_iff.mp first]

/-- Sources whose tokens agree in kinds and values come to the same, up to places. -/
theorem outline_ofSource_eq {source edited : String} (limits : Limits)
    (tokens : List.Forall₂ (Reader.Due Grammar.placeless) (Token.Cursor.ofSource edited).tokens
      (Token.Cursor.ofSource source).tokens) :
    outline (ofSource edited limits) = outline (ofSource source limits) := by
  have readers : Reader.Alike Grammar.placeless (Reader.ofSource edited Builder.empty)
      (Reader.ofSource source Builder.empty) := ⟨rfl, .none, tokens⟩
  have rooms : Reader.Roomy Grammar.placeless limits.nesting limits.nesting limits.nesting
      limits.nesting :=
    .even rfl
  have parsed :=
    Reader.parse_parallel Grammar.placeless_fair (Grammar.symbols_placeless limits.citation) rooms
    _ _ readers
  unfold ofSource parseFrom
  revert parsed
  generalize Reader.parse (Grammar.symbols limits.citation) limits.nesting
    (Reader.ofSource edited _) = ending
  generalize Reader.parse (Grammar.symbols limits.citation) limits.nesting
    (Reader.ofSource source _) = ending'
  intro parsed
  cases parsed with
  | answered answers reached =>
    have graphs := Grammar.graph_of_unplaced_eq reached.state
    exact congrArg Except.ok (congrArg₂ Compilation.mk (map_unplaced_of_alike answers) graphs)
  | failed faults _ => exact congrArg Except.error faults
  | alone stopped => exact stopped.elim

end Compilation

end FactGraph
