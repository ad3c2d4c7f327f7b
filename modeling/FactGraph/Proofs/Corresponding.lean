import FactGraph.Builder
import FactGraph.Proofs.Token.Values
import Mathlib.Data.List.Forall2
import Mathlib.Data.Option.Basic

namespace FactGraph

namespace Property

mutual

/-- The same but for places, where identifiers stand for each other. -/
def Corresponds (same : Ident → Ident → Prop) : Property → Property → Prop
  | ⟨predicate, object, citations, label, _⟩, ⟨predicate', object', citations', label', _⟩ =>
    same predicate predicate' ∧ same object object' ∧ CorrespondAll same citations citations' ∧
      Option.Rel same label label'

def CorrespondAll (same : Ident → Ident → Prop) : List Property → List Property → Prop
  | [], [] => True
  | property :: rest, property' :: rest' =>
    Corresponds same property property' ∧ CorrespondAll same rest rest'
  | _, _ => False

end

variable {same : Ident → Ident → Prop} {property property' : Property}
  {properties properties' : List Property}

theorem correspondAll_iff :
    CorrespondAll same properties properties' ↔
    List.Forall₂ (Corresponds same) properties properties' := by
  induction properties generalizing properties' with
  | nil => cases properties' <;> simp [CorrespondAll]
  | cons property rest ih => cases properties' <;> simp [CorrespondAll, ih]

theorem corresponds_iff : property.Corresponds same property' ↔
    same property.predicate property'.predicate ∧ same property.object property'.object ∧
      List.Forall₂ (Corresponds same) property.citations property'.citations ∧
      Option.Rel same property.label property'.label := by
  rcases property with ⟨predicate, object, citations, label, place⟩
  rcases property' with ⟨predicate', object', citations', label', place'⟩
  rw [Corresponds, correspondAll_iff]

theorem Corresponds.citedBy {citations citations' : List Property}
    (first : property.Corresponds same property')
    (second : List.Forall₂ (Corresponds same) citations citations') :
    (property.citedBy citations).Corresponds same (property'.citedBy citations') := by
  rcases corresponds_iff.1 first with ⟨predicates, objects, cited, labels⟩
  exact corresponds_iff.2 ⟨predicates, objects, List.rel_append cited second, labels⟩

theorem Corresponds.labelled {name name' : Ident} (first : property.Corresponds same property')
    (names : same name name') :
    (property.labelled name).Corresponds same (property'.labelled name') := by
  rcases corresponds_iff.1 first with ⟨predicates, objects, cited, _⟩
  exact corresponds_iff.2 ⟨predicates, objects, cited, .some names⟩

theorem corresponds_plain {predicate predicate' object object' : Ident} (span span' : Span)
    (predicates : same predicate predicate') (objects : same object object') :
    (plain predicate object span).Corresponds same (plain predicate' object' span') :=
  corresponds_iff.2 ⟨predicates, objects, .nil, .none⟩

end Property

inductive Meaning.Corresponds (same : Ident → Ident → Prop) (naming : String → String → Prop) :
    Meaning → Meaning → Prop
  | entities {idents others : List Ident} {place other : Span}
      (related : List.Forall₂ same idents others) :
      Corresponds same naming (.entities idents place) (.entities others other)
  | descriptor {properties others : List Property} {place other : Span}
      (related : List.Forall₂ (Property.Corresponds same) properties others) :
      Corresponds same naming (.descriptor properties place) (.descriptor others other)
  | assignment {place other : Span} :
      Corresponds same naming (.assignment place) (.assignment other)
  | target {name name' : String} {place other : Span} (related : naming name name') :
      Corresponds same naming (.target name place) (.target name' other)

structure Token.Corresponds (text : Option String → Option String → Prop)
    (naming : String → String → Prop) (token other : Token) : Prop where
  kind : token.kind = other.kind
  text : token.kind = .identifier → text token.value other.value
  naming : token.kind = .target ∨ token.kind = .reference →
    token.value.isSome = other.value.isSome ∧ naming (token.value.getD "") (other.value.getD "")
  none : token.kind.carriesName = false → token.value = other.value

def Fault.quoting (quote : String → String) : Fault → Fault
  | unreadable _ _ excerpt => unreadable 0 .first (quote excerpt)
  | unexpected context expected found _ => unexpected context expected (quote found) .first
  | pastEnd _ => pastEnd .first
  | mismatch expected found _ => mismatch expected (quote found) .first
  | redefined name _ => redefined (quote name) .first
  | undefined name _ => undefined (quote name) .first
  | labelTarget count _ => labelTarget count .first
  | labelSource count _ => labelSource count .first
  | statementTaken ident _ => statementTaken (quote ident) .first
  | fault => fault

end FactGraph
