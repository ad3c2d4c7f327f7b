import FactGraph.Ident
import FactGraph.Span

namespace FactGraph

/-- The citations are about the statement that the property will make; the label, if there is one,
will be the name of that statement. -/
structure Property where
  predicate : Ident
  object : Ident
  citations : List Property
  label : Option Ident
  span : Span
  deriving Repr, Inhabited

namespace Property

def plain (predicate object : Ident) (span : Span) : Property := ⟨predicate, object, [], none, span⟩

def citedBy (property : Property) (extra : List Property) : Property :=
  { property with citations := property.citations ++ extra }

def labelled (property : Property) (label : Ident) : Property :=
  { property with label := some label }

def needsReification (property : Property) : Bool :=
  !property.citations.isEmpty || property.label.isSome

mutual

def equal? : (first second : Property) → Decidable (first = second)
  | ⟨predicate, object, citations, label, span⟩, ⟨predicate', object', citations', label', span'⟩ =>
    match decEq predicate predicate', decEq object object', equalAll? citations citations',
      decEq label label', decEq span span' with
    | isTrue a, isTrue b, isTrue c, isTrue d, isTrue e => isTrue (by rw [a, b, c, d, e])
    | isFalse different, _, _, _, _ => isFalse fun same => different (by injection same)
    | _, isFalse different, _, _, _ => isFalse fun same => different (by injection same)
    | _, _, isFalse different, _, _ => isFalse fun same => different (by injection same)
    | _, _, _, isFalse different, _ => isFalse fun same => different (by injection same)
    | _, _, _, _, isFalse different => isFalse fun same => different (by injection same)

def equalAll? : (first second : List Property) → Decidable (first = second)
  | [], [] => isTrue rfl
  | [], _ :: _ => isFalse nofun
  | _ :: _, [] => isFalse nofun
  | property :: rest, property' :: rest' =>
    match equal? property property', equalAll? rest rest' with
    | isTrue head, isTrue tail => isTrue (by rw [head, tail])
    | isFalse different, _ => isFalse fun same => different (List.cons.inj same).1
    | _, isFalse different => isFalse fun same => different (List.cons.inj same).2

end

instance : DecidableEq Property := equal?

end Property

end FactGraph
