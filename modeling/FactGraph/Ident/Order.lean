import FactGraph.Ident

/-! The order of identifiers: by kind, then by text, number and role. -/

namespace FactGraph

namespace Role

def rank : Role → Nat
  | subject => 0
  | predicate => 1
  | object => 2

theorem rank_injective (first second : Role) (same : first.rank = second.rank) :
    first = second := by
  cases first <;> cases second <;> first | rfl | cases same

end Role

namespace Ident

def key : Ident → Nat × String × Nat × Nat
  | user text => (0, text, 0, 0)
  | unique text => (1, text, 0, 0)
  | auto number => (2, "", number, 0)
  | statement number => (3, "", number, 0)
  | part group role => (4, "", group, role.rank)
  | reification role => (5, "", 0, role.rank)

theorem key_injective (first second : Ident) (same : first.key = second.key) : first = second := by
  cases first with
  | user text =>
    cases second with
    | user other => simpa [key] using same
    | _ => simp [key] at same
  | unique text =>
    cases second with
    | unique other => simpa [key] using same
    | _ => simp [key] at same
  | auto number =>
    cases second with
    | auto other => simpa [key] using same
    | _ => simp [key] at same
  | statement number =>
    cases second with
    | statement other => simpa [key] using same
    | _ => simp [key] at same
  | part group role =>
    cases second with
    | part other also =>
      simp only [key, Prod.mk.injEq, true_and] at same
      rw [same.1, Role.rank_injective role also same.2]
    | _ => simp [key] at same
  | reification role =>
    cases second with
    | reification also =>
      simp only [key, Prod.mk.injEq, true_and] at same
      rw [Role.rank_injective role also same]
    | _ => simp [key] at same

def compareKeys (first second : Nat × String × Nat × Nat) : Ordering :=
  (compare first.1 second.1).then <| (compare first.2.1 second.2.1).then <|
    (compare first.2.2.1 second.2.2.1).then (compare first.2.2.2 second.2.2.2)

instance : Ord Ident := ⟨fun first second => compareKeys first.key second.key⟩

def atMost (first second : Ident) : Bool := (compare first second).isLE

end Ident

end FactGraph
