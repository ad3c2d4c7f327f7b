import FactGraph.Proofs.Grammar.Joining

namespace FactGraph

open Precedence

namespace Property

variable {same : Ident → Ident → Prop}

mutual

theorem corresponds_flip : ∀ property property' : Property,
    Corresponds (flip same) property' property ↔ property.Corresponds same property'
  | ⟨predicate, object, citations, label, place⟩,
    ⟨predicate', object', citations', label', place'⟩ => by
    have labels : Option.Rel (flip same) label' label ↔ Option.Rel same label label' := by
      constructor <;> intro related <;> cases related <;> constructor <;> assumption
    simp only [Corresponds, flip, correspondAll_flip citations citations'] at labels ⊢
    rw [labels]

theorem correspondAll_flip : ∀ properties properties' : List Property,
    CorrespondAll (flip same) properties' properties ↔ CorrespondAll same properties properties'
  | [], [] => by simp [CorrespondAll]
  | [], _ :: _ => by simp [CorrespondAll]
  | _ :: _, [] => by simp [CorrespondAll]
  | property :: rest, property' :: rest' => by
    simp only [CorrespondAll, corresponds_flip property property', correspondAll_flip rest rest']

end

end Property

namespace Meaning

def isStatement : Meaning → Bool
  | entities _ _ | assignment _ => true
  | _ => false

variable {same : Ident → Ident → Prop} {naming : String → String → Prop} {meaning other : Meaning}

theorem Corresponds.flip (related : meaning.Corresponds same naming other) :
    other.Corresponds (flip same) (flip naming) meaning := by
  cases related with
  | entities related => exact .entities related.flip
  | descriptor related =>
    refine .descriptor (List.Forall₂.flip ?_)
    exact related.imp fun property property' => (Property.corresponds_flip property property').2
  | assignment => exact .assignment
  | target related => exact .target related

theorem Corresponds.isStatement_eq (related : meaning.Corresponds same naming other) :
    meaning.isStatement = other.isStatement := by
  cases related <;> rfl

end Meaning

namespace Grammar

def Stated (value : Option Meaning) : Prop := ∀ meaning ∈ value, meaning.isStatement = true

/-- What has been read behind something, and what it makes with it. -/
inductive Behind (same : Ident → Ident → Prop) (naming : String → String → Prop)
    (before : Option Meaning) :
    Option Meaning → Option Meaning → Prop
  | alike {own joined : Option Meaning}
      (related : Option.Rel (Meaning.Corresponds same naming) own joined) :
      Behind same naming before own joined
  | nothing : Behind same naming before none before
  | assigned {idents : List Ident} {place other : Span} (front : before =
        some (.entities idents place)) :
      Behind same naming before (some (.assignment other)) before
  | more {idents own others : List Ident} {place other joined : Span} (front : before =
        some (.entities idents place))
      (related : List.Forall₂ same own others) :
      Behind same naming before (some (.entities own other))
      (some (.entities (idents ++ others) joined))

variable {same : Ident → Ident → Prop} {naming : String → String → Prop}
  {before own joined right right' : Option Meaning}

theorem join_corresponds (span span' : Span)
    (lefts : Option.Rel (Meaning.Corresponds same naming) own joined)
    (rights : Option.Rel (Meaning.Corresponds same naming) right right') :
    (∃ value value', join span own right = pure value ∧ join span' joined right' = pure value' ∧
        Option.Rel (Meaning.Corresponds same naming) value value') ∨
      (∃ fault, join span own right = .refuse fault) ∧
      ∃ fault, join span' joined right' = .refuse fault := by
  cases lefts with
  | none => exact .inl ⟨_, _, rfl, rfl, rights⟩
  | some meanings =>
    cases meanings with
    | entities related =>
      cases rights with
      | none => exact .inl ⟨_, _, rfl, rfl, .some (.entities related)⟩
      | some others =>
        cases others with
        | entities more =>
          exact .inl ⟨_, _, rfl, rfl, .some (.entities (List.rel_append related more))⟩
        | assignment => exact .inl ⟨_, _, rfl, rfl, .some (.entities related)⟩
        | _ => exact .inr ⟨⟨_, rfl⟩, ⟨_, rfl⟩⟩
    | descriptor related =>
      cases rights with
      | none => exact .inl ⟨_, _, rfl, rfl, .some (.descriptor related)⟩
      | some others =>
        cases others with
        | descriptor more =>
          exact .inl ⟨_, _, rfl, rfl, .some (.descriptor (List.rel_append related more))⟩
        | _ => exact .inr ⟨⟨_, rfl⟩, ⟨_, rfl⟩⟩
    | _ => exact .inl ⟨_, _, rfl, rfl, rights⟩

theorem pure_ne_refuse {value : Option Meaning} {fault : Fault} :
    (pure value : Step (Option Meaning)) ≠ .refuse fault := nofun

theorem entities_join {idents : List Ident} {place : Span}
    (front : before = some (.entities idents place)) (span : Span)
    (rights : Option.Rel (Meaning.Corresponds same naming) right right') :
    (∃ value, join span before right' = pure value ∧ Behind same naming before right value) ∨
      (∃ fault, join span before right' = .refuse fault) ∧ ¬ Stated right := by
  have outside {meaning : Meaning} (other : meaning.isStatement = false) :
      ¬ Stated (some meaning) := fun stated =>
    Bool.false_ne_true (other.symm.trans (stated meaning rfl))
  subst front
  cases rights with
  | none => exact .inl ⟨_, rfl, .nothing⟩
  | some meanings =>
    cases meanings with
    | entities related => exact .inl ⟨_, rfl, .more rfl related⟩
    | assignment => exact .inl ⟨_, rfl, .assigned rfl⟩
    | _ => exact .inr ⟨⟨_, rfl⟩, outside rfl⟩

theorem Behind.join_cases (behind : Behind same naming before own joined) (stated : Stated before)
    (span span' : Span) (rights : Option.Rel (Meaning.Corresponds same naming) right right') :
    (∃ value value', join span own right = pure value ∧ join span' joined right' = pure value' ∧
        Behind same naming before value value') ∨
      (∃ fault, join span' joined right' = .refuse fault) ∧
        ∀ value, join span own right = pure value → ¬ Stated value := by
  cases behind with
  | alike related =>
    rcases join_corresponds span span' related rights
      with ⟨value, value', first, second, values⟩ | ⟨⟨_, first⟩, second⟩
    · exact .inl ⟨value, value', first, second, .alike values⟩
    · exact .inr ⟨second, fun value joined => absurd (joined.symm.trans first) pure_ne_refuse⟩
  | nothing =>
    -- Only entities make a difference to what stands behind them.
    rcases before with _ | meaning
    · exact .inl ⟨_, _, rfl, rfl, .alike rights⟩
    · cases meaning with
      | entities idents place =>
        rcases entities_join rfl span' rights with ⟨value, second, values⟩ | ⟨second, unstated⟩
        · exact .inl ⟨_, _, rfl, second, values⟩
        · refine .inr ⟨second, ?_⟩
          rintro value first
          obtain rfl : right = value := Action.give.inj first
          exact unstated
      | assignment => exact .inl ⟨_, _, rfl, rfl, .alike rights⟩
      | descriptor | target => exact absurd (stated _ rfl) Bool.false_ne_true
  | assigned front =>
    rcases entities_join front span' rights with ⟨value, second, values⟩ | ⟨second, unstated⟩
    · exact .inl ⟨_, _, rfl, second, values⟩
    · refine .inr ⟨second, ?_⟩
      rintro value first
      obtain rfl : right = value := Action.give.inj first
      exact unstated
  | more front related =>
    cases rights with
    | none => exact .inl ⟨_, _, rfl, rfl, .more front related⟩
    | some meanings =>
      cases meanings with
      | entities others =>
        refine .inl ⟨_, _, rfl, rfl, ?_⟩
        rw [List.append_assoc]
        exact .more front (List.rel_append related others)
      | assignment => exact .inl ⟨_, _, rfl, rfl, .more front related⟩
      | _ => exact .inr ⟨⟨_, rfl⟩, fun value first => absurd first.symm pure_ne_refuse⟩

theorem Stated.of_rel (related : Option.Rel (Meaning.Corresponds same naming) own joined)
    (stated : Stated own) :
    Stated joined := by
  cases related with
  | none => exact stated
  | some meanings => simpa [Stated, meanings.isStatement_eq] using stated

theorem Behind.stated (behind : Behind same naming before own joined) (first : Stated before)
    (second : Stated own) :
    Stated joined := by
  cases behind with
  | alike related => exact second.of_rel related
  | nothing | assigned => exact first
  | more => simp [Stated, Meaning.isStatement]

theorem Behind.known (behind : Behind same naming before own joined) (stated : Stated before) :
    (∀ name place, own ≠ some (.target name place)) ↔
    ∀ name place, joined ≠ some (.target name place) := by
  have none_before (name : String) (place : Span) : before ≠ some (.target name place) := by
    rintro rfl
    exact absurd (stated _ rfl) Bool.false_ne_true
  cases behind with
  | alike related =>
    cases related with
    | none => simp
    | some meanings => cases meanings <;> simp
  | nothing => exact iff_of_true (by simp) none_before
  | assigned => exact iff_of_true (by simp) none_before
  | more => exact iff_of_true (by simp) (by simp)

/-- Behind a statement, the same statements can be read as without it. -/
theorem joins_behind (c : Correspondence) (stated : Stated before) :
    Joins c.likeness Stated (Behind c.ident c.naming before) where
  known together _ := (together.known stated).1
  back {left right value span} known joined inside := by
    rintro meaning rfl
    cases meaning with
    | entities | assignment => rfl
    | target name place => exact absurd rfl (known name place)
    | descriptor properties place =>
      have outside (properties : List Property) (place : Span)
          (same : (pure (some (.descriptor properties place)) : Step (Option Meaning)) =
            pure value) : False := by
        obtain rfl := Action.give.inj same
        exact absurd (inside _ rfl) Bool.false_ne_true
      rcases right with _ | _ | _ | _ | _
      · exact (outside _ _ joined).elim
      · cases joined
      · exact (outside _ _ joined).elim
      · cases joined
      · cases joined
  step {left left' right right' value span} span' together rights joined inside := by
    rcases together.join_cases stated span span' rights
      with ⟨found, value', first, second, values⟩ | ⟨_, unstated⟩
    · obtain rfl : found = value := Action.give.inj (first.symm.trans joined)
      exact ⟨value', second, values⟩
    · exact absurd inside (unstated value joined)

/-- Without the statement before them, the same statements can be read as behind it. -/
theorem joins_without (c : Correspondence) (stated : Stated before) :
    Joins c.likeness (fun _ => True)
      (fun joined own => Behind (flip c.ident) (flip c.naming) before own joined) where
  known together _ := (together.known stated).2
  back _ _ _ := trivial
  step {left left' right right' value span} span' together rights joined _ := by
    have flipped : Option.Rel (Meaning.Corresponds (flip c.ident) (flip c.naming))
        right' right := by
      cases rights with
      | none => exact .none
      | some meanings => exact .some meanings.flip
    rcases together.join_cases stated span' span flipped
      with ⟨value', found, first, second, values⟩ | ⟨⟨_, refused⟩, _⟩
    · obtain rfl : found = value := Action.give.inj (second.symm.trans joined)
      exact ⟨value', first, values⟩
    · exact absurd (joined.symm.trans refused) pure_ne_refuse

end Grammar

end FactGraph
