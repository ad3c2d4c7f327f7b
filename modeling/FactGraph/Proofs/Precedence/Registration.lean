import FactGraph.Precedence.Symbols

namespace FactGraph.Precedence

variable {σ ν β : Type}

/-- What one registration asks for: at least this power for a kind, and the rules that it brings. -/
structure Registration (σ ν : Type) where
  kind : Token.Kind
  power : Nat
  opening : Option (Opening σ ν) := none
  following : Option (Following σ ν) := none

namespace Symbols

variable {symbols : Symbols σ ν} {kind : Token.Kind}

theorem defines_of_opening? {rule : Opening σ ν} (opening : symbols.opening? kind = some rule) :
    symbols.defines kind = true := by
  rcases Option.bind_eq_some_iff.mp opening with ⟨symbol, found, _⟩
  rw [defines, found, Option.isSome_some]

theorem defines_of_following? {rule : Following σ ν}
    (following : symbols.following? kind = some rule) :
    symbols.defines kind = true := by
  rcases Option.bind_eq_some_iff.mp following with ⟨symbol, found, _⟩
  rw [defines, found, Option.isSome_some]

end Symbols

namespace Registration

def apply (symbols : Symbols σ ν) (registration : Registration σ ν) : Symbols σ ν :=
  let opened :=
    match registration.opening with
    | some rule => symbols.addOpening registration.kind registration.power rule
    | none => symbols.add registration.kind registration.power
  match registration.following with
  | some rule => opened.addFollowing registration.kind registration.power rule
  | none => opened

def table (registrations : List (Registration σ ν)) : Symbols σ ν :=
  registrations.foldl apply Symbols.none

def highest (registrations : List (Registration σ ν)) (kind : Token.Kind) : Nat :=
  ((registrations.filter (·.kind = kind)).map (·.power)).foldl max 0

variable {symbols : Symbols σ ν} {registration : Registration σ ν}
  {registrations : List (Registration σ ν)} {kind : Token.Kind}

theorem apply_eq : apply symbols registration kind =
    if kind = registration.kind then
      some ⟨max (symbols.power kind) registration.power,
            registration.opening <|> symbols.opening? kind,
        registration.following <|> symbols.following? kind⟩
    else symbols kind := by
  rcases registration with ⟨registered, power, opening, following⟩
  by_cases same : kind = registered
  · subst same
    rcases found : symbols kind with _ | ⟨strength, opening', following'⟩ <;>
      rcases opening with _ | rule <;> rcases following with _ | rule' <;>
      simp [apply, Symbols.addOpening, Symbols.addFollowing, Symbols.add, Symbols.alter,
        Symbols.power, Symbols.opening?, Symbols.following?, found]
  · rcases opening with _ | rule <;> rcases following with _ | rule' <;>
      simp [apply, Symbols.addOpening, Symbols.addFollowing, Symbols.add, Symbols.alter, same]

theorem power_apply : (apply symbols registration).power kind =
    if kind = registration.kind then max (symbols.power kind) registration.power
      else symbols.power kind := by
  simp only [Symbols.power, apply_eq]
  by_cases same : kind = registration.kind
  · simp only [if_pos same]
  · simp only [if_neg same]

theorem opening?_apply : (apply symbols registration).opening? kind =
    if kind = registration.kind then registration.opening <|> symbols.opening? kind
    else symbols.opening? kind := by
  rw [Symbols.opening?, apply_eq]
  split <;> rfl

theorem following?_apply : (apply symbols registration).following? kind =
    if kind = registration.kind then registration.following <|> symbols.following? kind
    else symbols.following? kind := by
  rw [Symbols.following?, apply_eq]
  split <;> rfl

theorem defines_apply : (apply symbols registration).defines kind =
    (decide (kind = registration.kind) || symbols.defines kind) := by
  rw [Symbols.defines, apply_eq]
  split
  · next same => simp [same]
  · next other => simp [other, Symbols.defines]

theorem power_table : (table registrations).power kind = highest registrations kind := by
  suffices from_any : ∀ symbols : Symbols σ ν, (registrations.foldl apply symbols).power kind =
      ((registrations.filter (·.kind = kind)).map (·.power)).foldl max (symbols.power kind)
      from from_any _
  induction registrations with
  | nil => exact fun _ => rfl
  | cons registration rest ih =>
    intro symbols
    rw [List.foldl_cons, ih, power_apply]
    by_cases same : registration.kind = kind
    · simp [same]
    · simp [same, Ne.symm same]

theorem defines_table (registered : ∃ registration ∈ registrations, registration.kind = kind) :
    (table registrations).defines kind = true := by
  suffices from_any : ∀ symbols : Symbols σ ν,
      symbols.defines kind = true ∨ (∃ registration ∈ registrations, registration.kind = kind) →
        (registrations.foldl apply symbols).defines kind = true from from_any _ (.inr registered)
  clear registered
  induction registrations with
  | nil => simp
  | cons registration rest ih =>
    intro symbols known
    apply ih
    rw [defines_apply]
    grind

/-- A rule that all registrations of a kind agree on is the rule of the kind. The rule is looked at
in any place of the symbols in which the registrations replace it. -/
theorem rule_table {rule : β} (place : Symbols σ ν → Option β) (given : Registration σ ν → Option β)
    (replaces : ∀ symbols registration, place (apply symbols registration) =
      if kind = registration.kind then given registration <|> place symbols else place symbols)
    (agreed : ∀ registration ∈ registrations, registration.kind = kind →
      ∀ found ∈ given registration, found = rule)
    (brought : ∃ registration ∈ registrations, registration.kind = kind ∧
      (given registration).isSome) :
    place (table registrations) = some rule := by
  suffices from_any : ∀ symbols : Symbols σ ν, place symbols = some rule ∨
      (∃ registration ∈ registrations, registration.kind = kind ∧ (given registration).isSome) →
        place (registrations.foldl apply symbols) = some rule from from_any _ (.inr brought)
  clear brought
  induction registrations with
  | nil => simp
  | cons registration rest ih =>
    intro symbols known
    apply ih (fun later inside => agreed later (List.mem_cons_of_mem _ inside))
    have first := agreed registration List.mem_cons_self
    rw [replaces]
    rcases known with there | ⟨found, inside, about, some_rule⟩
    · left
      by_cases same : kind = registration.kind
      · rw [if_pos same]
        cases brings : given registration with
        | none => exact there
        | some own => rw [first same.symm own brings]; rfl
      · rw [if_neg same, there]
    · rcases List.mem_cons.mp inside with rfl | later
      · left
        rw [if_pos about.symm]
        rcases Option.isSome_iff_exists.mp some_rule with ⟨own, brings⟩
        rw [brings, first about own brings]
        rfl
      · exact .inr ⟨found, later, about, some_rule⟩

theorem opening?_table {rule : Opening σ ν}
    (agreed : ∀ registration ∈ registrations, registration.kind = kind →
      ∀ found ∈ registration.opening, found = rule)
    (brought : ∃ registration ∈ registrations, registration.kind = kind ∧
      registration.opening.isSome) :
    (table registrations).opening? kind = some rule :=
  rule_table (·.opening? kind) (·.opening) (fun _ _ => opening?_apply) agreed brought

theorem following?_table {rule : Following σ ν}
    (agreed : ∀ registration ∈ registrations, registration.kind = kind →
      ∀ found ∈ registration.following, found = rule)
    (brought : ∃ registration ∈ registrations, registration.kind = kind ∧
      registration.following.isSome) :
    (table registrations).following? kind = some rule :=
  rule_table (·.following? kind) (·.following) (fun _ _ => following?_apply) agreed brought

end Registration

end FactGraph.Precedence
