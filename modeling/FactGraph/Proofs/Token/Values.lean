import FactGraph.Token.Cursor

namespace FactGraph.Token

def Kind.carriesName : Kind → Bool
  | .target => true
  | .reference => true
  | .identifier => true
  | _ => false

def Piece.isName : Piece → Bool
  | name _ => true
  | _ => false

namespace Pattern

variable {source : List Char} {kind : Kind} {lexeme : Lexeme}

theorem isSome_value_of_lexemeOf {pieces : List Piece}
    (found : lexemeOf pieces source = some lexeme) :
    lexeme.value.isSome = pieces.any Piece.isName := by
  induction pieces generalizing source lexeme with
  | nil =>
    simp only [lexemeOf, Option.some.injEq] at found
    subst found
    rfl
  | cons piece pieces ih =>
    simp only [lexemeOf, Option.bind_eq_bind, Option.bind_eq_some_iff, Option.pure_def,
      Option.some.injEq, Prod.exists] at found
    rcases found with ⟨taken, rest, _, tail, deeper, rfl⟩
    have later := ih deeper
    cases piece <;> simp [Piece.value?, Piece.isName, later]

theorem split_of_first? {patterns : List Pattern}
    (found : first? source patterns = some (kind, lexeme)) :
    ∃ early pattern late, patterns = early ++ pattern :: late ∧
    (∀ other ∈ early, other.lexeme? source = none) ∧
      pattern.kind = kind ∧ pattern.lexeme? source = some lexeme := by
  induction patterns with
  | nil => contradiction
  | cons first patterns ih =>
    rw [first?] at found
    cases hit : first.lexeme? source with
    | some here =>
      rw [hit] at found
      rcases Prod.mk.inj (Option.some.inj found) with ⟨same, rfl⟩
      exact ⟨[], first, patterns, rfl, List.forall_mem_nil _, same, hit⟩
    | none =>
      rw [hit] at found
      rcases ih found with ⟨early, pattern, late, rfl, none, same, later⟩
      exact ⟨first :: early, pattern, late, rfl, List.forall_mem_cons.2 ⟨hit, none⟩, same, later⟩

theorem exists_of_first? {patterns : List Pattern}
    (found : first? source patterns = some (kind, lexeme)) :
    ∃ pattern ∈ patterns, pattern.kind = kind ∧ pattern.lexeme? source = some lexeme := by
  rcases split_of_first? found with ⟨early, pattern, late, rfl, -, same, hit⟩
  exact ⟨pattern, List.mem_append_right _ List.mem_cons_self, same, hit⟩

theorem isSome_value_of_first? (found : first? source all = some (kind, lexeme)) :
    lexeme.value.isSome = kind.carriesName := by
  have agree : ∀ pattern ∈ all, pattern.pieces.any Piece.isName = pattern.kind.carriesName := by
    decide
  rcases exists_of_first? found with ⟨pattern, inside, rfl, hit⟩
  rw [lexeme?, Option.filter_eq_some_iff] at hit
  exact (isSome_value_of_lexemeOf hit.1).trans (agree pattern inside)

end Pattern

namespace Cursor

theorem forall_mem_tokens {good : Token → Prop}
    (read : ∀ (cursor after : Cursor) (token : Token), cursor.token =
      .ok (token, after) → good token)
    (cursor : Cursor) (token : Token) (inside : .ok token ∈ cursor.tokens) : good token := by
  by_cases ended : cursor.rest = []
  · rw [tokens_of_rest_nil ended, List.mem_singleton, Except.ok.injEq] at inside
    exact inside ▸ read cursor _ _ (token_of_rest_nil ended)
  · rcases next : cursor.token with fault | ⟨first, after⟩
    · rw [tokens_of_fault ended next] at inside
      simp at inside
    · rw [tokens_of_token ended next, List.mem_cons] at inside
      have shorter := length_rest_lt_of_token ended next
      rcases inside with same | later
      · exact Except.ok.inj same ▸ read cursor after first next
      · exact forall_mem_tokens read after token later
termination_by cursor.rest.length

theorem isSome_value_of_mem_tokens (cursor : Cursor) (token : Token)
    (inside : .ok token ∈ cursor.tokens) :
    token.value.isSome = token.kind.carriesName := by
  revert cursor token
  apply forall_mem_tokens
  intro cursor after token read
  by_cases ended : cursor.rest = []
  · rw [token_of_rest_nil ended] at read
    rcases Prod.mk.inj (Except.ok.inj read) with ⟨rfl, _⟩
    rfl
  · rw [token_of_rest_ne_nil ended] at read
    split at read
    · next kind lexeme found =>
      rcases Prod.mk.inj (Except.ok.inj read) with ⟨rfl, _⟩
      rw [tokenAt, Option.isSome_map]
      exact Pattern.isSome_value_of_first? found
    · contradiction

end Cursor

end FactGraph.Token
