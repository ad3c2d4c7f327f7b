import FactGraph.Proofs.Token.Classes

namespace FactGraph.Token

def Stops (belongs : Char → Bool) (text : List Char) : Prop := ∀ c ∈ text.head?, belongs c = false

namespace Stops

variable {belongs : Char → Bool} {text rest : List Char}

theorem nil : Stops belongs [] := by
  intro c first
  contradiction

theorem cons {c : Char} (outside : belongs c = false) : Stops belongs (c :: rest) := by
  intro other first
  simp only [List.head?_cons, Option.mem_def, Option.some.injEq] at first
  exact first ▸ outside

theorem append (all : ∀ c ∈ text, belongs c = false) (stop : Stops belongs rest) :
    Stops belongs (text ++ rest) := by
  cases text with
  | nil => exact stop
  | cons c text => exact cons (all c List.mem_cons_self)

theorem mono {other : Char → Bool} (stop : Stops belongs text)
    (within : ∀ c, belongs c = false → other c = false) : Stops other text :=
  fun c first => within c (stop c first)

theorem takeWhile_eq (stop : Stops belongs text) : text.takeWhile belongs = [] := by
  cases text with
  | nil => rfl
  | cons c text => simp [stop c (by simp)]

theorem dropWhile_eq (stop : Stops belongs text) : text.dropWhile belongs = text := by
  cases text with
  | nil => rfl
  | cons c text => simp [stop c (by simp)]

theorem takeWhile_append (all : ∀ c ∈ text, belongs c = true) (stop : Stops belongs rest) :
    (text ++ rest).takeWhile belongs = text := by
  rw [List.takeWhile_append_of_pos all, stop.takeWhile_eq, List.append_nil]

theorem dropWhile_append (all : ∀ c ∈ text, belongs c = true) (stop : Stops belongs rest) :
    (text ++ rest).dropWhile belongs = rest := by
  rw [List.dropWhile_append_of_pos all, stop.dropWhile_eq]

end Stops

theorem trimEnd_append {text blanks : List Char} (all : ∀ c ∈ blanks, Text.isBlank c = true)
    (stop : Stops Text.isBlank text.reverse) : Text.trimEnd (text ++ blanks) = text := by
  have white : ∀ c ∈ blanks.reverse, Text.isBlank c = true :=
    fun c inside => all c (List.mem_reverse.1 inside)
  rw [Text.trimEnd, List.reverse_append, Stops.dropWhile_append white stop, List.reverse_reverse]

namespace Piece

variable {belongs : Char → Bool} {text rest : List Char}

theorem split_name (nonempty : text ≠ []) (all : ∀ c ∈ text, belongs c = true)
    (stop : Stops belongs rest) : (name belongs).split (text ++ rest) = some (text, rest) := by
  have some : text.isEmpty = false := List.isEmpty_eq_false_iff.2 nonempty
  rw [split, Stops.takeWhile_append all stop, Stops.dropWhile_append all stop, some]
  rfl

theorem split_run (nonempty : text ≠ []) (all : ∀ c ∈ text, belongs c = true)
    (stop : Stops belongs rest) : (run belongs).split (text ++ rest) = some (text, rest) :=
  split_name nonempty all stop

theorem split_name_eq_none (stop : Stops belongs rest) : (name belongs).split rest = none := by
  rw [split, stop.takeWhile_eq]
  rfl

theorem split_sign (text rest : List Char) :
    (sign text).split (text ++ rest) = some (text, rest) := by
  have begins : text.isPrefixOf (text ++ rest) = true := List.isPrefixOf_iff_prefix.2 ⟨rest, rfl⟩
  rw [split, if_pos begins, List.drop_left]

theorem split_sign_eq_none (other : ¬ text <+: rest) : (sign text).split rest = none := by
  rw [split, if_neg]
  intro begins
  exact other (List.isPrefixOf_iff_prefix.1 begins)

theorem split_blanks (all : ∀ c ∈ text, Text.isBlank c = true) (stop : Stops Text.isBlank rest) :
    blanks.split (text ++ rest) = some (text, rest) := by
  rw [split, Text.leadingBlanks, Text.trimStart, Stops.takeWhile_append all stop,
    Stops.dropWhile_append all stop]

end Piece

namespace Pattern

variable {kind : Kind} {belongs : Char → Bool} {sign text before after rest : List Char}

theorem lexeme?_name (nonempty : text ≠ []) (all : ∀ c ∈ text, belongs c = true)
    (stop : Stops belongs rest) :
    lexeme? ⟨kind, [.name belongs]⟩ (text ++ rest) = some ⟨text, some text, rest⟩ := by
  simp [lexeme?, lexemeOf, Piece.split_name nonempty all stop, Piece.value?, nonempty]

theorem lexeme?_name_eq_none (stop : Stops belongs rest) :
    lexeme? ⟨kind, [.name belongs]⟩ rest = none := by
  simp [lexeme?, lexemeOf, Piece.split_name_eq_none stop]

theorem lexeme?_run (nonempty : text ≠ []) (all : ∀ c ∈ text, belongs c = true)
    (stop : Stops belongs rest) :
    lexeme? ⟨kind, [.run belongs]⟩ (text ++ rest) = some ⟨text, none, rest⟩ := by
  simp [lexeme?, lexemeOf, Piece.split_run nonempty all stop, Piece.value?, nonempty]

theorem lexeme?_signed {c : Char} (nonempty : text ≠ []) (all : ∀ c ∈ text, belongs c = true)
    (stop : Stops belongs rest) :
    lexeme? ⟨kind, [.sign [c], .name belongs]⟩ (c :: text ++ rest) =
      some ⟨c :: text, some text, rest⟩ := by
  have signed : (Piece.sign [c]).split (c :: (text ++ rest)) = some ([c], text ++ rest) :=
    Piece.split_sign [c] (text ++ rest)
  simp [lexeme?, lexemeOf, signed, Piece.split_name nonempty all stop, Piece.value?]

theorem lexeme?_sign_eq_none {pieces : List Piece} (other : ¬ sign <+: rest) :
    lexeme? ⟨kind, .sign sign :: pieces⟩ rest = none := by
  simp [lexeme?, lexemeOf, Piece.split_sign_eq_none other]

theorem lexeme?_opening {c : Char} (blanks : ∀ c ∈ after, Text.isBlank c = true)
    (stop : Stops Text.isBlank rest) :
    lexeme? ⟨kind, [.sign [c], .blanks]⟩ (c :: (after ++ rest)) =
      some ⟨c :: after, none, rest⟩ := by
  have signed : (Piece.sign [c]).split (c :: (after ++ rest)) = some ([c], after ++ rest) :=
    Piece.split_sign [c] (after ++ rest)
  simp [lexeme?, lexemeOf, signed, Piece.split_blanks blanks stop, Piece.value?]

theorem lexeme?_closing {c : Char} (blanks : ∀ c ∈ before, Text.isBlank c = true)
    (visible : Text.isBlank c = false) :
    lexeme? ⟨kind, [.blanks, .sign [c]]⟩ (before ++ c :: rest) =
      some ⟨before ++ [c], none, rest⟩ := by
  have stop : Stops Text.isBlank (c :: rest) := .cons visible
  have signed : (Piece.sign [c]).split (c :: rest) = some ([c], rest) := Piece.split_sign [c] rest
  simp [lexeme?, lexemeOf, Piece.split_blanks blanks stop, signed, Piece.value?]

theorem lexeme?_operator (nonempty : sign ≠ []) (blanks : ∀ c ∈ before, Text.isBlank c = true)
    (start : Stops Text.isBlank (sign ++ (after ++ rest)))
    (more : ∀ c ∈ after, Text.isBlank c = true) (stop : Stops Text.isBlank rest) :
    lexeme? ⟨kind, [.blanks, .sign sign, .blanks]⟩ (before ++ (sign ++ (after ++ rest))) =
      some ⟨before ++ (sign ++ after), none, rest⟩ := by
  simp [lexeme?, lexemeOf, Piece.split_blanks blanks start, Piece.split_sign,
    Piece.split_blanks more stop, Piece.value?, nonempty]

theorem lexeme?_blanks_eq_none {pieces : List Piece} (blanks : ∀ c ∈ before, Text.isBlank c = true)
    (start : Stops Text.isBlank rest) (other : ¬ sign <+: rest) :
    lexeme? ⟨kind, .blanks :: .sign sign :: pieces⟩ (before ++ rest) = none := by
  simp [lexeme?, lexemeOf, Piece.split_blanks blanks start, Piece.split_sign_eq_none other]

theorem not_prefix_of_stops {c : Char} (stop : Stops belongs text) (inside : belongs c = true) :
    ¬ c :: sign <+: text := by
  intro starts
  rcases starts with ⟨tail, rfl⟩
  have outside := stop c (by simp)
  rw [inside] at outside
  contradiction

theorem first?_append (source : List Char) (first second : List Pattern) :
    first? source (first ++ second) = (first? source first).or (first? source second) := by
  induction first with
  | nil => rfl
  | cons pattern first ih =>
    rw [List.cons_append, first?, first?, ih]
    cases pattern.lexeme? source <;> rfl

theorem isSome_first? {source : List Char} {patterns : List Pattern} {pattern : Pattern}
    (inside : pattern ∈ patterns) (hit : (pattern.lexeme? source).isSome = true) :
    (first? source patterns).isSome = true := by
  rcases List.append_of_mem inside with ⟨early, late, rfl⟩
  rw [first?_append, first?]
  rcases Option.isSome_iff_exists.1 hit with ⟨lexeme, found⟩
  simp [found]

theorem first?_of_stops_name (stop : Stops beginsName text) :
    first? text all = first? text (all.drop 3) := by
  have entities : Stops isEntityChar text := stop.mono fun c outside => by
    simp only [beginsName, Bool.or_eq_false_iff] at outside
    exact outside.1.1
  have target : ¬ ['@'] <+: text := not_prefix_of_stops stop (by decide)
  have reference : ¬ ['*'] <+: text := not_prefix_of_stops stop (by decide)
  simp only [all, List.drop_succ_cons, List.drop_zero, first?, lexeme?_sign_eq_none target,
    lexeme?_sign_eq_none reference, lexeme?_name_eq_none entities]

end Pattern

end FactGraph.Token
