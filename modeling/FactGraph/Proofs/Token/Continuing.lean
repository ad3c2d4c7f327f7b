import FactGraph.Proofs.Token.Covering

namespace FactGraph.Token

namespace Piece

def Apart : Piece → Prop
  | blanks => True
  | sign text => ';' ∉ text
  | run belongs => belongs ';' = false
  | name belongs => belongs ';' = false

theorem takeWhile_append_semicolon {belongs : Char → Bool} (apart : belongs ';' = false)
    (source more : List Char) :
    (source ++ ';' :: more).takeWhile belongs = source.takeWhile belongs ∧
      (source ++ ';' :: more).dropWhile belongs = source.dropWhile belongs ++ ';' :: more := by
  induction source with
  | nil => simp [apart]
  | cons c source ih =>
    cases here : belongs c with
    | true => simpa [here] using ih
    | false => simp [here]

theorem isPrefixOf_append_semicolon {text : List Char} (apart : ';' ∉ text)
    (source more : List Char) :
    text.isPrefixOf (source ++ ';' :: more) = text.isPrefixOf source := by
  induction text generalizing source with
  | nil => rfl
  | cons c text ih =>
    rw [List.mem_cons, not_or] at apart
    cases source with
    | nil => simp [List.isPrefixOf, Ne.symm apart.1]
    | cons d source => simp [List.isPrefixOf, ih apart.2]

theorem split_append_semicolon {piece : Piece} (apart : piece.Apart) (source more : List Char) :
    piece.split (source ++ ';' :: more) = (piece.split source).map fun cut =>
    (cut.1, cut.2 ++ ';' :: more) := by
  cases piece with
  | blanks =>
    have blank : Text.isBlank ';' = false := by decide
    rcases takeWhile_append_semicolon blank source more with ⟨taken, rest⟩
    simp [split, Text.leadingBlanks, Text.trimStart, taken, rest]
  | sign text =>
    simp only [split, isPrefixOf_append_semicolon apart]
    split
    · next begins =>
      rcases List.isPrefixOf_iff_prefix.1 begins with ⟨rest, rfl⟩
      simp
    · rfl
  | run belongs | name belongs =>
    rcases takeWhile_append_semicolon apart source more with ⟨taken, rest⟩
    simp only [split, taken, rest]
    split <;> rfl

end Piece

theorem Shape.of_terminator {text : List Char} (shape : Shape .terminator text) :
    text ≠ [] ∧ ∀ c ∈ text, isTerminatorChar c = true := by
  cases shape with
  | signed listed => simp [variableSigns] at listed
  | operator listed => simp [operatorSigns] at listed
  | terminator nonempty belonging => exact ⟨nonempty, belonging⟩

def Lexeme.before (lexeme : Lexeme) (more : List Char) : Lexeme :=
  { lexeme with rest := lexeme.rest ++ more }

namespace Pattern

variable {source more : List Char} {kind : Kind} {lexeme : Lexeme}

theorem lexemeOf_append_semicolon {pieces : List Piece} (apart : ∀ piece ∈ pieces, piece.Apart)
    (source more : List Char) :
    lexemeOf pieces (source ++ ';' :: more) =
      (lexemeOf pieces source).map (·.before (';' :: more)) := by
  induction pieces generalizing source with
  | nil => rfl
  | cons piece pieces ih =>
    rcases List.forall_mem_cons.1 apart with ⟨first, others⟩
    simp only [lexemeOf, Piece.split_append_semicolon first, Option.bind_eq_bind, Option.pure_def]
    cases piece.split source with
    | none => rfl
    | some cut =>
      simp only [Option.map_some, Option.bind_some, ih others]
      cases lexemeOf pieces cut.2 <;> rfl

theorem first?_append_semicolon {patterns : List Pattern}
    (apart : ∀ pattern ∈ patterns, ∀ piece ∈ pattern.pieces, piece.Apart)
    (source more : List Char) :
    first? (source ++ ';' :: more) patterns =
      (first? source patterns).map fun found => (found.1, found.2.before (';' :: more)) := by
  induction patterns with
  | nil => rfl
  | cons pattern patterns ih =>
    rcases List.forall_mem_cons.1 apart with ⟨first, others⟩
    have same : pattern.lexeme? (source ++ ';' :: more) =
        (pattern.lexeme? source).map (·.before (';' :: more)) := by
      rw [lexeme?, lexeme?, lexemeOf_append_semicolon first]
      exact Option.filter_map
    rw [first?, first?, same, ih others]
    cases pattern.lexeme? source <;> rfl

def apart : List Pattern := all.dropLast

theorem apart_of_mem {pattern : Pattern} (inside : pattern ∈ apart) :
    pattern.kind ≠ .terminator ∧ ∀ piece ∈ pattern.pieces, piece.Apart := by
  simp only [apart, all, List.dropLast_cons_cons, List.dropLast_singleton, List.mem_cons,
    List.not_mem_nil, or_false] at inside
  rcases inside with rfl | rfl | rfl | rfl | rfl | rfl | rfl | rfl | rfl
  all_goals
    constructor
    · simp
    · simp only [List.forall_mem_cons, List.not_mem_nil, false_imp_iff, implies_true,
        and_true, Piece.Apart]
      decide

theorem first?_all (source : List Char) :
    first? source all = (first? source apart).or
      (first? source [⟨.terminator, [.run isTerminatorChar]⟩]) :=
  first?_append source apart _

/-- A text that begins with a run of blanks and semicolons on which no other pattern matches. -/
theorem first?_terminator {text rest : List Char} (nothing : first? (text ++ rest) apart = none)
    (nonempty : text ≠ []) (belonging : ∀ c ∈ text, isTerminatorChar c = true)
    (stop : Stops isTerminatorChar rest) :
    first? (text ++ rest) all = some (.terminator, ⟨text, none, rest⟩) := by
  rw [first?_all, nothing, first?, lexeme?_run nonempty belonging stop]
  rfl

theorem first?_semicolon {text more : List Char} (nothing : first? text apart = none)
    (belonging : ∀ c ∈ text, isTerminatorChar c = true) :
    ∃ longer, first? (text ++ ';' :: more) all = some (.terminator, longer) ∧
      longer.rest = more.dropWhile isTerminatorChar := by
  have semicolon : isTerminatorChar ';' = true := by decide
  have whole : text ++ ';' :: more =
      (text ++ ';' :: more.takeWhile isTerminatorChar) ++ more.dropWhile isTerminatorChar := by
    rw [List.append_assoc, List.cons_append, List.takeWhile_append_dropWhile]
  have none_apart : first? (text ++ ';' :: more) apart = none := by
    rw [first?_append_semicolon (fun pattern inside => (apart_of_mem inside).2), nothing]
    rfl
  have stop : Stops isTerminatorChar (more.dropWhile isTerminatorChar) := by
    intro c first
    have outside := List.head?_dropWhile_not isTerminatorChar more
    rw [Option.mem_def.1 first] at outside
    simpa using outside
  rw [whole] at none_apart ⊢
  refine ⟨_, first?_terminator none_apart (by simp) ?_ stop, rfl⟩
  intro c inside
  simp only [List.mem_append, List.mem_cons] at inside
  rcases inside with before | rfl | behind
  · exact belonging c before
  · exact semicolon
  · exact List.all_eq_true.1 List.all_takeWhile c behind

theorem first?_of_continued {source : List Char} (found : first? source all = some (kind, lexeme))
    (more : List Char) :
    first? (source ++ ';' :: more) all = some (kind, lexeme.before (';' :: more)) ∧
        (kind = .terminator → lexeme.rest ≠ []) ∨
      kind = .terminator ∧ lexeme.rest = [] ∧
        ∃ longer, first? (source ++ ';' :: more) all = some (.terminator, longer) ∧
          longer.rest = more.dropWhile isTerminatorChar := by
  have same := first?_append_semicolon (fun pattern inside => (apart_of_mem inside).2) source more
  have whole := found
  rw [first?_all] at whole
  cases hit : first? source apart with
  | some other =>
    rw [hit, Option.some_or, Option.some.injEq] at whole
    rcases exists_of_first? (whole ▸ hit) with ⟨pattern, inside, rfl, _⟩
    refine .inl ⟨?_, fun terminator => absurd terminator (apart_of_mem inside).1⟩
    rw [first?_all, same, hit, whole]
    rfl
  | none =>
    have kind : kind = .terminator := by
      rw [hit, Option.none_or] at whole
      rcases exists_of_first? whole with ⟨pattern, inside, rfl, _⟩
      rw [List.mem_singleton.1 inside]
    subst kind
    have split := (append_of_first? found).1
    have leaves : Stops isTerminatorChar lexeme.rest := leaves_of_first? found
    rcases (shape_of_first? found).of_terminator with ⟨nonempty, belonging⟩
    cases rest : lexeme.rest with
    | nil =>
      -- The terminator goes up to the end of the source, and takes the semicolon behind it.
      rw [rest, List.append_nil] at split
      rw [← split] at hit ⊢
      exact .inr ⟨rfl, rfl, first?_semicolon hit belonging⟩
    | cons c later =>
      -- Something stands behind it in the source, which ends it in front of more text as well.
      refine .inl ⟨?_, fun _ => List.cons_ne_nil c later⟩
      have value : lexeme.value = none := by
        rw [← Option.not_isSome_iff_eq_none, isSome_value_of_first? found]
        decide
      have stop : Stops isTerminatorChar (lexeme.rest ++ ';' :: more) := by
        rw [rest] at leaves ⊢
        exact Stops.cons (leaves c rfl)
      have nothing : first? (lexeme.text ++ (lexeme.rest ++ ';' :: more)) apart = none := by
        rw [← List.append_assoc, split, same, hit]
        rfl
      have longer := first?_terminator nothing nonempty belonging stop
      rw [← List.append_assoc, split] at longer
      rw [longer, ← value]
      rfl

end Pattern

/-- Tokens without a fault up to the end of the input, and the outcomes for a source that goes on
behind a semicolon. Up to the terminator that the semicolon belongs to, they are the same. -/
inductive Continues (beyond : List (Except Fault Token)) :
    (outcomes longer : List (Except Fault Token)) → Prop
  | pause {last pause : Token} (ends : last.kind = .endOfInput) (stops : pause.kind = .terminator) :
      Continues beyond [.ok last] (.ok pause :: beyond)
  | merged {first last pause : Token} (begins : first.kind = .terminator)
      (ends : last.kind = .endOfInput) (stops : pause.kind = .terminator) :
      Continues beyond [.ok first, .ok last] (.ok pause :: beyond)
  | next {token : Token} {outcomes longer : List (Except Fault Token)}
      (inside : token.kind ≠ .endOfInput) (behind : token.kind = .terminator → 1 < outcomes.length)
      (rest : Continues beyond outcomes longer) :
      Continues beyond (.ok token :: outcomes) (.ok token :: longer)

namespace Scanned

variable {before rest : List Char} {outcomes : List (Except Fault Token)}

theorem of_found {kind : Kind} {lexeme : Lexeme} (scanned : Scanned before rest outcomes)
    (found : Pattern.first? rest Pattern.all = some (kind, lexeme)) :
    ∃ later, outcomes = .ok (Cursor.tokenAt (Mark.start.past before) kind lexeme) :: later ∧
      Scanned (before ++ lexeme.text) lexeme.rest later := by
  cases scanned with
  | ended => exact absurd found nofun
  | stopped _ nothing => exact absurd (nothing.symm.trans found) nofun
  | read other later =>
    rw [found] at other
    obtain ⟨rfl, rfl⟩ := Prod.mk.inj (Option.some.inj other)
    exact ⟨_, rfl, later⟩

theorem ne_nil (scanned : Scanned before rest outcomes) : outcomes ≠ [] := by
  cases scanned <;> exact List.cons_ne_nil _ _

theorem one_lt_length (scanned : Scanned before rest outcomes) (more : rest ≠ [])
    (clean : ∀ fault, .error fault ∉ outcomes) : 1 < outcomes.length := by
  cases scanned with
  | ended => contradiction
  | stopped => exact absurd List.mem_cons_self (clean _)
  | read _ later =>
    rw [List.length_cons]
    exact Nat.succ_lt_succ (List.length_pos_iff.mpr later.ne_nil)

/-- A source without faults, and what it becomes in front of a semicolon and any text. Blanks and
semicolons at the beginning of the text belong to the terminator. -/
theorem continues {more : List Char} {longer : List (Except Fault Token)}
    (scanned : Scanned before rest outcomes) (clean : ∀ fault, .error fault ∉ outcomes)
    (goes_on : Scanned before (rest ++ ';' :: more) longer) :
    ∃ front beyond, Continues beyond outcomes longer ∧
      Scanned front (more.dropWhile isTerminatorChar) beyond := by
  induction scanned generalizing longer with
  | ended =>
    have nothing : Pattern.first? [] Pattern.apart = none := rfl
    rcases Pattern.first?_semicolon nothing (List.forall_mem_nil _) with ⟨lexeme, found, left⟩
    rcases goes_on.of_found found with ⟨beyond, rfl, behind⟩
    exact ⟨_, beyond, .pause rfl rfl, left ▸ behind⟩
  | stopped => exact absurd List.mem_cons_self (clean _)
  | @read before rest kind lexeme outcomes found scanned ih =>
    have still : ∀ fault, .error fault ∉ outcomes :=
      fun fault inside => clean fault (List.mem_cons_of_mem _ inside)
    rcases Pattern.first?_of_continued found more
      with ⟨same, behind⟩ | ⟨rfl, ended, other, merged, left⟩
    · rcases goes_on.of_found same with ⟨later, rfl, behind_it⟩
      rcases ih still behind_it with ⟨front, beyond, continues, scanned_beyond⟩
      have inside := (shape_of_first? found).ne_endOfInput
      exact ⟨front, beyond, .next inside
        (fun kind => scanned.one_lt_length (behind kind) still) continues,
        scanned_beyond⟩
    · rcases goes_on.of_found merged with ⟨beyond, rfl, behind⟩
      rw [ended] at scanned
      cases scanned with
      | ended => exact ⟨_, beyond, .merged rfl rfl rfl, left ▸ behind⟩
      | stopped more => contradiction
      | read found => exact absurd found nofun

end Scanned

end FactGraph.Token
