import FactGraph.Proofs.Token.Location
import FactGraph.Proofs.Token.Shapes

namespace FactGraph.Token

/-- Whether a character can be read where it stands, behind one text and in front of another. Signs
of variables need a name behind them; the characters of the two longer operators need each other,
and a colon takes the equals sign behind it. -/
def Readable (before : List Char) (c : Char) (after : List Char) : Prop :=
  isNameChar c = true ∨ c = anonymousMarker ∨ Text.isBlank c = true ∨
  c ∈ [';', ':', '!', '(', ')'] ∨
    (c = '@' ∨ c = '*') ∧ (∃ d ∈ after.head?, isNameChar d = true) ∨
    c = '=' ∧ (before.getLast? = some ':' ∨ after.head? = some '>') ∨
    c = '>' ∧ before.getLast? = some '=' ∧ before.dropLast.getLast? ≠ some ':'

instance (before : List Char) (c : Char) (after : List Char) :
    Decidable (Readable before c after) :=
  inferInstanceAs (Decidable (_ ∨ _))

def AllReadable (before : List Char) : (text after : List Char) → Prop
  | [], _ => True
  | c :: text, after => Readable before c (text ++ after) ∧ AllReadable (before ++ [c]) text after

theorem allReadable_append (before first second after : List Char) :
    AllReadable before (first ++ second) after ↔
      AllReadable before first (second ++ after) ∧ AllReadable (before ++ first) second after := by
  induction first generalizing before with
  | nil => simp [AllReadable]
  | cons c first ih =>
    simp only [List.cons_append, AllReadable, ih, List.append_assoc, List.nil_append, and_assoc]

theorem allReadable_iff (before text after : List Char) :
    AllReadable before text after ↔
      ∀ early c late, text = early ++ c :: late → Readable (before ++ early) c (late ++ after) := by
  constructor
  · intro all early c late whole
    rw [whole, allReadable_append] at all
    exact all.2.1
  · intro each
    induction text generalizing before with
    | nil => trivial
    | cons c text ih =>
      constructor
      · simpa using each [] c text rfl
      · apply ih
        intro early d late whole
        have next := each (c :: early) d late (by rw [whole, List.cons_append])
        simpa using next

def isPlain (c : Char) : Bool :=
  isEntityChar c || Text.isBlank c || [';', ':', '!', '(', ')'].contains c

theorem readable_of_isPlain {c : Char} (plain : isPlain c = true) (before after : List Char) :
    Readable before c after := by
  simp only [isPlain, isEntityChar, Bool.or_eq_true, beq_iff_eq, List.contains_eq_mem,
    decide_eq_true_eq] at plain
  rcases plain with ((name | marker) | blank) | sign
  · exact .inl name
  · exact .inr (.inl marker)
  · exact .inr (.inr (.inl blank))
  · exact .inr (.inr (.inr (.inl sign)))

theorem allReadable_of_isPlain {text : List Char} (plain : ∀ c ∈ text, isPlain c = true)
    (before after : List Char) : AllReadable before text after := by
  rw [allReadable_iff]
  intro early c late whole
  exact readable_of_isPlain (plain c (by simp [whole])) _ _

theorem allReadable_singleton {c : Char} (plain : isPlain c = true) (before after : List Char) :
    AllReadable before [c] after := ⟨readable_of_isPlain plain _ _, trivial⟩

namespace Pattern

variable {source : List Char} {kind : Kind} {belongs : Char → Bool} {c : Char}
  {sign before rest : List Char}

theorem isSome_lexeme?_name (belonging : belongs c = true) :
    (lexeme? ⟨kind, [.name belongs]⟩ (c :: rest)).isSome = true := by
  simp [lexeme?, lexemeOf, Piece.split, belonging]

theorem isSome_lexeme?_run (belonging : belongs c = true) :
    (lexeme? ⟨kind, [.run belongs]⟩ (c :: rest)).isSome = true := by
  simp [lexeme?, lexemeOf, Piece.split, belonging]

theorem isSome_lexeme?_signed {d : Char} (belonging : belongs d = true) :
    (lexeme? ⟨kind, [.sign [c], .name belongs]⟩ (c :: d :: rest)).isSome = true := by
  simp [lexeme?, lexemeOf, Piece.split, belonging]

theorem isSome_lexeme?_operator (leading : ∀ c ∈ before, Text.isBlank c = true)
    (visible : Text.isBlank c = false) :
    (lexeme? ⟨kind, [.blanks, .sign (c :: sign), .blanks]⟩ (before ++ c :: (sign ++ rest))).isSome =
      true := by
  have start : Stops Text.isBlank (c :: (sign ++ rest)) := .cons visible
  have signed : (Piece.sign (c :: sign)).split (c :: (sign ++ rest)) = some (c :: sign, rest) :=
    Piece.split_sign (c :: sign) rest
  have more : Piece.blanks.split rest = some (Text.leadingBlanks rest, Text.trimStart rest) := rfl
  simp [lexeme?, lexemeOf, Piece.split_blanks leading start, signed, more]

theorem isSome_lexeme?_opening :
    (lexeme? ⟨kind, [.sign [c], .blanks]⟩ (c :: rest)).isSome = true := by
  simp [lexeme?, lexemeOf, Piece.split]

theorem isSome_lexeme?_closing (visible : Text.isBlank c = false) :
    (lexeme? ⟨kind, [.blanks, .sign [c]]⟩ (c :: rest)).isSome = true := by
  simp [lexeme?, lexemeOf, Piece.split, Text.leadingBlanks, Text.trimStart, visible]

theorem exists_of_isSome_first? {lexeme : Lexeme} {count : Nat}
    (early : (first? source (all.take count)).isSome = true)
    (found : first? source all = some (kind, lexeme)) :
    ∃ pattern ∈ all.take count, pattern.kind = kind := by
  rcases Option.isSome_iff_exists.1 early with ⟨⟨other, _⟩, hit⟩
  have whole := first?_append source (all.take count) (all.drop count)
  rw [List.take_append_drop, hit] at whole
  obtain rfl : kind = other := by
    simpa using congrArg (Option.map Prod.fst) (found.symm.trans whole)
  rcases exists_of_first? hit with ⟨pattern, inside, same, _⟩
  exact ⟨pattern, inside, same⟩

theorem head?_ne_of_colon {lexeme : Lexeme} (leading : ∀ c ∈ before, Text.isBlank c = true)
    (found : first? (before ++ ':' :: rest) all = some (.colon, lexeme)) :
    rest.head? ≠ some '=' := by
  intro equals
  rcases List.head?_eq_some_iff.1 equals with ⟨more, rfl⟩
  have visible : Text.isBlank ':' = false := by decide
  have assign : (lexeme? ⟨.assign, [.blanks, .sign [':', '='], .blanks]⟩
      (before ++ ':' :: (['='] ++ more))).isSome = true := isSome_lexeme?_operator leading visible
  have early : (first? (before ++ ':' :: (['='] ++ more)) (all.take 4)).isSome = true :=
    isSome_first? (by simp [all]) assign
  rcases exists_of_isSome_first? early found with ⟨pattern, inside, kind⟩
  have none : ∀ pattern ∈ all.take 4, pattern.kind ≠ .colon := by decide
  exact none pattern inside kind

end Pattern

/-- What a source that is read as far as here says about what follows: an equals sign does not stand
behind a colon, nor anything else behind an equals sign without one. -/
structure Boundary (before rest : List Char) : Prop where
  colon : before.getLast? = some ':' → rest.head? ≠ some '='
  equals : before.getLast? = some '=' → before.dropLast.getLast? = some ':'

theorem isPlain_of_isBlank {c : Char} (blank : Text.isBlank c = true) : isPlain c = true := by
  simp [isPlain, blank]

theorem isPlain_of_isNameChar {c : Char} (name : isNameChar c = true) : isPlain c = true := by
  simp [isPlain, isEntityChar_of_isNameChar name]

theorem allReadable_signed {kind : Kind} {sign : Char} {name : List Char}
    (listed : (kind, sign) ∈ variableSigns) (nonempty : name ≠ [])
    (belonging : ∀ c ∈ name, isNameChar c = true) (before after : List Char) :
    AllReadable before (sign :: name) after := by
  have signs : ∀ entry ∈ variableSigns, entry.2 = '@' ∨ entry.2 = '*' := by decide
  have variableSign : sign = '@' ∨ sign = '*' := signs _ listed
  constructor
  · rcases List.exists_cons_of_ne_nil nonempty with ⟨c, more, rfl⟩
    exact .inr (.inr (.inr (.inr (.inl ⟨variableSign, c, rfl, belonging c List.mem_cons_self⟩))))
  · exact allReadable_of_isPlain (fun c inside => isPlain_of_isNameChar (belonging c inside)) _ _

theorem allReadable_between {sign lead tail : List Char}
    (leading : ∀ c ∈ lead, Text.isBlank c = true) (trailing : ∀ c ∈ tail, Text.isBlank c = true)
    {before after : List Char} (readable : AllReadable (before ++ lead) sign (tail ++ after)) :
    AllReadable before (lead ++ sign ++ tail) after := by
  rw [List.append_assoc, allReadable_append, allReadable_append]
  refine ⟨?_, readable, ?_⟩
  · exact allReadable_of_isPlain (fun c inside => isPlain_of_isBlank (leading c inside)) _ _
  · exact allReadable_of_isPlain (fun c inside => isPlain_of_isBlank (trailing c inside)) _ _

/-- What stands before an arrow, and before the blanks that belong to it, is no colon that the arrow
stands right behind. -/
theorem Boundary.ne_colon {before lead : List Char} {rest : List Char}
    (boundary : Boundary before (lead ++ '=' :: rest))
    (leading : ∀ c ∈ lead, Text.isBlank c = true) :
    (before ++ lead).getLast? ≠ some ':' := by
  intro colon
  by_cases none : lead = []
  · subst none
    rw [List.append_nil] at colon
    exact boundary.colon colon rfl
  · rw [List.getLast?_append_of_ne_nil _ none] at colon
    have blank := leading ':' (List.mem_of_getLast? colon)
    revert blank
    decide

theorem allReadable_operator {kind : Kind} {sign lead tail before after : List Char}
    (listed : (kind, sign) ∈ operatorSigns) (leading : ∀ c ∈ lead, Text.isBlank c = true)
    (boundary : Boundary before (lead ++ sign ++ tail ++ after)) :
    AllReadable (before ++ lead) sign (tail ++ after) := by
  simp only [operatorSigns, List.mem_cons, Prod.mk.injEq, List.not_mem_nil, or_false] at listed
  rcases listed with ⟨-, rfl⟩ | ⟨-, rfl⟩ | ⟨-, rfl⟩ | ⟨-, rfl⟩
  · refine ⟨readable_of_isPlain (by decide +kernel) _ _, ?_, trivial⟩
    exact .inr (.inr (.inr (.inr (.inr (.inl ⟨rfl, .inl (by simp)⟩)))))
  · have whole : Boundary before (lead ++ '=' :: ('>' :: (tail ++ after))) := by
      simpa using boundary
    have start := whole.ne_colon leading
    refine ⟨?_, ?_, trivial⟩
    · exact .inr (.inr (.inr (.inr (.inr (.inl ⟨rfl, .inr rfl⟩)))))
    · exact .inr (.inr (.inr (.inr (.inr (.inr ⟨rfl, by simp, by simpa using start⟩)))))
  · exact allReadable_singleton (by decide +kernel) _ _
  · exact allReadable_singleton (by decide +kernel) _ _

theorem Shape.allReadable {kind : Kind} {text before after : List Char} (shape : Shape kind text)
    (boundary : Boundary before (text ++ after)) : AllReadable before text after := by
  have none : ∀ c ∈ ([] : List Char), Text.isBlank c = true := List.forall_mem_nil _
  cases shape with
  | signed listed nonempty belonging =>
    exact allReadable_signed listed nonempty belonging before after
  | identifier nonempty belonging =>
    apply allReadable_of_isPlain
    intro c inside
    simp [isPlain, belonging c inside]
  | operator listed leading trailing =>
    exact allReadable_between leading trailing (allReadable_operator listed leading boundary)
  | leftParen trailing =>
    exact allReadable_between none trailing (allReadable_singleton (by decide +kernel) _ _)
  | @rightParen lead leading =>
    rw [← List.append_nil (lead ++ [')'])]
    exact allReadable_between leading none (allReadable_singleton (by decide +kernel) _ _)
  | terminator nonempty belonging =>
    apply allReadable_of_isPlain
    intro c inside
    have terminator := belonging c inside
    simp only [isTerminatorChar, Bool.or_eq_true, beq_iff_eq] at terminator
    rcases terminator with blank | rfl
    · exact isPlain_of_isBlank blank
    · decide +kernel

theorem ne_of_belongs {belongs : Char → Bool} {c : Char} (belonging : belongs c = true)
    (colon : belongs ':' = false) (equals : belongs '=' = false) : c ≠ ':' ∧ c ≠ '=' := by
  constructor
  · rintro rfl
    rw [belonging] at colon
    contradiction
  · rintro rfl
    rw [belonging] at equals
    contradiction

theorem Shape.ends {kind : Kind} {text : List Char} (shape : Shape kind text) :
    (∃ c ∈ text.getLast?, c ≠ ':' ∧ c ≠ '=') ∨
      ∃ lead, (∀ c ∈ lead, Text.isBlank c = true) ∧
        (kind = .assign ∧ text = lead ++ [':', '='] ∨ kind = .colon ∧ text = lead ++ [':']) := by
  have last {text : List Char} (nonempty : text ≠ []) (other : ∀ c ∈ text, c ≠ ':' ∧ c ≠ '=') :
      ∃ c ∈ text.getLast?, c ≠ ':' ∧ c ≠ '=' :=
    ⟨text.getLast nonempty, List.getLast?_eq_some_getLast nonempty,
      other _ (List.getLast_mem nonempty)⟩
  have signs : ∀ entry ∈ variableSigns, entry.2 ≠ ':' ∧ entry.2 ≠ '=' := by decide
  have blank {c : Char} (blank : Text.isBlank c = true) : c ≠ ':' ∧ c ≠ '=' :=
    ne_of_belongs blank (by decide) (by decide)
  have name {c : Char} (name : isNameChar c = true) : c ≠ ':' ∧ c ≠ '=' :=
    ne_of_belongs name (by decide +kernel) (by decide +kernel)
  cases shape with
  | signed listed nonempty belonging =>
    apply Or.inl
    apply last (List.cons_ne_nil _ _)
    exact List.forall_mem_cons.2 ⟨signs _ listed, fun c inside => name (belonging c inside)⟩
  | identifier nonempty belonging =>
    exact .inl (last nonempty fun c inside =>
      ne_of_belongs (belonging c inside) (by decide +kernel) (by decide +kernel))
  | @operator _ sign lead tail listed leading trailing =>
    by_cases none : tail = []
    · subst none
      simp only [operatorSigns, List.mem_cons, Prod.mk.injEq, List.not_mem_nil, or_false] at listed
      rcases listed with ⟨rfl, rfl⟩ | ⟨rfl, rfl⟩ | ⟨rfl, rfl⟩ | ⟨rfl, rfl⟩
      · exact .inr ⟨lead, leading, .inl ⟨rfl, List.append_nil _⟩⟩
      · exact .inl ⟨'>', by simp, by decide⟩
      · exact .inr ⟨lead, leading, .inr ⟨rfl, List.append_nil _⟩⟩
      · exact .inl ⟨'!', by simp, by decide⟩
    · rw [List.getLast?_append_of_ne_nil _ none]
      exact .inl (last none fun c inside => blank (trailing c inside))
  | leftParen trailing =>
    apply Or.inl
    apply last (List.cons_ne_nil _ _)
    exact List.forall_mem_cons.2 ⟨by decide, fun c inside => blank (trailing c inside)⟩
  | rightParen leading => exact .inl ⟨')', by simp, by decide⟩
  | terminator nonempty belonging =>
    exact .inl (last nonempty fun c inside =>
      ne_of_belongs (belonging c inside) (by decide) (by decide))

/-- A token ends where its source may be cut. -/
theorem boundary_of_first? {before rest : List Char} {kind : Kind} {lexeme : Lexeme}
    (found : Pattern.first? rest Pattern.all = some (kind, lexeme)) :
    Boundary (before ++ lexeme.text) lexeme.rest := by
  rcases Pattern.append_of_first? found with ⟨whole, nonempty⟩
  rcases (shape_of_first? found).ends with
    ⟨c, last, colon, equals⟩ | ⟨lead, leading, ⟨rfl, text⟩ | ⟨rfl, text⟩⟩
  · have ending : (before ++ lexeme.text).getLast? = some c := by
      rw [List.getLast?_append_of_ne_nil _ nonempty]
      exact last
    constructor
    · intro same
      rw [ending] at same
      exact absurd (Option.some.inj same) colon
    · intro same
      rw [ending] at same
      exact absurd (Option.some.inj same) equals
  · rw [text]
    constructor
    · intro same
      simp at same
    · intro _
      simp
  · rw [text]
    constructor
    · intro _
      rw [← whole, text, List.append_assoc] at found
      exact Pattern.head?_ne_of_colon leading found
    · intro same
      simp at same

/-- Where a character that can be read stands behind a boundary, a token is found. -/
theorem isSome_first?_of_readable {before after : List Char} {c : Char}
    (boundary : Boundary before (c :: after)) (readable : Readable before c after) :
    (Pattern.first? (c :: after) Pattern.all).isSome = true := by
  have found (pattern : Pattern) (inside : pattern ∈ Pattern.all)
      (hit : (pattern.lexeme? (c :: after)).isSome = true) :
      (Pattern.first? (c :: after) Pattern.all).isSome = true := Pattern.isSome_first? inside hit
  have identifier (entity : isEntityChar c = true) :=
    found ⟨.identifier, [.name isEntityChar]⟩ (by simp [Pattern.all])
      (Pattern.isSome_lexeme?_name entity)
  have terminator (pause : isTerminatorChar c = true) :=
    found ⟨.terminator, [.run isTerminatorChar]⟩ (by simp [Pattern.all])
      (Pattern.isSome_lexeme?_run pause)
  have none : ∀ c ∈ ([] : List Char), Text.isBlank c = true := List.forall_mem_nil _
  rcases readable with
    name | rfl | blank | sign | ⟨variableSign, d, next, name⟩ | ⟨rfl, equals⟩ | ⟨rfl, behind, apart⟩
  · exact identifier (isEntityChar_of_isNameChar name)
  · exact identifier (by decide +kernel)
  · exact terminator (isTerminatorChar_of_isBlank blank)
  · simp only [List.mem_cons, List.not_mem_nil, or_false] at sign
    rcases sign with rfl | rfl | rfl | rfl | rfl
    · exact terminator (by decide)
    · exact found ⟨.colon, [.blanks, .sign [':'], .blanks]⟩ (by simp [Pattern.all])
        (Pattern.isSome_lexeme?_operator none (by decide))
    · exact found ⟨.bang, [.blanks, .sign ['!'], .blanks]⟩ (by simp [Pattern.all])
        (Pattern.isSome_lexeme?_operator none (by decide))
    · exact found ⟨.leftParen, [.sign ['('], .blanks]⟩ (by simp [Pattern.all])
        Pattern.isSome_lexeme?_opening
    · exact found ⟨.rightParen, [.blanks, .sign [')']]⟩ (by simp [Pattern.all])
        (Pattern.isSome_lexeme?_closing (by decide))
  · rcases List.head?_eq_some_iff.1 next with ⟨more, rfl⟩
    rcases variableSign with rfl | rfl
    · exact found ⟨.target, [.sign ['@'], .name isNameChar]⟩ (by simp [Pattern.all])
        (Pattern.isSome_lexeme?_signed name)
    · exact found ⟨.reference, [.sign ['*'], .name isNameChar]⟩ (by simp [Pattern.all])
        (Pattern.isSome_lexeme?_signed name)
  · rcases equals with behind | next
    · exact absurd rfl (boundary.colon behind)
    · rcases List.head?_eq_some_iff.1 next with ⟨more, rfl⟩
      exact found ⟨.arrow, [.blanks, .sign ['=', '>'], .blanks]⟩ (by simp [Pattern.all])
        (Pattern.isSome_lexeme?_operator none (by decide))
  · exact absurd (boundary.equals behind) apart

/-- What is read can be read character by character; and where it stops, the next character
cannot. -/
theorem Scanned.readable {before rest : List Char} {outcomes : List (Except Fault Token)}
    (scanned : Scanned before rest outcomes) (boundary : Boundary before rest) :
    (AllReadable before rest [] ∧ ∃ tokens : List Token, outcomes = tokens.map .ok) ∨
      ∃ read c after, ∃ tokens : List Token, rest = read ++ c :: after ∧
      AllReadable before read (c :: after) ∧
        ¬ Readable (before ++ read) c after ∧
        outcomes = tokens.map .ok ++ [.error (unreadableAfter (before ++ read) (c :: after))] := by
  induction scanned with
  | ended => exact .inl ⟨trivial, [_], rfl⟩
  | @stopped before rest more nothing =>
    rcases List.exists_cons_of_ne_nil more with ⟨c, after, rfl⟩
    refine .inr ⟨[], c, after, [], rfl, trivial, ?_, by rw [List.append_nil]; rfl⟩
    intro readable
    rw [List.append_nil] at readable
    have found := isSome_first?_of_readable boundary readable
    rw [nothing] at found
    contradiction
  | @read before rest kind lexeme outcomes found later ih =>
    have whole := (Pattern.append_of_first? found).1
    have shape := shape_of_first? found
    let token := Cursor.tokenAt (Mark.start.past before) kind lexeme
    rw [← whole] at boundary ⊢
    have here := shape.allReadable boundary
    -- Where the token ends is a boundary again, whatever it is.
    rcases ih (boundary_of_first? found) with
      ⟨all, tokens, rfl⟩ | ⟨read, c, after, tokens, split, all, stop, rfl⟩
    · refine .inl ⟨(allReadable_append _ _ _ _).2 ⟨?_, all⟩, token :: tokens, rfl⟩
      rwa [List.append_nil]
    · refine .inr ⟨lexeme.text ++ read, c, after, token :: tokens, ?_, ?_, ?_, ?_⟩
      · rw [split, List.append_assoc]
      · exact (allReadable_append _ _ _ _).2 ⟨split ▸ here, all⟩
      · rwa [← List.append_assoc]
      · rw [← List.append_assoc]
        rfl

theorem mapM_id_ok (tokens : List Token) :
    (tokens.map .ok : List (Except Fault Token)).mapM id = .ok tokens := by
  induction tokens with
  | nil => rfl
  | cons token tokens ih =>
    rw [List.map_cons, List.mapM_cons, ih]
    rfl

theorem mapM_id_error (tokens : List Token) (fault : Fault) :
    (tokens.map .ok ++ [.error fault] : List (Except Fault Token)).mapM id = .error fault := by
  induction tokens with
  | nil => rfl
  | cons token tokens ih =>
    rw [List.map_cons, List.cons_append, List.mapM_cons, ih]
    rfl

theorem eq_nil_of_not_readable {read extra after rest : List Char} {c : Char}
    (all : AllReadable [] (read ++ extra) rest) (stop : ¬ Readable read c after)
    (whole : c :: after = extra ++ rest) : extra = [] := by
  cases extra with
  | nil => rfl
  | cons d extra =>
    rcases List.cons.inj whole with ⟨rfl, rfl⟩
    exact absurd ((allReadable_append [] read (c :: extra) rest).1 all).2.1 stop

theorem first_unreadable_unique {read before after late : List Char} {c d : Char}
    (all : AllReadable [] read (c :: after)) (stop : ¬ Readable read c after)
    (all' : AllReadable [] before (d :: late)) (stop' : ¬ Readable before d late)
    (same : read ++ c :: after = before ++ d :: late) : read = before ∧ c :: after = d :: late := by
  rcases List.append_eq_append_iff.1 same with ⟨extra, rfl, whole⟩ | ⟨extra, rfl, whole⟩
  · obtain rfl := eq_nil_of_not_readable all' stop whole
    exact ⟨(List.append_nil _).symm, whole⟩
  · obtain rfl := eq_nil_of_not_readable all stop' whole
    exact ⟨List.append_nil _, whole.symm⟩

theorem tokenize_cases (source : String) :
    (AllReadable [] source.toList [] ∧ ∃ tokens, tokenize source = .ok tokens) ∨
      ∃ read c after, source.toList = read ++ c :: after ∧ AllReadable [] read (c :: after) ∧
        ¬ Readable read c after ∧ tokenize source = .error (unreadableAfter read (c :: after)) := by
  have boundary : Boundary [] source.toList := ⟨by simp, by simp⟩
  unfold tokenize
  rcases (Cursor.tokens_ofSource source).readable boundary with
    ⟨all, tokens, same⟩ | ⟨read, c, after, tokens, split, all, stop, same⟩
  · rw [same, mapM_id_ok]
    exact .inl ⟨all, tokens, rfl⟩
  · rw [same, mapM_id_error]
    exact .inr ⟨read, c, after, split, all, stop, rfl⟩

/-- A source has tokens when each of its characters can be read. Otherwise its fault is at the first
that cannot, and quotes ten characters from there on. -/
theorem tokenize_decided (source : String) :
    ((∃ tokens, tokenize source = .ok tokens) ↔
      ∀ before c after, source.toList = before ++ c :: after → Readable before c after) ∧
    ∀ fault, tokenize source = .error fault ↔
      ∃ before c after, source.toList = before ++ c :: after ∧ ¬ Readable before c after ∧
        (∀ early d late, before = early ++ d :: late → Readable early d (late ++ c :: after)) ∧
        fault = .unreadable (Text.width before) ⟨lineAfter before, columnAfter before⟩
          (String.ofList ((c :: after).take 10)) := by
  have each (text after : List Char) : AllReadable [] text after ↔
      ∀ early d late, text = early ++ d :: late → Readable early d (late ++ after) := by
    simpa using allReadable_iff [] text after
  rcases tokenize_cases source with ⟨all, tokens, same⟩ | ⟨read, c, after, split, all, stop, same⟩
  · simp only [each, List.append_nil] at all
    rw [same]
    refine ⟨⟨fun _ => all, fun _ => ⟨tokens, rfl⟩⟩, ?_⟩
    intro fault
    constructor
    · intro impossible
      contradiction
    · intro stopped
      rcases stopped with ⟨before, c, after, split, stop, _⟩
      exact absurd (all before c after split) stop
  · rw [same]
    constructor
    · constructor
      · intro impossible
        rcases impossible with ⟨tokens, impossible⟩
        contradiction
      · intro all
        exact absurd (all read c after split) stop
    · intro fault
      constructor
      · intro stopped
        obtain rfl := Except.error.inj stopped
        exact ⟨read, c, after, split, stop, (each _ _).1 all, rfl⟩
      · intro stopped
        rcases stopped with ⟨before, d, late, split', stop', all', rfl⟩
        -- Of two places like this, neither is in front of the other.
        rcases first_unreadable_unique all stop ((each _ _).2 all') stop' (split.symm.trans split')
          with ⟨rfl, rest⟩
        rw [← rest]
        rfl

-- The arrow that stands right behind a colon has lost its equals sign to the assignment.
example : Readable ['='] '>' [] ∧ ¬ Readable [':', '='] '>' [] := by decide +kernel

end FactGraph.Token
