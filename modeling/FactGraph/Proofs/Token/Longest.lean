import FactGraph.Proofs.Token.Shapes
import Mathlib.Data.List.MinMax

/-! Of the lexical rules that apply to a text, the first has the longest match. So the order in
which they are tried does not matter: a lexer that takes the longest match of the same rules, in any
order, reads the same tokens. -/

namespace FactGraph.Token

def openings : List (Kind × Char) :=
  variableSigns ++
    [(.assign, ':'), (.arrow, '='), (.colon, ':'), (.bang, '!'), (.leftParen, '('),
      (.rightParen, ')')]

inductive Kind.Opens : Kind → Char → Prop
  | name {c : Char} (entity : isEntityChar c = true) : Opens .identifier c
  | sign {kind : Kind} {c : Char} (listed : (kind, c) ∈ openings) : Opens kind c

/-- Texts of both kinds may begin alike, and then those of the first kind are longer: a terminator
takes only the blanks in front of an operator, and a colon is only the beginning of an
assignment. -/
def Kind.Outgrows (kind other : Kind) : Prop :=
  kind ≠ .terminator ∧ other = .terminator ∨ kind = .assign ∧ other = .colon

instance (kind other : Kind) : Decidable (kind.Outgrows other) :=
  inferInstanceAs (Decidable (_ ∨ _))

variable {kind other : Kind} {c : Char} {source text lead more : List Char}

namespace Kind.Opens

theorem isTerminatorChar_eq_false (opens : kind.Opens c) : isTerminatorChar c = false := by
  have signs : ∀ entry ∈ openings, isTerminatorChar entry.2 = false := by decide
  cases opens with
  | name entity => exact isTerminatorChar_of_isEntityChar entity
  | @sign _ _ listed => exact signs (kind, c) listed

theorem isBlank_eq_false (opens : kind.Opens c) : Text.isBlank c = false := by
  have outside := opens.isTerminatorChar_eq_false
  simp only [isTerminatorChar, Bool.or_eq_false_iff] at outside
  exact outside.1

theorem cases_of_ne (opens : kind.Opens c) (opens' : other.Opens c) (differ : kind ≠ other) :
    kind = .assign ∧ other = .colon ∨ other = .assign ∧ kind = .colon := by
  have names : ∀ entry ∈ openings, isEntityChar entry.2 = false := by decide +kernel
  have signs : ∀ entry ∈ openings, ∀ entry' ∈ openings, entry.2 = entry'.2 → entry.1 ≠ entry'.1 →
      entry.1 = .assign ∧ entry'.1 = .colon ∨ entry'.1 = .assign ∧ entry.1 = .colon := by decide
  cases opens with
  | name entity =>
    cases opens' with
    | name => contradiction
    | sign listed' => exact absurd entity (by simp [names _ listed'])
  | sign listed =>
    cases opens' with
    | name entity => exact absurd entity (by simp [names _ listed])
    | sign listed' => exact signs _ listed _ listed' rfl differ

end Kind.Opens

theorem Shape.opens (shape : Shape kind text) (visible : kind ≠ .terminator) :
    ∃ lead c more, text = lead ++ c :: more ∧
    (∀ d ∈ lead, Text.isBlank d = true) ∧ kind.Opens c := by
  have none : ∀ d ∈ ([] : List Char), Text.isBlank d = true := List.forall_mem_nil _
  have operators : ∀ entry ∈ operatorSigns, ∃ c more, entry.2 = c :: more ∧
      (entry.1, c) ∈ openings := by
    simp [operatorSigns, openings]
  cases shape with
  | @signed _ sign name listed nonempty belonging =>
    exact ⟨[], sign, name, rfl, none, .sign (List.mem_append_left _ listed)⟩
  | identifier nonempty belonging =>
    rcases List.exists_cons_of_ne_nil nonempty with ⟨c, more, rfl⟩
    exact ⟨[], c, more, rfl, none, .name (belonging c List.mem_cons_self)⟩
  | @operator _ sign before after listed leading trailing =>
    rcases operators _ listed with ⟨c, more, sign, opening⟩
    simp only at sign opening
    subst sign
    exact ⟨before, c, more ++ after, by simp, leading, .sign opening⟩
  | @leftParen after trailing => exact ⟨[], '(', after, rfl, none, .sign (by decide)⟩
  | @rightParen before leading => exact ⟨before, ')', [], rfl, leading, .sign (by decide)⟩
  | terminator => exact absurd rfl visible

theorem leadingBlanks_of_opens (leading : ∀ d ∈ lead, Text.isBlank d = true)
    (opens : kind.Opens c) :
    Text.leadingBlanks (lead ++ c :: more) = lead ∧
    Text.trimStart (lead ++ c :: more) = c :: more := by
  have stop : Stops Text.isBlank (c :: more) := .cons opens.isBlank_eq_false
  exact ⟨Stops.takeWhile_append leading stop, Stops.dropWhile_append leading stop⟩

theorem Shape.length_terminator_le (pause : Shape .terminator text)
    (starts : text <+: lead ++ c :: more) (opens : kind.Opens c) : text.length ≤ lead.length := by
  have belonging : ∀ d ∈ text, isTerminatorChar d = true := by
    have signs : ∀ entry ∈ variableSigns, entry.1 ≠ .terminator := by decide
    have operators : ∀ entry ∈ operatorSigns, entry.1 ≠ .terminator := by decide
    cases pause with
    | signed listed => exact absurd rfl (signs _ listed)
    | operator listed => exact absurd rfl (operators _ listed)
    | terminator nonempty belonging => exact belonging
  -- A longer terminator would have that character in it.
  by_contra longer
  have whole : lead ++ [c] <+: lead ++ c :: more := ⟨more, by simp⟩
  have reached : lead ++ [c] <+: text := by
    apply List.prefix_of_prefix_length_le whole starts
    rw [List.length_append, List.length_singleton]
    omega
  have inside : c ∈ text := reached.subset (by simp)
  have outside := opens.isTerminatorChar_eq_false
  rw [belonging c inside] at outside
  contradiction

theorem Shape.exists_of_operator {sign : List Char} (shape : Shape kind text)
    (listed : (kind, sign) ∈ operatorSigns) :
    ∃ before after, text = before ++ sign ++ after ∧ (∀ d ∈ before, Text.isBlank d = true) ∧
      ∀ d ∈ after, Text.isBlank d = true := by
  have single : ∀ entry ∈ operatorSigns, ∀ entry' ∈ operatorSigns, entry.1 = entry'.1 →
      entry.2 = entry'.2 := by decide
  have signs : ∀ entry ∈ operatorSigns, ∀ entry' ∈ variableSigns, entry.1 ≠ entry'.1 := by decide
  have others : ∀ entry ∈ operatorSigns,
      entry.1 ≠ .identifier ∧ entry.1 ≠ .leftParen ∧ entry.1 ≠ .rightParen ∧ entry.1 ≠
        .terminator := by decide
  cases shape with
  | signed listed' => exact absurd rfl (signs _ listed _ listed')
  | @operator _ sign' before after listed' leading trailing =>
    obtain rfl : sign' = sign := single _ listed' _ listed rfl
    exact ⟨before, after, rfl, leading, trailing⟩
  | identifier => exact absurd rfl (others _ listed).1
  | leftParen => exact absurd rfl (others _ listed).2.1
  | rightParen => exact absurd rfl (others _ listed).2.2.1
  | terminator => exact absurd rfl (others _ listed).2.2.2

theorem Shape.length_colon_lt {assignment colon rest rest' : List Char}
    (longer : Shape .assign assignment) (shorter : Shape .colon colon)
    (same : assignment ++ rest = colon ++ rest') : colon.length < assignment.length := by
  have listed : (Kind.assign, [':', '=']) ∈ operatorSigns := by decide
  have listed' : (Kind.colon, [':']) ∈ operatorSigns := by decide
  rcases longer.exists_of_operator listed with ⟨before, after, rfl, leading, -⟩
  rcases shorter.exists_of_operator listed' with ⟨before', after', rfl, leading', trailing⟩
  have sign : Kind.Opens .colon ':' := .sign (by decide)
  have split : before ++ ':' :: ('=' :: after ++ rest) = before' ++ ':' :: (after' ++ rest') := by
    simpa using same
  have lead : before = before' := by
    rw [← (leadingBlanks_of_opens leading sign).1, split, (leadingBlanks_of_opens leading' sign).1]
  -- Behind the colon stands the rest of the longer sign, and that is no blank.
  have behind : after' = [] := by
    rw [lead] at split
    have next : '=' :: after ++ rest = after' ++ rest' :=
      (List.cons.inj (List.append_cancel_left split)).2
    cases after' with
    | nil => rfl
    | cons d after' =>
      obtain rfl : '=' = d := (List.cons.inj next).1
      exact absurd (trailing '=' List.mem_cons_self) (by decide)
  rw [lead, behind]
  simp

namespace Pattern

variable {pattern pattern' : Pattern} {lexeme lexeme' : Lexeme}

theorem exists_of_lexeme? (inside : pattern ∈ all) (hit : pattern.lexeme? source = some lexeme)
    (visible : pattern.kind ≠ .terminator) :
    ∃ lead c more, source = lead ++ c :: more ∧
    (∀ d ∈ lead, Text.isBlank d = true) ∧ pattern.kind.Opens c ∧
      lead.length < lexeme.text.length := by
  rcases (shape_of_lexeme? inside hit).opens visible with ⟨lead, c, more, text, leading, opens⟩
  rw [lexeme?, Option.filter_eq_some_iff] at hit
  have whole := append_of_lexemeOf hit.1
  refine ⟨lead, c, more ++ lexeme.rest, ?_, leading, opens, ?_⟩
  · rw [← whole, text, List.append_assoc, List.cons_append]
  · simp [text]

theorem append_of_lexeme? (hit : pattern.lexeme? source = some lexeme) :
    lexeme.text ++ lexeme.rest = source := by
  rw [lexeme?, Option.filter_eq_some_iff] at hit
  exact append_of_lexemeOf hit.1

theorem length_terminator_lt (inside : pattern ∈ all) (hit : pattern.lexeme? source = some lexeme)
    (visible : pattern.kind ≠ .terminator) (inside' : pattern' ∈ all)
    (hit' : pattern'.lexeme? source = some lexeme') (pause : pattern'.kind = .terminator) :
    lexeme'.text.length < lexeme.text.length := by
  rcases exists_of_lexeme? inside hit visible with ⟨lead, c, more, split, -, opens, longer⟩
  have shape : Shape .terminator lexeme'.text := pause ▸ shape_of_lexeme? inside' hit'
  have starts : lexeme'.text <+: lead ++ c :: more :=
    ⟨lexeme'.rest, (append_of_lexeme? hit').trans split⟩
  calc
    lexeme'.text.length ≤ lead.length := shape.length_terminator_le starts opens
    _ < lexeme.text.length := longer

/-- Of two rules that apply to a text, one has the longer match, and the kinds tell which. -/
theorem outgrows_or_outgrows (inside : pattern ∈ all) (hit : pattern.lexeme? source = some lexeme)
    (inside' : pattern' ∈ all) (hit' : pattern'.lexeme? source = some lexeme')
    (differ : pattern.kind ≠ pattern'.kind) :
    pattern.kind.Outgrows pattern'.kind ∧ lexeme'.text.length < lexeme.text.length ∨
      pattern'.kind.Outgrows pattern.kind ∧ lexeme.text.length < lexeme'.text.length := by
  by_cases pause' : pattern'.kind = .terminator
  · have visible : pattern.kind ≠ .terminator := fun same => differ (same.trans pause'.symm)
    exact .inl ⟨.inl ⟨visible, pause'⟩, length_terminator_lt inside hit visible inside' hit' pause'⟩
  by_cases pause : pattern.kind = .terminator
  · exact .inr ⟨.inl ⟨pause', pause⟩, length_terminator_lt inside' hit' pause' inside hit pause⟩
  -- Both tokens are visible, and so they begin with the same character.
  rcases exists_of_lexeme? inside hit pause with ⟨lead, c, more, split, leading, opens, -⟩
  rcases exists_of_lexeme? inside' hit' pause' with ⟨lead', c', more', split', leading', opens', -⟩
  have first : c = c' := by
    have rest : Text.trimStart (lead ++ c :: more) = c :: more :=
      (leadingBlanks_of_opens leading opens).2
    rw [← split, split', (leadingBlanks_of_opens leading' opens').2] at rest
    exact (List.cons.inj rest).1.symm
  subst first
  have shape := shape_of_lexeme? inside hit
  have shape' := shape_of_lexeme? inside' hit'
  have same : lexeme.text ++ lexeme.rest = lexeme'.text ++ lexeme'.rest :=
    (append_of_lexeme? hit).trans (append_of_lexeme? hit').symm
  rcases opens.cases_of_ne opens' differ with ⟨assign, colon⟩ | ⟨assign, colon⟩
  · rw [assign] at shape
    rw [colon] at shape'
    exact .inl ⟨.inr ⟨assign, colon⟩, shape.length_colon_lt shape' same⟩
  · rw [colon] at shape
    rw [assign] at shape'
    exact .inr ⟨.inr ⟨assign, colon⟩, shape'.length_colon_lt shape same.symm⟩

theorem pairwise_length_lt (source : List Char) :
    all.Pairwise fun pattern pattern' => ∀ lexeme lexeme', pattern.lexeme? source = some lexeme →
      pattern'.lexeme? source = some lexeme' → lexeme'.text.length < lexeme.text.length := by
  -- Only this depends on the order in which the rules are declared.
  have order : all.Pairwise fun pattern pattern' =>
      pattern.kind ≠ pattern'.kind ∧ ¬ pattern'.kind.Outgrows pattern.kind := by decide
  apply order.imp_of_mem
  intro pattern pattern' inside inside' apart lexeme lexeme' hit hit'
  rcases outgrows_or_outgrows inside hit inside' hit' apart.1 with ⟨-, shorter⟩ | ⟨outgrows, -⟩
  · exact shorter
  · exact absurd outgrows apart.2

/-- The longest match of the rules that apply, and of equally long ones the first. -/
def longest? (source : List Char) (rules : List Pattern) : Option (Kind × Lexeme) :=
  (rules.filterMap fun rule => (rule.lexeme? source).map (rule.kind, ·)).argmax (·.2.text.length)

theorem exists_of_longest? {rules : List Pattern}
    (found : longest? source rules = some (kind, lexeme)) :
    ∃ rule ∈ rules, rule.kind = kind ∧ rule.lexeme? source = some lexeme := by
  have inside := List.argmax_mem found
  simp only [List.mem_filterMap, Option.map_eq_some_iff, Prod.mk.injEq] at inside
  rcases inside with ⟨rule, inside, _, hit, same, rfl⟩
  exact ⟨rule, inside, same, hit⟩

theorem length_rest_lt_of_longest? {rules : List Pattern}
    (found : longest? source rules = some (kind, lexeme)) :
    lexeme.rest.length < source.length := by
  rcases exists_of_longest? found with ⟨rule, -, -, hit⟩
  have single : first? source [rule] = some (rule.kind, lexeme) := by rw [first?, hit]
  exact length_rest_lt_of_first? single

theorem exists_longest_of_first? (found : first? source all = some (kind, lexeme)) :
    ∃ early rule late, all = early ++ rule :: late ∧
    (∀ other ∈ early, other.lexeme? source = none) ∧
      rule.kind = kind ∧ rule.lexeme? source = some lexeme ∧
      ∀ other ∈ early ++ late, ∀ lexeme', other.lexeme? source = some lexeme' →
        lexeme'.text.length < lexeme.text.length := by
  rcases split_of_first? found with ⟨early, rule, late, split, none, same, here⟩
  refine ⟨early, rule, late, split, none, same, here, ?_⟩
  intro other listed lexeme' hit
  have shorter := pairwise_length_lt source
  rw [split] at shorter
  rcases List.mem_append.1 listed with before | behind
  · exact absurd hit (by simp [none other before])
  · have later := List.rel_of_pairwise_cons (List.pairwise_append.1 shorter).2.1 behind
    exact later lexeme lexeme' here hit

theorem mem_matches {rules : List Pattern} (inside : pattern ∈ rules)
    (hit : pattern.lexeme? source = some lexeme) :
    (pattern.kind, lexeme) ∈ rules.filterMap fun rule => (rule.lexeme? source).map (rule.kind, ·) :=
  List.mem_filterMap.2 ⟨pattern, inside, by rw [hit, Option.map_some]⟩

theorem length_le_of_longest? {rules : List Pattern}
    (longest : longest? source rules = some (kind, lexeme')) (inside : pattern ∈ rules)
    (hit : pattern.lexeme? source = some lexeme) :
    lexeme.text.length ≤ lexeme'.text.length := by
  have most := List.not_lt_of_mem_argmax (mem_matches inside hit) longest
  exact Nat.not_lt.1 most

/-- The first match is the longest one, in whatever order the rules are looked through for the
longest. -/
theorem longest?_eq_first? {rules : List Pattern} (reordered : rules.Perm all)
    (source : List Char) :
    longest? source rules = first? source all := by
  cases found : first? source all with
  | none =>
    cases longest : longest? source rules with
    | none => rfl
    | some hit =>
      rcases exists_of_longest? longest with ⟨rule, inside, -, applies⟩
      have some := isSome_first? (reordered.subset inside) (Option.isSome_of_eq_some applies)
      rw [found] at some
      contradiction
  | some hit =>
    rcases hit with ⟨kind, lexeme⟩
    rcases exists_longest_of_first? found with ⟨early, rule, late, split, -, rfl, applies, longer⟩
    have inside : rule ∈ all := by simp [split]
    have listed : rule ∈ rules := reordered.symm.subset inside
    cases longest : longest? source rules with
    | none =>
      have candidate := mem_matches listed applies
      rw [List.argmax_eq_none.1 longest] at candidate
      contradiction
    | some hit' =>
      rcases hit' with ⟨kind', lexeme'⟩
      have most := length_le_of_longest? longest listed applies
      rcases exists_of_longest? longest with ⟨rule', inside', rfl, applies'⟩
      have either := reordered.subset inside'
      rw [split, List.mem_append, List.mem_cons, or_left_comm, ← List.mem_append] at either
      rcases either with rfl | other
      · rw [Option.some.inj (applies.symm.trans applies')]
      · exact absurd most (Nat.not_le.2 (longer rule' other lexeme' applies'))

end Pattern

namespace Cursor

def munch (rules : List Pattern) (cursor : Cursor) : List (Except Fault Token) :=
  if cursor.rest = [] then [.ok (Token.endOfInput (cursor.mark.span 0))]
  else
    match found : Pattern.longest? cursor.rest rules with
    | some (kind, lexeme) =>
        have := Pattern.length_rest_lt_of_longest? found
        .ok (tokenAt cursor.mark kind lexeme) ::
          munch rules ⟨lexeme.rest, cursor.mark.past lexeme.text⟩
    | none =>
        [.error (.unreadable cursor.mark.offset cursor.mark.position
          (String.ofList (cursor.rest.take excerptLength)))]
termination_by cursor.rest.length

theorem munch_eq_tokens {rules : List Pattern} (reordered : rules.Perm Pattern.all)
    (cursor : Cursor) :
    munch rules cursor = cursor.tokens := by
  fun_induction munch rules cursor with
  | case1 cursor ended => rw [tokens_of_rest_nil ended]
  | case2 cursor more kind lexeme found shorter ih =>
    rw [Pattern.longest?_eq_first? reordered] at found
    have read := token_of_rest_ne_nil more
    rw [found] at read
    rw [tokens_of_token more read, ih]
  | case3 cursor more found =>
    rw [Pattern.longest?_eq_first? reordered] at found
    have read := token_of_rest_ne_nil more
    rw [found] at read
    rw [tokens_of_fault more read]

end Cursor

/-- Where a rule applies, the first that does has a longer match than all others that do. So a lexer
that takes the longest match of the rules, in any order, reads the same tokens of every source, or
comes to the same fault. -/
theorem first_match_longest :
    (∀ source, (∃ rule ∈ Pattern.all, (rule.lexeme? source).isSome = true) →
      ∃ early rule late lexeme, Pattern.all = early ++ rule :: late ∧
      (∀ other ∈ early, other.lexeme? source = none) ∧
        rule.lexeme? source = some lexeme ∧
        Pattern.first? source Pattern.all = some (rule.kind, lexeme) ∧
        ∀ other ∈ early ++ late, ∀ lexeme', other.lexeme? source = some lexeme' →
          lexeme'.text.length < lexeme.text.length) ∧
    ∀ rules : List Pattern, rules.Perm Pattern.all → ∀ source,
      (Cursor.ofSource source).munch rules = (Cursor.ofSource source).tokens ∧
        ((Cursor.ofSource source).munch rules).mapM id = tokenize source := by
  constructor
  · intro source applies
    rcases applies with ⟨rule, inside, some⟩
    rcases Option.isSome_iff_exists.1 (Pattern.isSome_first? inside some)
      with ⟨⟨kind, lexeme⟩, found⟩
    rcases Pattern.exists_longest_of_first? found
      with ⟨early, first, late, split, none, rfl, here, longer⟩
    exact ⟨early, first, late, lexeme, split, none, here, found, longer⟩
  · intro rules reordered source
    have same := Cursor.munch_eq_tokens reordered (Cursor.ofSource source)
    exact ⟨same, congrArg (List.mapM id) same⟩

/-- Blanks in front of an assignment, which a terminator and a colon would take apart, and the rules
the other way round. -/
theorem first_match_longest_assignment :
    (∃ rule ∈ Pattern.all, (rule.lexeme? " := b".toList).isSome = true) ∧
    Pattern.all.reverse.Perm Pattern.all ∧
      (∃ early rule late lexeme, Pattern.all = early ++ rule :: late ∧
        rule.lexeme? " := b".toList = some lexeme ∧ ∀ other ∈ early ++ late, ∀ lexeme',
          other.lexeme? " := b".toList = some lexeme' → lexeme'.text.length < lexeme.text.length) ∧
      ((Cursor.ofSource "@a := b; #").munch Pattern.all.reverse).mapM id =
        tokenize "@a := b; #" := by
  have applies : ∃ rule ∈ Pattern.all, (rule.lexeme? " := b".toList).isSome = true := by
    decide +kernel
  have reordered : Pattern.all.reverse.Perm Pattern.all := List.reverse_perm _
  rcases first_match_longest.1 _ applies with ⟨early, rule, late, lexeme, split, -, here, -, longer⟩
  exact ⟨applies, reordered, ⟨early, rule, late, lexeme, split, here, longer⟩,
    (first_match_longest.2 _ reordered "@a := b; #").2⟩

end FactGraph.Token
