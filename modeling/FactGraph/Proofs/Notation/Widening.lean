import FactGraph.Proofs.Notation.Fitting

namespace FactGraph.Notation

open Token

/-- Texts that what is in front of them cannot tell from each other: which sign is at the front is
seen from its first character, but for the arrow. -/
structure SameFront (rest rest' : List Char) : Prop where
  head : rest.head? = rest'.head?
  arrow : ['=', '>'] <+: rest ↔ ['=', '>'] <+: rest'

namespace SameFront

variable {rest rest' : List Char}

theorem stops {belongs : Char → Bool} (same : SameFront rest rest') (stop : Stops belongs rest) :
    Stops belongs rest' := by
  unfold Stops
  rw [← same.head]
  exact stop

theorem prefix_iff (same : SameFront rest rest') (c : Char) : [c] <+: rest ↔ [c] <+: rest' := by
  have first (text : List Char) : [c] <+: text ↔ text.head? = some c := by
    cases text <;> simp [eq_comm]
  rw [first, first, same.head]

theorem append {text : List Char} (visible : ∃ c ∈ text, c ≠ '=') (rest rest' : List Char) :
    SameFront (text ++ rest) (text ++ rest') := by
  rcases visible with ⟨c, inside, other⟩
  rcases text with _ | ⟨first, _ | ⟨second, more⟩⟩
  · contradiction
  · obtain rfl := List.mem_singleton.1 inside
    exact ⟨rfl, by simp [other.symm]⟩
  · exact ⟨rfl, by simp⟩

end SameFront

variable {sign : Sign} {rest rest' first second : List Char}

theorem Fits.of_sameFront (fits : Fits sign rest) (same : SameFront rest rest') :
    Fits sign rest' := by
  cases fits with
  | target name stop => exact .target name (same.stops stop)
  | reference name stop => exact .reference name (same.stops stop)
  | identifier name stop => exact .identifier name (same.stops stop)
  | operator listed gap stop apart =>
    refine .operator listed gap (same.stops stop) ?_
    intro colon none
    rw [← same.prefix_iff]
    exact apart colon none
  | leftParen opening stop => exact .leftParen opening (same.stops stop)
  | rightParen closing => exact .rightParen closing
  | pause between stop free =>
    refine .pause between (same.stops stop) ?_
    intro white
    have others := free white
    simp only [Sign.takesBlanks, List.mem_cons, List.not_mem_nil, or_false, forall_eq_or_imp,
      forall_eq] at others ⊢
    simpa only [same.arrow, same.prefix_iff] using others

namespace Sign

def outline (sign : Sign) : Kind × Option String := (sign.kind, sign.value.map String.ofList)

def rewritten (sign : Sign) (text : List Char) : Sign := { sign with text }

@[simp] theorem text_rewritten (sign : Sign) (text : List Char) :
    (sign.rewritten text).text = text := rfl

@[simp] theorem outline_rewritten (sign : Sign) (text : List Char) :
    (sign.rewritten text).outline = sign.outline :=
  rfl

end Sign

theorem visible_of_listed {kind : Kind} {mark : List Char} (listed : (kind, mark) ∈ operatorSigns) :
    mark ≠ [] ∧ (∀ c ∈ mark, Text.isBlank c = false) ∧ ∃ c ∈ mark, c ≠ '=' := by
  have each : ∀ entry ∈ operatorSigns, entry.2 ≠ [] ∧ entry.2.any Text.isBlank = false ∧
      entry.2.any (· != '=') = true := by decide
  simpa using each _ listed

theorem Fits.visible (fits : Fits sign rest) : ∃ c ∈ sign.text, c ≠ '=' := by
  have run {belongs : Char → Bool} (run : Run belongs) (other : belongs '=' = false) :
      ∃ c ∈ run.text, c ≠ '=' := by
    rcases List.exists_mem_of_ne_nil _ run.nonempty with ⟨c, inside⟩
    refine ⟨c, inside, ?_⟩
    rintro rfl
    rw [run.belonging '=' inside] at other
    contradiction
  cases fits with
  | target name => exact ⟨'@', List.mem_cons_self, by decide⟩
  | reference name => exact ⟨'*', List.mem_cons_self, by decide⟩
  | identifier name => exact run name (by decide +kernel)
  | operator listed gap =>
    rcases (visible_of_listed listed).2.2 with ⟨c, inside, other⟩
    exact ⟨c, by simp [Sign.operator, Gap.around, inside], other⟩
  | leftParen opening => exact ⟨'(', List.mem_cons_self, by decide⟩
  | rightParen closing => exact ⟨')', by simp [Sign.rightParen], by decide⟩
  | pause between => exact run between (by decide)

def leadingKinds : List Kind := [.assign, .arrow, .colon, .bang, .rightParen]

def trailingKinds : List Kind := [.assign, .arrow, .colon, .bang, .leftParen]

variable {lead core rear : List Char}

theorem exists_of_blanks_behind (nonempty : core ≠ [])
    (visible : ∀ c ∈ core, Text.isBlank c = false) (white : ∀ c ∈ second, Text.isBlank c = true)
    (same : first ++ second = lead ++ core ++ rear) :
    ∃ more, first = lead ++ core ++ more ∧ rear = more ++ second := by
  rcases List.append_eq_append_iff.1 same with ⟨more, split, rfl⟩ | ⟨more, rfl, rfl⟩
  · rcases List.eq_nil_or_concat more with rfl | ⟨others, c, rfl⟩
    · exact ⟨[], by rw [split, List.append_nil, List.append_nil], rfl⟩
    · have blank : Text.isBlank c = true := white c (by simp)
      have last : core.getLast? = some c := by
        rw [← List.getLast?_append_of_ne_nil lead nonempty, split]
        simp
      rw [visible c (List.mem_of_getLast? last)] at blank
      contradiction
  · exact ⟨more, rfl, rfl⟩

theorem exists_of_blanks_before (nonempty : core ≠ [])
    (visible : ∀ c ∈ core, Text.isBlank c = false) (white : ∀ c ∈ first, Text.isBlank c = true)
    (same : first ++ second = lead ++ (core ++ rear)) :
    ∃ more, lead = first ++ more ∧ second = more ++ (core ++ rear) := by
  rcases List.append_eq_append_iff.1 same with ⟨more, rfl, rfl⟩ | ⟨more, rfl, split⟩
  · exact ⟨more, rfl, rfl⟩
  · rcases more with _ | ⟨c, others⟩
    · exact ⟨[], by simp, split.symm⟩
    · rcases List.exists_cons_of_ne_nil nonempty with ⟨d, more, rfl⟩
      obtain rfl : d = c := (List.cons.inj split).1
      have blank : Text.isBlank d = true := white d (by simp)
      rw [visible d List.mem_cons_self] at blank
      contradiction

theorem blank_append {text text' : List Char} (white : ∀ c ∈ text, Text.isBlank c = true)
    (white' : ∀ c ∈ text', Text.isBlank c = true) : ∀ c ∈ text ++ text', Text.isBlank c = true :=
  List.forall_mem_append.2 ⟨white, white'⟩

/-- The blanks at the end of a sign may be any others. Only a colon needs some, if it has some. -/
theorem Fits.tail (fits : Fits sign rest) (trails : sign.kind ∈ trailingKinds) :
    ∃ lead core, ∃ tail : Blanks, sign.text = lead ++ core ++ tail.text ∧
      (core ≠ [] ∧ (∀ c ∈ core, Text.isBlank c = false) ∧ ∃ c ∈ core, c ≠ '=') ∧
      ∀ blanks : Blanks, (blanks.text = [] → tail.text = []) →
        Fits (sign.rewritten (lead ++ core ++ blanks.text)) rest := by
  cases fits with
  | @operator kind mark listed gap _ stop apart =>
    refine ⟨gap.before.text, mark, gap.after, by simp [Sign.operator, Gap.around],
      visible_of_listed listed, ?_⟩
    intro blanks none
    rw [List.append_assoc]
    exact .operator listed ⟨gap.before, blanks⟩ stop fun colon empty => apart colon (none empty)
  | leftParen opening stop =>
    have visible : Text.isBlank '(' = false := by decide
    refine ⟨[], ['('], opening, rfl, ⟨by simp, by simpa using visible, by simp⟩, ?_⟩
    intro blanks _
    exact .leftParen blanks stop
  | _ => simp [trailingKinds] at trails

theorem Fits.widen_tail (fits : Fits sign rest) (trails : sign.kind ∈ trailingKinds)
    (cut : sign.text = first ++ second) (white : ∀ c ∈ second, Text.isBlank c = true)
    (blanks : Blanks) :
    Fits (sign.rewritten (first ++ (blanks.text ++ second))) rest ∧
      SameFront (sign.text ++ rest) (first ++ (blanks.text ++ second) ++ rest) := by
  rcases fits.tail trails with ⟨lead, core, tail, whole,
    ⟨nonempty, visible, c, inside, other⟩, refit⟩
  rcases exists_of_blanks_behind nonempty visible white (cut.symm.trans whole)
    with ⟨more, rfl, split⟩
  have within : ∀ c ∈ more, Text.isBlank c = true :=
    fun c inside => tail.blank c (by simp [split, inside])
  let wider : Blanks :=
    ⟨more ++ (blanks.text ++ second), blank_append within (blank_append blanks.blank white)⟩
  constructor
  · have empty : wider.text = [] → tail.text = [] := by
      intro none
      have parts : more = [] ∧ blanks.text ++ second = [] := List.append_eq_nil_iff.1 none
      rw [split, parts.1, (List.append_eq_nil_iff.1 parts.2).2, List.append_nil]
    rw [List.append_assoc]
    exact refit wider empty
  · have seen : ∃ c ∈ lead ++ core ++ more, c ≠ '=' := ⟨c, by simp [inside], other⟩
    rw [cut, List.append_assoc (lead ++ core ++ more), List.append_assoc (lead ++ core ++ more)]
    exact .append seen _ _

theorem Fits.widen_lead (fits : Fits sign rest) (leads : sign.kind ∈ leadingKinds)
    (cut : sign.text = first ++ second) (white : ∀ c ∈ first, Text.isBlank c = true)
    (blanks : Blanks) :
    Fits (sign.rewritten (first ++ (blanks.text ++ second))) rest := by
  cases fits with
  | @operator kind mark listed gap _ stop apart =>
    have visible := visible_of_listed listed
    rcases exists_of_blanks_before visible.1 visible.2.1 white cut.symm with ⟨more, split, rfl⟩
    have within : ∀ c ∈ more, Text.isBlank c = true :=
      fun c inside => gap.before.blank c (by simp [split, inside])
    let wider : Blanks :=
      ⟨first ++ (blanks.text ++ more), blank_append white (blank_append blanks.blank within)⟩
    have fits : Fits (.operator kind mark ⟨wider, gap.after⟩) rest := .operator listed _ stop apart
    simpa [Sign.operator, Sign.rewritten, Gap.around, wider] using fits
  | rightParen closing =>
    have visible : Text.isBlank ')' = false := by decide
    have shape : first ++ second = closing.text ++ ([')'] ++ []) := cut.symm
    rcases exists_of_blanks_before (by simp) (by simpa using visible) white shape
      with ⟨more, split, rfl⟩
    have within : ∀ c ∈ more, Text.isBlank c = true :=
      fun c inside => closing.blank c (by simp [split, inside])
    let wider : Blanks :=
      ⟨first ++ (blanks.text ++ more), blank_append white (blank_append blanks.blank within)⟩
    have fits : Fits (.rightParen wider) rest := .rightParen wider
    simpa [Sign.rightParen, Sign.rewritten, wider] using fits
  | _ => simp [leadingKinds] at leads

theorem Fits.absorb (fits : Fits sign rest)
    (takes : sign.kind = .terminator ∨ sign.kind ∈ trailingKinds) (blanks : Blanks) :
    Fits (sign.rewritten (sign.text ++ blanks.text)) rest := by
  rcases takes with terminator | trails
  · cases fits with
    | pause between stop free =>
      have belonging : ∀ c ∈ between.text ++ blanks.text, isTerminatorChar c = true :=
        List.forall_mem_append.2
          ⟨between.belonging, fun c inside => isTerminatorChar_of_isBlank (blanks.blank c inside)⟩
      refine .pause ⟨between.text ++ blanks.text, by simp [between.nonempty], belonging⟩ stop ?_
      intro white
      exact free fun c inside => white c (List.mem_append_left _ inside)
    | operator listed =>
      have operators : ∀ entry ∈ operatorSigns, entry.1 ≠ .terminator := by decide
      exact absurd terminator (operators _ listed)
    | _ => contradiction
  · have white : ∀ c ∈ ([] : List Char), Text.isBlank c = true := List.forall_mem_nil _
    simpa using (fits.widen_tail trails (List.append_nil _).symm white blanks).1

end FactGraph.Notation
