import FactGraph.Proofs.Grammar.Failing
import FactGraph.Proofs.Listing

/-! Messages as lines. A fault quotes names, words of the notation and what cannot be read, and only
the last can put the end of a line into its message. -/

namespace FactGraph

namespace Text

def endsLine (c : Char) : Bool :=
  let code := c.toNat
  (0xA ≤ code && code ≤ 0xD) || code == 0x85 || code == 0x2028 || code == 0x2029

theorem endsLine_of_isBlank {c : Char} (visible : isBlank c = false) : endsLine c = false := by
  simp only [isBlank, Bool.or_eq_false_iff, Bool.and_eq_false_iff, decide_eq_false_iff_not,
    beq_eq_false_iff_ne] at visible
  simp only [endsLine, Bool.or_eq_false_iff, Bool.and_eq_false_iff, decide_eq_false_iff_not,
    beq_eq_false_iff_ne]
  omega

end Text

def OneLine (text : String) : Prop := ∀ c ∈ text.toList, Text.endsLine c = false

instance : DecidablePred OneLine :=
  fun text => List.decidableBAll (fun c => Text.endsLine c = false) text.toList

theorem Unbroken.oneLine {text : String} (unbroken : Unbroken text) : OneLine text :=
  fun c inside => Text.endsLine_of_isBlank (unbroken c inside)

@[simp] theorem oneLine_append {first second : String} :
    OneLine (first ++ second) ↔ OneLine first ∧ OneLine second := by
  rw [OneLine, String.toList_append, List.forall_mem_append]
  rfl

theorem oneLine_intercalate {separator : String} (own : OneLine separator) {texts : List String} :
    OneLine (separator.intercalate texts) ↔ ∀ text ∈ texts, OneLine text := by
  unfold OneLine
  rw [String.toList_intercalate]
  induction texts with
  | nil => simp
  | cons text texts ih =>
    cases texts with
    | nil => simp
    | cons other texts =>
      rw [List.forall_mem_cons, ← ih, List.map_cons, List.map_cons, List.intercalate_cons_cons,
        List.forall_mem_append, List.forall_mem_append, and_assoc]
      exact and_congr_right' (and_iff_right own)

@[simp] theorem oneLine_repr (number : Nat) : OneLine number.repr := by
  have digits : number.repr.toList = Text.writeCounter number := by simp [Text.writeCounter]
  intro c inside
  exact Text.endsLine_of_isBlank (isBlank_of_mem_writeCounter c (digits ▸ inside))

@[simp] theorem Position.oneLine_text (position : Position) : OneLine position.text :=
  (Span.unbroken_text ⟨0, 0, position.line, position.column⟩).oneLine

namespace Fault

@[simp] theorem oneLine_quoted {name : String} : OneLine (quoted name) ↔ OneLine name := by
  simp +decide [quoted]

@[simp] theorem oneLine_alternatives {names : List String} :
    OneLine (alternatives names) ↔ ∀ name ∈ names, OneLine name := by
  unfold alternatives
  split
  · simp +decide
  · simp
  · simp +decide
  · next nonempty _ _ =>
    have last : names.getLast?.getD "" = names.getLast nonempty := by
      rw [List.getLast?_eq_some_getLast nonempty]; rfl
    rw [oneLine_append, oneLine_append, oneLine_intercalate (by decide), List.forall_mem_map, last]
    conv => rhs; rw [← List.dropLast_concat_getLast nonempty, List.forall_mem_append,
      List.forall_mem_singleton]
    simp +decide

def quotes : Fault → List String
  | unreadable _ _ excerpt => [excerpt]
  | unexpected context expected found _ => context :: (expected ++ [found])
  | mismatch expected found _ => [expected, found]
  | redefined name _ | undefined name _ => [name]
  | statementTaken ident _ => [ident]
  | badIdent text | file text | snapshot text | internal text => [text]
  | pastEnd _ | labelTarget _ _ | labelSource _ _ | limit _ => []

/-- A message is one line just when everything is that it quotes. -/
theorem oneLine_message {fault : Fault} :
    OneLine fault.message ↔ ∀ text ∈ fault.quotes, OneLine text := by
  have plain (text : String) : toString text = text := rfl
  -- The wording itself is one line, piece by piece.
  have own {text : String} (decided : OneLine text) : OneLine text = True := eq_true decided
  cases fault with
  | limit reached =>
    unfold message quotes Limit.message
    cases reached <;> simp (disch := decide +kernel) [plain, own]
  | _ =>
    unfold message quotes
    simp (disch := decide +kernel) [plain, or_imp, forall_and, and_assoc, own]

theorem oneLine_unexpected {context found : String} {expected : List String} {place : Position}
    (own : OneLine context) (names : ∀ name ∈ expected, OneLine name) (what : OneLine found) :
    OneLine (unexpected context expected found place).message :=
  oneLine_message.2 (List.forall_mem_cons.2 ⟨own,
    List.forall_mem_append.2 ⟨names, List.forall_mem_singleton.2 what⟩⟩)

end Fault

theorem oneLine_of_entity {text : String}
    (entity : ∀ c ∈ text.toList, Token.isEntityChar c = true) : OneLine text :=
  fun c inside => Text.endsLine_of_isBlank (Token.isBlank_of_isEntityChar (entity c inside))

namespace Token

theorem Kind.oneLine_name (kind : Kind) : OneLine kind.name := by
  cases kind <;> decide +kernel

theorem oneLine_describe {token : Token} (worded : token.Worded) : OneLine token.describe := by
  unfold describe
  split
  · next text written =>
    have colon : OneLine ":" := by decide
    have kind : OneLine (token.kind.name ++ ":") :=
      oneLine_append.2 ⟨token.kind.oneLine_name, colon⟩
    exact oneLine_append.2 ⟨kind, oneLine_of_entity (worded text written).2⟩
  · exact token.kind.oneLine_name

theorem oneLine_value {token : Token} (worded : token.Worded) : OneLine (token.value.getD "") := by
  cases written : token.value with
  | none => decide
  | some text => exact oneLine_of_entity (worded text written).2

end Token

theorem Meaning.oneLine_describe {meaning : Meaning} (worded : meaning.Worded) :
    OneLine meaning.describe := by
  cases meaning with
  | target name => exact oneLine_append.2 ⟨by decide +kernel, oneLine_of_entity worded⟩
  | entities => exact (by decide +kernel : OneLine "entities")
  | descriptor => exact (by decide +kernel : OneLine "descriptor")
  | assignment => exact (by decide +kernel : OneLine "assignment")

namespace Grammar

open Precedence

variable {citation nesting : Nat} {inv : Builder → Prop} {fault : Fault}

theorem oneLine_unexpected {context : String} {expected : List String}
    (demanded : (context, expected) ∈ demands) {found : Option Meaning}
    (worded : Each Meaning.Worded found) (span : Span) :
    OneLine (unexpected context expected found span).message := by
  have known : ∀ demand ∈ demands, OneLine demand.1 ∧ ∀ name ∈ demand.2, OneLine name := by
    decide +kernel
  rcases known _ demanded with ⟨own, names⟩
  cases found with
  | none => exact Fault.oneLine_unexpected own names (by decide +kernel)
  | some meaning =>
    exact Fault.oneLine_unexpected own names (Meaning.oneLine_describe (worded meaning rfl))

theorem Refusal.oneLine (refusal : Refusal citation inv Meaning.Worded Token.Worded fault) :
    OneLine fault.message := by
  cases refusal with
  | unexpected here demanded holds => exact oneLine_unexpected demanded holds _
  | undefined here =>
    exact Fault.oneLine_message.2 (List.forall_mem_singleton.2 (Token.oneLine_value here))
  | redefined holds =>
    exact Fault.oneLine_message.2 (List.forall_mem_singleton.2 (oneLine_of_entity holds))
  | labelTarget | labelSource => exact Fault.oneLine_message.2 (List.forall_mem_nil _)
  | attached here entities described kept failed =>
    rcases Property.exists_refused_of_attachEach failed with ⟨site, reached, refused, within, _⟩
    cases refused with
    | deep => exact Fault.oneLine_message.2 (List.forall_mem_nil _)
    | @taken label _ labelled =>
      have named : label ∈ site.property.idents := by simp [Property.idents, labelled]
      have worded : label.Worded := described label (List.mem_flatMap_of_mem within named)
      exact Fault.oneLine_message.2
        (List.forall_mem_singleton.2 (Ident.unbroken_text worded).oneLine)

theorem oneLine_of_raised {symbols : Symbols Builder Meaning} {unread : Fault → Prop}
    (raised : Reader.Raised symbols nesting Token.Worded unread
      (Refusal citation inv Meaning.Worded Token.Worded) fault) :
    OneLine fault.message ∨ unread fault := by
  have kinds (kinds : List Token.Kind) : ∀ name ∈ kinds.map (·.name), OneLine name :=
    List.forall_mem_map.2 fun kind _ => kind.oneLine_name
  cases raised with
  | unread pending => exact .inr pending
  | pastEnd | limit => exact .inl (Fault.oneLine_message.2 (List.forall_mem_nil _))
  | mismatch kind here =>
    have quoted : ∀ text ∈ [kind.name, _], OneLine text :=
      List.forall_mem_cons.2 ⟨kind.oneLine_name,
        List.forall_mem_singleton.2 (Token.oneLine_describe here)⟩
    exact .inl (Fault.oneLine_message.2 quoted)
  | unopened here =>
    exact .inl (Fault.oneLine_unexpected (by decide +kernel) (kinds _)
      (Token.oneLine_describe here))
  | unfollowed here =>
    exact .inl (Fault.oneLine_unexpected (by decide +kernel) (kinds _)
      (Token.oneLine_describe here))
  | refused owned => exact .inl owned.oneLine

end Grammar

namespace Compilation

variable {source : String} {limits : Limits} {fault : Fault}

theorem oneLine_or_unread (failed : ofSource source limits = .error fault) :
    OneLine fault.message ∨ Token.Unread source fault :=
  Grammar.oneLine_of_raised (Grammar.parseFrom_raised (Grammar.closed_worded limits.citation)
    (Token.worded_of_mem_tokens _) Builder.worded_empty (parseFrom_of_ofSource failed))

end Compilation

theorem Token.oneLine_unreadableAfter {before rest : List Char} :
    OneLine (unreadableAfter before rest).message ↔
    ∀ c ∈ rest.take 10, Text.endsLine c = false := by
  rw [Fault.oneLine_message]
  have quoted : (unreadableAfter before rest).quotes = [String.ofList (rest.take 10)] := rfl
  rw [quoted, List.forall_mem_singleton, OneLine, String.toList_ofList]

end FactGraph
