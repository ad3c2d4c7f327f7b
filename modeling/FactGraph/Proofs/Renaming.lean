import FactGraph.Proofs.Grammar.Corresponding
import FactGraph.Proofs.Grammar.Named
import FactGraph.Proofs.Graph.Embedded
import FactGraph.Proofs.Notation.Renaming

/-! Names have no meaning. Other names in a source make the same graph with the other names in it: a
run compares names only with each other, and labels only with identifiers. -/

namespace FactGraph

open Precedence Token Notation

namespace Notation.Renaming

variable (names : Renaming)

def ident : Ident → Ident
  | .user text => .user (names.entityText text)
  | ident => ident

theorem ident_injective : Function.Injective names.ident := by
  intro first second same
  cases first <;> cases second <;> simp_all [ident]
  exact names.entityText_injective same

theorem image : Ident.Image 0 0 names.ident where
  injective := names.ident_injective
  statement number := by rw [Nat.zero_add]; rfl
  part group role := by rw [Nat.zero_add]; rfl
  reification _ := rfl

/-- A run and the one with the other names. Faults may quote different names. -/
def correspondence : Grammar.Correspondence where
  ident := Ident.Stands names.ident
  text value value' := value' = value.map names.entityText
  naming name name' := name' = names.bindingText name
  graph := Graph.Atop names.ident Graph.empty
  bindings := List.Forall₂ fun entry entry' => entry'.1 = names.bindingText entry.1 ∧
    entry.2.Corresponds (Ident.Stands names.ident)
      (fun name name' => name' = names.bindingText name) entry'.2
  quote _ := ""
  alone _ := False

theorem allocated {graph graph' : Graph} (value : Option String)
    (graphs : names.correspondence.graph graph graph') :
    Ident.Stands names.ident (graph.allocate value).1
      (graph'.allocate (value.map names.entityText)).1 ∧
      names.correspondence.graph (graph.allocate value).2
        (graph'.allocate (value.map names.entityText)).2 := by
  have entities : graph'.nextEntity = graph.nextEntity := graphs.entities.trans (Nat.zero_add _)
  have minted : graph'.minted = graph.minted := graphs.minted
  cases value with
  | none =>
    refine ⟨congrArg Ident.auto entities,
      ⟨graphs.triples, graphs.statements, graphs.groups, ?_, minted, graphs.known⟩⟩
    simp [Graph.allocate, entities, Graph.empty]
  | some text =>
    simp only [Option.map_some, Graph.allocate, names.hasMarker_entityText]
    split
    · next marked =>
      simp only [names.entityText_of_marked marked, entities, minted]
      refine ⟨rfl, ⟨graphs.triples, graphs.statements, graphs.groups, ?_, ?_, graphs.known⟩⟩
      · simp [Graph.empty]
      · simp [Graph.empty]
    · exact ⟨rfl, graphs⟩

theorem carried (citation : Nat) : names.correspondence.Carried citation fun _ => True where
  quoted := .inl fun _ _ => rfl
  strayed := .inl fun _ => trivial
  allocated := by
    rintro value _ graph graph' rfl graphs
    exact names.allocated value graphs
  attached := by
    rintro idents idents' properties properties' graph graph' span span' same related atop _
    have lifted : Graph.Lifted names.ident .empty
        (Property.attachEach citation span idents properties graph)
        (Property.attachEach citation span' idents' properties' graph') :=
      Property.attachEach_lifted names.image span span' same related atop
    revert lifted
    generalize Property.attachEach citation span idents properties graph = ending
    generalize Property.attachEach citation span' idents' properties' graph' = ending'
    intro lifted
    cases lifted with
    | answered reached => exact .answered rfl reached
    | failed reached faults => exact .failed (faults _ fun _ _ => rfl) reached
    | taken _ known => simp [Graph.empty, Graph.hasStatement, Provenance.find?] at known
  resolved := by
    rintro name _ bindings bindings' rfl bound
    induction bound with
    | nil => exact .none
    | @cons entry entry' _ _ first _ ih =>
      have same : (names.bindingText name == entry'.1) = (name == entry.1) := by
        rw [first.1, Bool.eq_iff_iff, beq_iff_eq, beq_iff_eq, names.bindingText_injective.eq_iff]
      rw [List.lookup_cons, List.lookup_cons, same]
      split
      · exact .some first.2
      · exact ih
  defined := by
    rintro name _ value value' bindings bindings' rfl values bound _
    exact .cons ⟨rfl, values⟩ bound

variable {sign : Sign} {signs : List Sign} {rest : List Char} {text : String}

theorem token_sign (fits : Fits sign rest) (mark mark' : Mark) :
    names.correspondence.likeness.token (sign.token mark) ((names.sign sign).token mark') ∧
      names.spelling (sign.token mark) = (names.sign sign).text := by
  have kept (none : sign.value = none) (nameless : sign.kind.carriesName = false) :
      names.correspondence.likeness.token (sign.token mark) ((names.sign sign).token mark') ∧
        names.spelling (sign.token mark) = (names.sign sign).text := by
    have value (mark : Mark) : (sign.token mark).value = Option.none := congrArg (Option.map _) none
    rw [names.sign_of_none none]
    refine ⟨⟨rfl, ?_, ?_, fun _ => (value mark).trans (value mark').symm⟩, ?_⟩
    · intro kind
      rw [show sign.kind = .identifier from kind] at nameless
      contradiction
    · rintro (kind | kind)
      all_goals
        rw [show sign.kind = _ from kind] at nameless
        contradiction
    · rw [spelling, value mark]
      simp [Sign.token, Cursor.tokenAt, Sign.lexeme]
  cases fits with
  | target name =>
    refine ⟨⟨rfl, by rintro ⟨⟩, fun _ => ⟨rfl, ?_⟩, by rintro ⟨⟩⟩, ?_⟩
    · simp [Sign.target, Renaming.sign, Sign.token, Cursor.tokenAt, Sign.lexeme,
        correspondence, bindingText]
    · simp [Sign.target, Renaming.sign, Sign.token, Cursor.tokenAt, Sign.lexeme,
        spelling, bindingText]
  | reference name =>
    refine ⟨⟨rfl, by rintro ⟨⟩, fun _ => ⟨rfl, ?_⟩, by rintro ⟨⟩⟩, ?_⟩
    · simp [Sign.reference, Renaming.sign, Sign.token, Cursor.tokenAt, Sign.lexeme,
        correspondence, bindingText]
    · simp [Sign.reference, Renaming.sign, Sign.token, Cursor.tokenAt, Sign.lexeme,
        spelling, bindingText]
  | identifier name =>
    refine ⟨⟨rfl, fun _ => ?_, by rintro (kind | kind) <;> contradiction, by rintro ⟨⟩⟩, ?_⟩
    · simp [Sign.identifier, Renaming.sign, Sign.token, Cursor.tokenAt, Sign.lexeme,
        correspondence, entityText]
    · simp [Sign.identifier, Renaming.sign, Sign.token, Cursor.tokenAt, Sign.lexeme,
        spelling, entityText]
  | operator listed =>
    have nameless : ∀ entry ∈ operatorSigns, entry.1.carriesName = false := by decide
    exact kept rfl (nameless _ listed)
  | leftParen | rightParen | pause => exact kept rfl rfl

theorem tokensOf_signs (legible : Legible signs rest) (mark mark' : Mark) :
    List.Forall₂ (names.correspondence.likeness.token) (tokensOf mark signs)
      (tokensOf mark' (signs.map names.sign)) ∧
      (tokensOf mark signs).flatMap names.spelling = textOf (signs.map names.sign) := by
  induction signs generalizing mark mark' with
  | nil => exact ⟨.nil, rfl⟩
  | cons sign signs ih =>
    rcases ih legible.2 (mark.past sign.text) (mark'.past (names.sign sign).text)
      with ⟨later, spelled⟩
    rcases names.token_sign legible.1.fits mark mark' with ⟨first, written⟩
    exact ⟨.cons first later, congrArg₂ (· ++ ·) written spelled⟩

theorem due_of_unread (unread : rest = [] ∨ Pattern.first? rest Pattern.all = none)
    (mark mark' : Mark) :
    List.Forall₂ (Reader.Due names.correspondence.likeness) (Cursor.tokens ⟨rest, mark⟩)
      (Cursor.tokens ⟨rest, mark'⟩) ∧
      ((Cursor.tokens ⟨rest, mark⟩).filterMap Except.toOption).flatMap names.spelling = [] ∧
      joined ((Cursor.tokens ⟨rest, mark⟩).filterMap Except.toOption) = [] := by
  by_cases ended : rest = []
  · rw [Cursor.tokens_of_rest_nil ended, Cursor.tokens_of_rest_nil ended]
    exact ⟨.cons (.token ⟨rfl, nofun, by rintro (kind | kind) <;> contradiction, fun _ => rfl⟩)
      .nil, rfl, rfl⟩
  · have stuck (mark : Mark) :=
      Cursor.token_of_rest_ne_nil (show (Cursor.mk rest mark).rest ≠ [] from ended)
    simp only [unread.resolve_left ended] at stuck
    rw [Cursor.tokens_of_fault ended (stuck mark), Cursor.tokens_of_fault ended (stuck mark')]
    exact ⟨.cons (.fault rfl) .nil, rfl, rfl⟩

theorem due_source (text : String) :
    List.Forall₂ (Reader.Due names.correspondence.likeness) (Cursor.ofSource text).tokens
      (Cursor.ofSource (names.source text)).tokens := by
  rcases exists_legible text.toList with ⟨signs, rest, whole, legible, unread⟩
  have tokens : (Cursor.ofSource text).tokens =
      (tokensOf .start signs).map .ok ++ Cursor.tokens ⟨rest, Mark.start.past (textOf signs)⟩ := by
    rw [Cursor.ofSource, whole, tokens_of_legible legible]
  have found : List.filterMap Except.toOption
      ((tokensOf .start signs).map (Except.ok : Token → Except Fault Token)) =
      tokensOf .start signs := by
    rw [List.filterMap_map]
    exact List.filterMap_some
  rcases names.tokensOf_signs legible .start .start with ⟨row, spelled⟩
  have ends (mark' : Mark) := names.due_of_unread unread (Mark.start.past (textOf signs)) mark'
  have source : (names.source text).toList = textOf (signs.map names.sign) ++ rest := by
    have covered : joined (tokensOf .start signs ++
        (Cursor.tokens ⟨rest, Mark.start.past (textOf signs)⟩).filterMap Except.toOption) =
          textOf signs := by
      rw [joined, List.flatMap_append, ← joined, ← joined, (ends .start).2.2, joined_tokensOf,
        List.append_nil]
    simp only [Renaming.source, tokens, List.filterMap_append, found, covered, String.toList_ofList]
    rw [List.flatMap_append, spelled, (ends .start).2.1, List.append_nil, whole, List.drop_left]
  rw [tokens, Cursor.ofSource, source, tokens_of_legible (legible.renamed names).1]
  refine List.rel_append (List.rel_map ?_ row) (ends _).1
  intro token token' related
  exact .token related

end Notation.Renaming

structure Compilation.Renamed (names : Renaming) (compilation other : Compilation) : Prop where
  meanings :
      List.Forall₂ (Meaning.Corresponds (Ident.Stands names.ident) fun name name' => name' =
        names.bindingText name)
    compilation.meanings other.meanings
  triples : other.graph.triples = compilation.graph.triples.map (Triple.mapped names.ident)
  placed (ident : Ident) : ident ∈ other.graph.places.map Prod.fst ↔
    ident ∈ (compilation.graph.places.map Prod.fst).map names.ident
  nextEntity : other.graph.nextEntity = compilation.graph.nextEntity
  nextStatement : other.graph.nextStatement = compilation.graph.nextStatement
  nextGroup : other.graph.nextGroup = compilation.graph.nextGroup
  minted : other.graph.minted = compilation.graph.minted

/-- Both are compiled, and are the same under the other names; or both are refused with one kind of
fault. -/
inductive Compilation.SameUnder (names : Renaming) :
    Except Fault Compilation → Except Fault Compilation → Prop
  | compiled {compilation other : Compilation} (renamed : compilation.Renamed names other) :
      SameUnder names (.ok compilation) (.ok other)
  | refused {fault other : Fault} (alike : fault.quoting (fun _ => "") =
    other.quoting fun _ => "") :
      SameUnder names (.error fault) (.error other)

/-- Other names for entities and for variables, the same for the same and different for different
ones, make the same of every source. -/
theorem names_without_meaning (names : Renaming) (source : String) (limits : Limits) :
    Compilation.SameUnder names (Compilation.ofSource source limits)
      (Compilation.ofSource (names.source source) limits) := by
  have carried := names.carried limits.citation
  have follow := carried.symbols_follow
  rw [Symbols.guarded_of_forall (Grammar.symbols limits.citation) fun _ => trivial] at follow
  have start : Graph.Atop names.ident .empty .empty .empty := by
    refine ⟨rfl, rfl, rfl, rfl, rfl, fun _ => ?_⟩
    simp [Graph.empty, Graph.hasStatement, Provenance.find?]
  have readers : Reader.Alike names.correspondence.likeness (Reader.ofSource source Builder.empty)
      (Reader.ofSource (names.source source) Builder.empty) :=
    ⟨⟨start, .nil⟩, .none, names.due_source source⟩
  have rooms : Reader.Roomy names.correspondence.likeness limits.nesting limits.nesting
      limits.nesting limits.nesting :=
    .even rfl
  have parsed := Reader.parse_parallel carried.fair follow rooms _ _ readers
  have first := Compilation.parseFrom_numbered source limits
  have second := Compilation.parseFrom_numbered (names.source source) limits
  unfold Compilation.ofSource
  unfold Compilation.parseFrom at *
  revert parsed first second
  generalize Reader.parse (Grammar.symbols limits.citation) limits.nesting
    (Reader.ofSource source _) = ending
  generalize Reader.parse (Grammar.symbols limits.citation) limits.nesting
    (Reader.ofSource (names.source source) _) = ending'
  intro parsed first second
  cases parsed with
  | answered answers reached =>
    have atop := reached.state.1
    refine .compiled ⟨answers, ?_, ?_, ?_, ?_, ?_, ?_⟩
    · exact atop.triples
    · intro ident
      have triples := atop.triples
      have idents (triples : List Triple) :
          (triples.map (Triple.mapped names.ident)).map (·.ident) =
            (triples.map (·.ident)).map names.ident := by
        rw [List.map_map, List.map_map]
        rfl
      rw [second.placed, triples, Graph.empty, List.nil_append, idents, List.mem_map, List.mem_map]
      exact exists_congr fun own => and_congr_left' (first.placed own).symm
    · exact atop.entities.trans (Nat.zero_add _)
    · exact atop.statements.trans (Nat.zero_add _)
    · exact atop.groups.trans (Nat.zero_add _)
    · exact atop.minted
  | failed faults _ => exact .refused faults
  | alone stopped => exact stopped.elim

end FactGraph
