import FactGraph.Proofs.Grammar.Named
import FactGraph.Proofs.Graph.Operation
import FactGraph.Proofs.Graph.Spelled
import FactGraph.Proofs.Ident.Reading
import FactGraph.Proofs.Token.Shapes

namespace FactGraph

namespace Token

theorem isEntityChar_of_isDigit {c : Char} (digit : c.isDigit = true) : isEntityChar c = true := by
  have small : c.val < 0x80 := by
    simp only [Char.isDigit, Bool.and_eq_true, decide_eq_true_eq] at digit
    exact UInt32.lt_of_le_of_lt digit.2 (by decide)
  simp [isEntityChar, isNameChar, Text.isLetterOrNumber, small, Char.isAlphanum, digit]

namespace Pattern

variable {source : List Char} {lexeme : Lexeme}

def Wording (pieces : List Piece) : Prop :=
  ∀ piece ∈ pieces, ∀ belongs, piece = .name belongs → ∀ c, belongs c = true → isEntityChar c = true

theorem wording_of_mem_all : ∀ pattern ∈ all, Wording pattern.pieces := by
  simp +contextual [all, Wording, isEntityChar_of_isNameChar]

theorem isWord_of_lexemeOf {pieces : List Piece} (wording : Wording pieces)
    (found : lexemeOf pieces source = some lexeme) : ∀ value ∈ lexeme.value, IsWord value := by
  induction pieces generalizing source lexeme with
  | nil =>
    obtain rfl := Option.some.inj found
    exact nofun
  | cons piece pieces ih =>
    rcases List.forall_mem_cons.1 wording with ⟨own, others⟩
    simp only [lexemeOf, Option.bind_eq_bind, Option.bind_eq_some_iff, Option.pure_def,
      Option.some.injEq, Prod.exists] at found
    rcases found with ⟨taken, rest, cut, tail, deeper, rfl⟩
    cases piece with
    | name belongs =>
      rcases Piece.takes_of_split cut with ⟨nonempty, belonging⟩
      rintro value ⟨⟩
      exact ⟨nonempty, fun c inside => own belongs rfl c (belonging c inside)⟩
    | blanks | sign | run => simpa [Piece.value?] using ih others deeper

theorem isWord_of_first? {kind : Kind} (found : first? source all = some (kind, lexeme)) :
    ∀ value ∈ lexeme.value, IsWord value := by
  rcases exists_of_first? found with ⟨pattern, inside, _, hit⟩
  rw [lexeme?, Option.filter_eq_some_iff] at hit
  exact isWord_of_lexemeOf (wording_of_mem_all pattern inside) hit.1

end Pattern

def Worded (token : Token) : Prop := ∀ text ∈ token.value, IsWord text.toList

theorem worded_of_mem_tokens (cursor : Cursor) (token : Token)
    (inside : .ok token ∈ cursor.tokens) :
    token.Worded := by
  revert cursor token
  apply Cursor.forall_mem_tokens
  intro cursor after token read text written
  by_cases ended : cursor.rest = []
  · rw [Cursor.token_of_rest_nil ended] at read
    obtain ⟨rfl, _⟩ := Prod.mk.inj (Except.ok.inj read)
    contradiction
  · rw [Cursor.token_of_rest_ne_nil ended] at read
    split at read
    · next found =>
      obtain ⟨rfl, _⟩ := Prod.mk.inj (Except.ok.inj read)
      rcases Option.map_eq_some_iff.1 written with ⟨value, here, rfl⟩
      rw [String.toList_ofList]
      exact Pattern.isWord_of_first? found value here
    · contradiction

end Token

theorem ne_nil_numberMarkers {text : List Char} (nonempty : text ≠ []) (next : Nat) :
    (numberMarkers text next).1 ≠ [] := by
  rcases List.exists_cons_of_ne_nil nonempty with ⟨c, rest, rfl⟩
  by_cases marker : c = anonymousMarker
  · subst marker
    rw [numberMarkers_marker]
    exact List.append_ne_nil_of_left_ne_nil Nat.toDigits_ne_nil _
  · rw [numberMarkers_other marker]
    exact List.cons_ne_nil _ _

theorem isEntityChar_of_mem_numberMarkers {text : List Char}
    (entities : ∀ c ∈ text, Token.isEntityChar c = true) (next : Nat) :
    ∀ c ∈ (numberMarkers text next).1, Token.isEntityChar c = true := by
  induction text generalizing next with
  | nil => exact List.forall_mem_nil _
  | cons c rest ih =>
    rcases List.forall_mem_cons.1 entities with ⟨own, others⟩
    by_cases marker : c = anonymousMarker
    · subst marker
      rw [numberMarkers_marker]
      exact List.forall_mem_append.2
        ⟨fun d inside => Token.isEntityChar_of_isDigit (Text.isDigit_of_mem_writeCounter inside),
          ih others _⟩
    · rw [numberMarkers_other marker]
      exact List.forall_mem_cons.2 ⟨own, ih others _⟩

/-- Numbers in the place of the markers leave a word. -/
theorem isWord_expansion {text : List Char} (word : IsWord text) (next : Nat) :
    IsWord (expansion text next).toList := by
  rw [expansion, String.toList_ofList]
  exact ⟨ne_nil_numberMarkers word.1 next, isEntityChar_of_mem_numberMarkers word.2 next⟩

theorem Graph.worded_allocate (graph : Graph) {name : Option String}
    (word : ∀ text ∈ name, IsWord text.toList) :
    (graph.allocate name).1.Worded := by
  cases name with
  | none => trivial
  | some text =>
    cases marked : hasMarker text.toList with
    | false =>
      rw [allocate_plain graph marked]
      exact word text rfl
    | true =>
      rcases mint_spec graph.minted text.toList graph.minted.length graph.nextEntity
        with ⟨turn, _, made, _, _⟩
      rw [allocate_of_marked graph marked, made]
      exact isWord_expansion (word text rfl) _

theorem Ident.open_worded : Ident.Open Ident.Worded :=
  ⟨fun _ => trivial, fun _ _ => trivial, fun _ => trivial⟩

def Meaning.idents : Meaning → List Ident
  | .entities idents _ => idents
  | .descriptor properties _ => Property.identsAll properties
  | _ => []

def Meaning.Worded : Meaning → Prop
  | .target name _ => ∀ c ∈ name.toList, Token.isEntityChar c = true
  | meaning => ∀ ident ∈ meaning.idents, ident.Worded

namespace Property

theorem identsAll_crossProduct (predicates objects : List Ident) (span : Span) :
    identsAll (Grammar.crossProduct predicates objects span) ⊆ predicates ++ objects := by
  intro ident inside
  rw [identsAll, nodesAll_eq_flatMap, List.mem_flatMap] at inside
  rcases inside with ⟨node, within, written⟩
  rcases List.mem_flatMap.1 within with ⟨property, crossed, same⟩
  rcases List.mem_flatMap.1 crossed with ⟨predicate, here, crossed⟩
  rcases List.mem_map.1 crossed with ⟨object, there, rfl⟩
  obtain rfl : node = plain predicate object span := by simpa [plain, nodes, nodesAll] using same
  have two : ident = predicate ∨ ident = object := by simpa [plain, idents] using written
  rcases two with rfl | rfl
  · exact List.mem_append_left _ here
  · exact List.mem_append_right _ there

theorem identsAll_map_citedBy (properties citations : List Property) :
    identsAll (properties.map (·.citedBy citations)) ⊆ identsAll properties ++
      identsAll citations := by
  induction properties with
  | nil => simp [identsAll, nodesAll]
  | cons property rest ih =>
    have own : (property.citedBy citations).idents = property.idents := rfl
    have inner : identsAll (property.citedBy citations).citations =
        identsAll property.citations ++ identsAll citations := identsAll_append _ _
    rw [List.map_cons, identsAll_cons, identsAll_cons, own, inner]
    intro ident inside
    have later := @ih ident
    simp only [List.mem_append] at inside later ⊢
    tauto

theorem identsAll_labelled (property : Property) (name : Ident) :
    identsAll [property.labelled name] ⊆ identsAll [property] ++ [name] := by
  have own : (property.labelled name).idents = [property.predicate, property.object, name] := rfl
  rw [identsAll_cons, identsAll_cons, own]
  intro ident inside
  have inner : (property.labelled name).citations = property.citations := rfl
  simp only [inner, List.mem_append, List.mem_cons, idents, List.not_mem_nil, or_false] at inside ⊢
  tauto

end Property

namespace Grammar

theorem closed_worded (citation : Nat) :
    Closed citation (fun builder => builder.graph.Spelled Ident.Worded ∧
      builder.Bound Meaning.Worded) Meaning.Worded Token.Worded where
  allocated token words _ := by
    intro builder kept
    refine ⟨⟨?_, kept.2⟩, fun ident same => ?_⟩
    · have same : (builder.graph.allocate token.value).2.triples = builder.graph.triples :=
        Graph.triples_allocate _ _
      intro triple inside
      exact kept.1 triple (same ▸ inside)
    · obtain rfl : (builder.graph.allocate token.value).1 = ident := Except.ok.inj same
      exact List.forall_mem_singleton.2 (builder.graph.worded_allocate words)
  target token words _ := by
    cases written : token.value with
    | none => exact List.forall_mem_nil _
    | some name => exact (words name written).2
  bound _ kept := kept.2
  joinedEntities first second := List.forall_mem_append.2 ⟨first, second⟩
  joinedProperties {properties more} _ _ first second := by
    change ∀ ident ∈ Property.identsAll (properties ++ more), ident.Worded
    rw [Property.identsAll_append]
    exact List.forall_mem_append.2 ⟨first, second⟩
  assigned name meaning place holds := by
    intro builder kept
    have bound : Attempt.Keeps (Builder.Bound Meaning.Worded)
        (Builder.onBindings (Bindings.define name meaning place))
        fun _ => True := Bindings.define_keeps holds
    exact ⟨⟨kept.1, (bound builder kept.2).1⟩, fun _ _ => trivial⟩
  assignment _ _ _ := List.forall_mem_nil _
  crossed first second := by
    intro ident inside
    exact List.forall_mem_append.2 ⟨first, second⟩ ident
      (Property.identsAll_crossProduct _ _ _ inside)
  attached token idents properties place other _ _ first second := by
    intro builder kept
    have attached : Attempt.Keeps _ (Property.attachEach citation token.span idents properties) _ :=
      Property.attachEach_spelled Ident.open_worded first second
    exact ⟨⟨(attached builder.graph kept.1).1, kept.2⟩, fun _ _ => trivial⟩
  cited first second := by
    intro ident inside
    exact List.forall_mem_append.2 ⟨first, second⟩ ident (Property.identsAll_map_citedBy _ _ inside)
  labelled first second := by
    intro ident inside
    exact List.forall_mem_append.2 ⟨first, second⟩ ident (Property.identsAll_labelled _ _ inside)

end Grammar

theorem Builder.worded_empty : empty.graph.Spelled Ident.Worded ∧ empty.Bound Meaning.Worded :=
  ⟨List.forall_mem_nil _, bound_empty⟩

theorem Compilation.worded {source : String} {limits : Limits} {compilation : Compilation}
    (compiled : ofSource source limits = .ok compilation) :
    compilation.graph.Spelled Ident.Worded := by
  have words := Token.worded_of_mem_tokens (Token.Cursor.ofSource source)
  have run :=
    Grammar.parseFrom_keeps (Grammar.closed_worded limits.citation) words Builder.worded_empty
  rw [← graph_of_compiled compiled]
  exact run.1.1

end FactGraph
