import FactGraph.Graph
import FactGraph.Proofs.Grammar.Spelled
import FactGraph.Proofs.Graph.Counted

namespace FactGraph

def Unbroken (text : String) : Prop := ∀ c ∈ text.toList, Text.isBlank c = false

namespace Unbroken

variable {text : String}

theorem space (unbroken : Unbroken text) : ' ' ∉ text.toList :=
  fun inside => Bool.noConfusion (unbroken ' ' inside)

theorem newline (unbroken : Unbroken text) : '\n' ∉ text.toList :=
  fun inside => Bool.noConfusion (unbroken '\n' inside)

end Unbroken

theorem isBlank_of_isDigit {c : Char} (digit : c.isDigit = true) : Text.isBlank c = false :=
  Token.isBlank_of_isEntityChar (Token.isEntityChar_of_isDigit digit)

theorem isBlank_of_mem_writeCounter {number : Nat} :
    ∀ c ∈ Text.writeCounter number, Text.isBlank c = false :=
  fun _ inside => isBlank_of_isDigit (Text.isDigit_of_mem_writeCounter inside)

theorem visible_of_any {text : List Char} (visible : text.any Text.isBlank = false) :
    ∀ c ∈ text, Text.isBlank c = false := by
  simpa using visible

theorem Ident.unbroken_text {ident : Ident} (worded : ident.Worded) : Unbroken ident.text := by
  have spaced {space : String} (known : space ∈ spaces) {after : List Char}
      (visible : ∀ c ∈ after, Text.isBlank c = false) :
      Unbroken (String.ofList (space.toList ++ '/' :: after)) := by
    have front : ∀ space ∈ spaces, (space.toList ++ ['/']).any Text.isBlank = false := by decide
    rw [Unbroken, String.toList_ofList, List.append_cons]
    exact List.forall_mem_append.2 ⟨visible_of_any (front space known), visible⟩
  have word {text : List Char} (word : IsWord text) : ∀ c ∈ text, Text.isBlank c = false :=
    fun c inside => Token.isBlank_of_isEntityChar (word.2 c inside)
  cases ident with
  | user text => exact spaced (show "_:user" ∈ spaces by decide) (word worded)
  | unique text => exact spaced (show "_:uniq" ∈ spaces by decide) (word worded)
  | auto number => exact spaced (show "_:auto_ent" ∈ spaces by decide) isBlank_of_mem_writeCounter
  | statement number =>
    exact spaced (show "_:auto_expr" ∈ spaces by decide) isBlank_of_mem_writeCounter
  | part group role =>
    have letter : ∀ c ∈ ['.', role.letter], Text.isBlank c = false :=
      visible_of_any (by cases role <;> decide)
    exact spaced (show "_:auto_reify" ∈ spaces by decide)
      (List.forall_mem_append.2 ⟨isBlank_of_mem_writeCounter, letter⟩)
  | reification role =>
    have text : ((Ident.reification role).text.toList.any Text.isBlank) = false := by
      cases role <;> decide
    exact visible_of_any text

theorem Span.toList_text (span : Span) :
    span.text.toList = Text.writeCounter span.line ++ ':' :: Text.writeCounter span.column := by
  have colon : (toString ":").toList = [':'] := rfl
  simp [text, position, Position.text, Text.writeCounter, colon]

theorem Span.unbroken_text (span : Span) : Unbroken span.text := by
  rw [Unbroken, toList_text]
  refine List.forall_mem_append.2 ⟨isBlank_of_mem_writeCounter,
    List.forall_mem_cons.2 ⟨by decide, ?_⟩⟩
  exact isBlank_of_mem_writeCounter

/-- A line as the fields that single blanks separate in it. -/
def fieldsOf (line : List Char) : List String := (line.splitOn ' ').map String.ofList

theorem fieldsOf_intercalate {fields : List String} (nonempty : fields ≠ [])
    (unbroken : ∀ field ∈ fields, Unbroken field) :
    fieldsOf ([' '].intercalate (fields.map String.toList)) = fields := by
  have apart : ∀ text ∈ fields.map String.toList, ' ' ∉ text := by
    intro text inside
    rcases List.mem_map.1 inside with ⟨field, there, rfl⟩
    exact (unbroken field there).space
  rw [fieldsOf, List.splitOn_intercalate ' ' apart (by simpa using nonempty), List.map_map]
  exact (List.map_congr_left fun field _ => String.ofList_toList).trans (List.map_id _)

theorem mem_of_mem_intercalate {c separator : Char} {texts : List (List Char)}
    (inside : c ∈ [separator].intercalate texts) : c = separator ∨ ∃ text ∈ texts, c ∈ text := by
  induction texts with
  | nil => simp at inside
  | cons text texts ih =>
    cases texts with
    | nil => exact .inr ⟨text, List.mem_cons_self, by simpa using inside⟩
    | cons other texts =>
      rw [List.intercalate_cons_cons, List.mem_append, List.mem_append,
        List.mem_singleton] at inside
      rcases inside with (own | between) | later
      · exact .inr ⟨text, List.mem_cons_self, own⟩
      · exact .inl between
      · exact (ih later).imp_right fun ⟨found, there, within⟩ =>
          ⟨found, List.mem_cons_of_mem _ there, within⟩

theorem splitOn_lines {lines : List String} (unbroken : ∀ line ∈ lines, '\n' ∉ line.toList) :
    (String.join (lines.map (· ++ "\n"))).toList.splitOn '\n' =
      lines.map String.toList ++ [[]] := by
  induction lines with
  | nil => rfl
  | cons line lines ih =>
    rcases List.forall_mem_cons.1 unbroken with ⟨own, others⟩
    have ended : (String.join ((line :: lines).map (· ++ "\n"))).toList =
        line.toList ++ '\n' :: (String.join (lines.map (· ++ "\n"))).toList := by
      simp
    rw [ended, List.splitOn_append_cons_self_of_not_mem own, ih others]
    rfl

namespace Graph

variable {graph : Graph} {triple : Triple}

def placeField (graph : Graph) (withPlaces : Bool) (triple : Triple) : List String :=
  if withPlaces then (graph.place? triple.ident).toList.map Span.text else []

theorem toList_line (withPlaces : Bool) : (graph.line withPlaces triple).toList =
    [' '].intercalate ((triple.idents.map Ident.text ++ graph.placeField withPlaces triple).map
      String.toList) := by
  cases withPlaces with
  | false => simp [line, placeField, Triple.text, Triple.idents, List.intercalate]
  | true =>
    cases place : graph.place? triple.ident <;>
      simp [line, placeField, place, Triple.text, Triple.idents, List.intercalate]

theorem unbroken_fields (worded : ∀ ident ∈ triple.idents, ident.Worded) (withPlaces : Bool) :
    ∀ field ∈ triple.idents.map Ident.text ++ graph.placeField withPlaces triple,
      Unbroken field := by
  refine List.forall_mem_append.2 ⟨?_, ?_⟩
  · intro field inside
    rcases List.mem_map.1 inside with ⟨ident, there, rfl⟩
    exact Ident.unbroken_text (worded ident there)
  · intro field inside
    unfold placeField at inside
    split at inside
    · rcases List.mem_map.1 inside with ⟨span, _, rfl⟩
      exact span.unbroken_text
    · contradiction

theorem fieldsOf_line (worded : ∀ ident ∈ triple.idents, ident.Worded) (withPlaces : Bool) :
    fieldsOf (graph.line withPlaces triple).toList = triple.idents.map Ident.text ++
      graph.placeField withPlaces triple := by
  rw [toList_line]
  exact fieldsOf_intercalate (by simp [Triple.idents]) (unbroken_fields worded withPlaces)

theorem newline_not_mem_line (worded : ∀ ident ∈ triple.idents, ident.Worded) (withPlaces : Bool) :
    '\n' ∉ (graph.line withPlaces triple).toList := by
  rw [toList_line]
  intro inside
  rcases mem_of_mem_intercalate inside with blank | ⟨text, there, within⟩
  · contradiction
  · rcases List.mem_map.1 there with ⟨field, listed, rfl⟩
    exact (unbroken_fields worded withPlaces field listed).newline within

end Graph

namespace Compilation

variable {source : String} {limits : Limits} {compilation : Compilation}

/-- A listing has one line for each statement, and each line is cut by its blanks into four
identifiers, which are read from their texts, and the place if it is asked for. A subject that is
asked for by such a text is the identifier, and one that is asked for by an identifier of the source
is the entity of this name. -/
theorem listing_tells_graph (compiled : ofSource source limits = .ok compilation)
    (few : compilation.graph.size ≤ Text.counterBound) :
    let graph := compilation.graph
    (∀ withPlaces, ∃ lines, (graph.listing withPlaces).toList.splitOn '\n' = lines ++ [[]] ∧
      List.Forall₂ (fun line triple => ∃ fields place, fieldsOf line = fields ++ place ∧
          fields.map Ident.ofText? = triple.idents.map some ∧
          fields.map Ident.ofSubject? = triple.idents.map some ∧
          if withPlaces then ∃ span, graph.place? triple.ident = some span ∧ place = [span.text]
            else place = [])
        lines graph.triples) ∧
    ∀ token, .ok token ∈ (Token.Cursor.ofSource source).tokens → token.kind = .identifier →
      ∀ text ∈ token.value, Ident.ofSubject? text = some (.user text) := by
  intro graph
  rcases exists_built_of_compiled compiled with ⟨blocks, built⟩
  have words : graph.Spelled Ident.Worded := worded compiled
  have bounds : graph.Spelled Ident.Bounded := built.bounded few
  refine ⟨fun withPlaces =>
    ⟨graph.triples.map fun triple => (graph.line withPlaces triple).toList, ?_, ?_⟩, ?_⟩
  · have unbroken : ∀ line ∈ graph.lines withPlaces, '\n' ∉ line.toList := by
      intro line inside
      rcases List.mem_map.1 inside with ⟨triple, there, rfl⟩
      exact Graph.newline_not_mem_line (words triple there) withPlaces
    rw [Graph.listing, splitOn_lines unbroken, Graph.lines, List.map_map]
    rfl
  · refine List.forall₂_map_left_iff.2 (List.forall₂_same.2 fun triple inside => ?_)
    refine ⟨_, _, Graph.fieldsOf_line (words triple inside) withPlaces, ?_, ?_, ?_⟩
    · rw [List.map_map]
      exact List.map_congr_left fun ident written =>
        Ident.ofText?_text (words triple inside ident written) (bounds triple inside ident written)
    · rw [List.map_map]
      exact List.map_congr_left fun ident written =>
        Ident.ofSubject?_text (words triple inside ident written)
            (bounds triple inside ident written)
    · cases withPlaces with
      | false => rfl
      | true =>
        have known : graph.hasStatement triple.ident = true :=
          (built.distinct.placed _).2 (List.mem_map_of_mem inside)
        rw [Graph.hasStatement_eq_isSome_place?] at known
        rcases Option.isSome_iff_exists.1 known with ⟨span, found⟩
        exact ⟨span, found, by simp [Graph.placeField, found]⟩
  · intro token inside _ text written
    exact Ident.ofSubject?_word (Token.worded_of_mem_tokens _ token inside text written)

theorem listing_tells_graph_cited :
    ∃ compilation, ofSource "x& => b:c ! l; d => e:f => g:h" .standard = .ok compilation ∧
      compilation.graph.size ≤ Text.counterBound ∧
      ∃ lines, (compilation.graph.listing true).toList.splitOn '\n' = lines ++ [[]] ∧
        lines.length = compilation.graph.triples.length := by
  have compiled : ofSource "x& => b:c ! l; d => e:f => g:h" .standard =
      .ok ((ofSource "x& => b:c ! l; d => e:f => g:h" .standard).toOption.get
        (by decide +kernel)) := by
    decide +kernel
  refine ⟨_, compiled, by decide +kernel, ?_⟩
  rcases (listing_tells_graph compiled (by decide +kernel)).1 true with ⟨lines, cut, told⟩
  exact ⟨lines, cut, told.length_eq⟩

end Compilation

end FactGraph
