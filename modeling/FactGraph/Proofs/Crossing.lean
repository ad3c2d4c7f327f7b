import FactGraph.Proofs.Notation.Describing

namespace FactGraph

namespace Property

variable {most : Nat} {span : Span} {subjects : List Ident}

theorem attachEach_map {α : Type} (property : α → Property) (cells : List α) :
    attachEach most span subjects (cells.map property) =
      attachPairs most span ((subjects ×ˢ cells).map fun cell => (cell.1, property cell.2)) := by
  simp [attachEach, SProd.sprod, List.product, List.map_flatMap, Function.comp_def]

end Property

namespace Notation

/-- Where each property takes as many numbers and groups as the others, the source states one after
the other. What the properties are may depend on where they are written. -/
theorem ofSource_of_takes {limits : Limits} {left : Tree .labelled}
    {right : Tree .description} {gap : Gap} {idents : List Ident} {cells : List (Ident × Ident)}
    {numbers groups : Nat} {Where : Type} {property : Where → Ident × Ident → Property}
    (fits : (left.arrow gap right).depth ≤ limits.nesting)
    (first : left.Names limits.citation idents)
    (second : right.Describes limits.citation fun properties => ∃ place, properties =
      cells.map (property place))
    (takes : ∀ place cell, Property.Takes limits.citation numbers groups (property place cell)) :
    ∃ place span compilation,
      Compilation.ofSource (String.ofList (left.arrow gap right).text) limits = .ok compilation ∧
      compilation.graph.triples = (idents ×ˢ cells).zipIdx.flatMap fun (cell, turn) =>
        Property.triplesOf
          (Property.blocks (turn * numbers) (turn * groups) span cell.1
            (property place cell.2)) := by
  rcases ofSource_arrow fits first second with ⟨_, span, _, ⟨place, rfl⟩, compiled⟩
  have start (count : Nat) : 0 = 0 * count := (Nat.zero_mul count).symm
  have all : ∀ cell ∈ idents ×ˢ cells, Property.Takes limits.citation numbers groups
      (property place cell.2) :=
    fun cell _ => takes place cell.2
  let pair (cell : Ident × Ident × Ident) : Ident × Property := (cell.1, property place cell.2)
  rcases Property.attachPairs_of_takes span pair all Graph.distinct_empty (start numbers)
    (start groups) with
    ⟨after, attached, triples⟩
  rw [← Property.attachEach_map] at attached
  exact ⟨place, span, _, compiled _ _ attached, triples⟩

namespace NameList

variable (subjects predicates objects relations targets : NameList) {limits : Limits}

def properties : Tree .property := .colon (.ofAtom predicates.group) tight objects.group

theorem text_properties : (predicates.properties objects).text =
    enclosed predicates.text ++ ':' :: enclosed objects.text := by
  simp [properties, text_group, tight, Gap.around, Blanks.none, enclosed]

theorem depth_properties_le : (predicates.properties objects).depth ≤ 4 := by
  have first := predicates.depth_group_le
  have second := objects.depth_group_le
  exact Nat.max_le.2 ⟨Nat.le_succ_of_le first, Nat.succ_le_succ second⟩

theorem properties_describes (citation : Nat) :
    (predicates.properties objects).Describes citation fun properties =>
      ∃ place, properties = Property.plainAll place (predicates.idents ×ˢ objects.idents) :=
  Tree.colon_describes (predicates.group_names citation) (objects.group_names citation) tight

def stating : Tree .description :=
  subjects.group.describedBy (.ofLabelled (.ofProperty (predicates.properties objects)))

theorem text_stating : (subjects.stating predicates objects).text =
    enclosed subjects.text ++ (" => ".toList ++ (predicates.properties objects).text) := by
  rw [stating, Tree.text_describedBy, text_group]
  rfl

/-- Properties, of whose statements others are said. -/
def discussing : Tree .description :=
  .arrow (.ofProperty (predicates.properties objects)) spaced
    (.ofLabelled (.ofProperty (relations.properties targets)))

theorem discussing_describes (citation : Nat) :
    (predicates.discussing objects relations targets).Describes citation fun properties =>
      ∃ places : Span × Span, properties = (predicates.idents ×ˢ objects.idents).map
        (Property.discussed places.1 places.2 (relations.idents ×ˢ targets.idents)) := by
  refine Tree.Describes.mono
    (Tree.arrow_describes (predicates.properties_describes objects citation)
    (relations.properties_describes targets citation) spaced) ?_
  rintro _ ⟨_, _, ⟨place, rfl⟩, ⟨place', rfl⟩, rfl⟩
  exact ⟨(place, place'), List.map_map⟩

theorem text_discussing : (predicates.discussing objects relations targets).text =
    (predicates.properties objects).text ++
      (" => ".toList ++ (relations.properties targets).text) := by
  simp [discussing, spaced, Gap.around, singleSpace]

theorem depth_discussing : (predicates.discussing objects relations targets).depth =
    max (predicates.properties objects).depth ((relations.properties targets).depth + 1) := rfl

theorem ofSource_stating (deep : 5 ≤ limits.nesting) :
    ∃ compilation,
      Compilation.ofSource (String.ofList (subjects.stating predicates objects).text) limits =
        .ok compilation ∧
      compilation.graph.triples =
        (subjects.idents ×ˢ predicates.idents ×ˢ objects.idents).zipIdx.map
        fun (cell, number) => ⟨.statement number, cell.1, cell.2.1, cell.2.2⟩ := by
  have fits : (subjects.stating predicates objects).depth ≤ limits.nesting := by
    have first := subjects.depth_group_le
    have second : (Tree.ofLabelled (.ofProperty (predicates.properties objects))).depth ≤ 4 :=
      predicates.depth_properties_le objects
    rw [stating, Tree.depth_describedBy]
    omega
  have described : (Tree.ofLabelled (.ofProperty (predicates.properties objects))).Describes
      limits.citation
      fun properties => ∃ place, properties =
        Property.plainAll place (predicates.idents ×ˢ objects.idents) :=
    predicates.properties_describes objects limits.citation
  rcases ofSource_of_takes fits (subjects.group_names limits.citation) described
    (fun _ _ => Property.takes_plain _ _ _ _) with ⟨_, _, compilation, compiled, triples⟩
  refine ⟨compilation, compiled, triples.trans ?_⟩
  simp only [Property.triplesOf_blocks_plain, Nat.mul_one, List.map_eq_flatMap]

theorem ofSource_discussing (deep : 6 ≤ limits.nesting) (room : 1 ≤ limits.citation) :
    ∃ compilation, Compilation.ofSource
        (String.ofList (subjects.group.describedBy
          (predicates.discussing objects relations targets)).text) limits =
          .ok compilation ∧
      compilation.graph.triples =
        (subjects.idents ×ˢ predicates.idents ×ˢ objects.idents).zipIdx.flatMap
        fun (cell, block) =>
          let pairs := relations.idents ×ˢ targets.idents
          let first := block * (1 + relations.idents.length * targets.idents.length)
          let main : Triple := ⟨.statement first, cell.1, cell.2.1, cell.2.2⟩
          main :: (Role.all.map (Graph.partOf main block) ++
                (pairs.zipIdx (first + 1)).map fun (pair, number) =>
            ⟨.statement number, main.ident, pair.1, pair.2⟩) := by
  have fits : (subjects.group.describedBy (predicates.discussing objects relations targets)).depth ≤
      limits.nesting := by
    have first := subjects.depth_group_le
    have second := predicates.depth_properties_le objects
    have third := relations.depth_properties_le targets
    rw [Tree.depth_describedBy, depth_discussing]
    omega
  have filled : relations.idents ×ˢ targets.idents ≠ [] := List.cons_ne_nil _ _
  rcases ofSource_of_takes fits (subjects.group_names limits.citation)
    (predicates.discussing_describes objects relations targets limits.citation)
    (fun _ => Property.takes_discussed filled room) with ⟨_, _, compilation, compiled, triples⟩
  refine ⟨compilation, compiled, triples.trans ?_⟩
  simp only [Property.triplesOf_blocks_discussed filled, Nat.mul_one, List.length_product]

end NameList

end Notation

namespace Compilation

open Notation

/-- Every subject is stated to have every predicate with every object, subject by subject and
predicate by predicate, and each of these statements is followed by its parts and by what is said of
it. Nothing is reified of which nothing is said. -/
theorem lists_multiply (subjects predicates objects relations targets : NameList) :
    let cells := subjects.idents ×ˢ predicates.idents ×ˢ objects.idents
    let pairs := relations.idents ×ˢ targets.idents
    let count := subjects.idents.length * predicates.idents.length * objects.idents.length
    let each := relations.idents.length * targets.idents.length
    let description := s!"({subjects.source}) => ({predicates.source}):({objects.source})"
    (∃ compilation, ofSource s!"{description} => ({relations.source}):({targets.source})"
          .standard = .ok compilation ∧
      compilation.graph.triples.length = count * (4 + each) ∧
      compilation.graph.triples = cells.zipIdx.flatMap fun (cell, block) =>
        let first := block * (1 + each)
        let main : Triple := ⟨.statement first, cell.1, cell.2.1, cell.2.2⟩
        main :: (Role.all.map (Graph.partOf main block) ++
              (pairs.zipIdx (first + 1)).map fun (pair, number) =>
          ⟨.statement number, main.ident, pair.1, pair.2⟩)) ∧
    ∃ compilation, ofSource description .standard = .ok compilation ∧
        compilation.graph.triples.length = count ∧
      compilation.graph.triples =
        cells.zipIdx.map fun (cell, number) => ⟨.statement number, cell.1, cell.2.1, cell.2.2⟩ := by
  intro cells pairs count each description
  have counted : cells.length = count := by
    rw [List.length_product, List.length_product, ← Nat.mul_assoc]
  have paired : pairs.length = each := List.length_product _ _
  constructor
  · have deep : 6 ≤ Limits.standard.nesting := by decide
    have room : 1 ≤ Limits.standard.citation := by decide
    rcases subjects.ofSource_discussing predicates objects relations targets deep room with
      ⟨compilation, compiled, triples⟩
    have whole : s!"{description} => ({relations.source}):({targets.source})" =
        String.ofList (subjects.group.describedBy
          (predicates.discussing objects relations targets)).text := by
      apply String.toList_injective
      simp [description, Tree.text_describedBy, NameList.text_group, NameList.text_discussing,
        NameList.text_properties, NameList.source, enclosed, toString]
    refine ⟨compilation, by rw [whole]; exact compiled, ?_, triples⟩
    have four : 4 + pairs.length = pairs.length + 1 + 1 + 1 + 1 := Nat.add_comm _ _
    rw [← counted, ← paired, four, triples, List.length_flatMap]
    simp [Role.all, cells, pairs]
  · have deep : 5 ≤ Limits.standard.nesting := by decide
    rcases subjects.ofSource_stating predicates objects deep with ⟨compilation, compiled, triples⟩
    have whole : description = String.ofList (subjects.stating predicates objects).text := by
      apply String.toList_injective
      simp [description, NameList.text_stating, NameList.text_properties, NameList.source,
        enclosed, toString]
    refine ⟨compilation, by rw [whole]; exact compiled, ?_, triples⟩
    rw [triples, List.length_map, List.length_zipIdx, counted]

end Compilation

end FactGraph
