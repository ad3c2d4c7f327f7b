import FactGraph.Proofs.Notation.Describing

namespace FactGraph

namespace Property

/-- A property with these predicates and objects, each link but the first about the statement of the
one before it. -/
inductive Chain : List (Ident × Ident) → Property → Prop
  | last (link : Ident × Ident) (place : Span) : Chain [link] (plain link.1 link.2 place)
  | cited {links : List (Ident × Ident)} {inner : Property} (link : Ident × Ident) (place : Span)
      (later : Chain links inner) :
      Chain (link :: links) ((plain link.1 link.2 place).citedBy [inner])

variable {links : List (Ident × Ident)} {property : Property}

namespace Chain

theorem nodes_cited (link : Ident × Ident) (place : Span) (inner : Property) :
    nodes ((plain link.1 link.2 place).citedBy [inner]) =
      (plain link.1 link.2 place).citedBy [inner] :: nodes inner := by
  rw [nodes_eq]
  exact congrArg _ (List.append_nil _)

theorem unlabelled (chain : Chain links property) : Unlabelled (nodes property) := by
  induction chain with
  | last link place => exact List.forall_mem_singleton.2 rfl
  | cited link place later ih =>
    rw [nodes_cited]
    exact List.forall_mem_cons.2 ⟨rfl, ih⟩

theorem sites_cited (statement depth : Nat) (span : Span) (subject : Ident) (link : Ident × Ident)
    (place : Span) (inner : Property) :
    sites statement depth span subject ((plain link.1 link.2 place).citedBy [inner]) =
      ⟨depth, span, subject, (plain link.1 link.2 place).citedBy [inner]⟩ ::
        sites (statement + 1) (depth + 1) inner.span (.statement statement) inner := by
  exact congrArg _ (List.append_nil _)

theorem map_depth_sites (chain : Chain links property) (statement depth : Nat) (span : Span)
    (subject : Ident) :
    (sites statement depth span subject property).map (·.depth) =
      List.range' depth links.length := by
  induction chain generalizing statement depth span subject with
  | last link place => rfl
  | cited link place later ih =>
    rw [sites_cited, List.map_cons, ih, List.length_cons, List.range'_succ]

theorem triplesOf_blocks_cited (statement group : Nat) (span : Span) (subject : Ident)
    (link : Ident × Ident) (place : Span) (inner : Property) :
    triplesOf (blocks statement group span subject ((plain link.1 link.2 place).citedBy [inner])) =
      let main : Triple := ⟨.statement statement, subject, link.1, link.2⟩
      main :: (Role.all.map (Graph.partOf main group) ++
        triplesOf (blocks (statement + 1) (group + 1) inner.span main.ident inner)) := by
  let root : Property := (plain link.1 link.2 place).citedBy [inner]
  calc triplesOf (blocks statement group span subject root)
      = (root.block statement group subject).triples ++
          triplesOf (blocks (statement + 1) (group + 1) inner.span (.statement statement)
            inner ++ []) := rfl
    _ = _ := by
      rw [List.append_nil]
      rfl

theorem length_pos (chain : Chain links property) : 0 < links.length := by
  cases chain <;> exact Nat.succ_pos _

theorem triplesOf_blocks (chain : Chain links property) (start : Nat) (span : Span)
    (subject : Ident) :
    triplesOf (blocks start start span subject property) =
      (links.zipIdx start).flatMap fun (link, number) =>
      let subject := if number = start then subject else .statement (number - 1)
      let main : Triple := ⟨.statement number, subject, link.1, link.2⟩
      if number + 1 = start + links.length then [main]
        else main :: Role.all.map (Graph.partOf main number) := by
  induction chain generalizing start span subject with
  | last link place => simp [triplesOf_blocks_plain]
  | @cited links inner link place later ih =>
    have more : start + 1 ≠ start + (links.length + 1) := by
      have some := later.length_pos
      omega
    rw [triplesOf_blocks_cited, List.zipIdx_cons, List.flatMap_cons]
    dsimp only
    rw [ih, if_pos rfl, List.length_cons, if_neg more, List.cons_append]
    refine congrArg (List.cons _) (congrArg (_ ++ ·) (List.flatMap_congr fun entry inside => ?_))
    -- The subject of the first link is given, and every other is numbered from the start.
    have above := List.le_snd_of_mem_zipIdx inside
    have shifted : start + 1 + links.length = start + (links.length + 1) := by omega
    have beyond : entry.2 ≠ start := by omega
    dsimp only
    rw [shifted, if_neg beyond]
    by_cases second : entry.2 = start + 1
    · rw [if_pos second, second]
      rfl
    · rw [if_neg second]

theorem size_nodes (chain : Chain links property) :
    size (nodes property) = 4 * links.length - 3 := by
  induction chain with
  | last link place => rfl
  | @cited links inner link place later ih =>
    have some := later.length_pos
    have reified : ((plain link.1 link.2 place).citedBy [inner]).needsReification = true := rfl
    rw [nodes_cited, size_cons, if_pos reified, ih, List.length_cons]
    omega

theorem attachEach_eq (most : Nat) (span : Span) (subject : Ident) (property : Property) :
    attachEach most span [subject] [property] = attach most span subject property >>= fun _ =>
    pure () := rfl

variable {most : Nat}

theorem attachEach_of_short (chain : Chain links property)
    (short : links.length - 1 ≤ most) (span : Span) (subject : Ident) :
    ∃ after, attachEach most span [subject] [property] Graph.empty = (.ok (), after) ∧
      after.triples = triplesOf (blocks 0 0 span subject property) := by
  have shallow : ∀ site ∈ sites Graph.empty.nextStatement 0 span subject property,
      site.depth ≤ most := by
    intro site inside
    have depth := List.mem_map_of_mem (f := (·.depth)) inside
    rw [chain.map_depth_sites, List.mem_range'_1] at depth
    omega
  rcases attach_of_shallow Graph.distinct_empty chain.unlabelled shallow
    with ⟨after, attached, _, appended⟩
  rw [attachEach_eq, Attempt.bind_ok attached]
  exact ⟨after, rfl, appended.triples⟩

theorem attachEach_of_long (chain : Chain links property)
    (long : most < links.length - 1) (span : Span) (subject : Ident) :
    (attachEach most span [subject] [property] Graph.empty).1 =
      .error (.limit (.citation most)) := by
  have last : links.length - 1 ∈ (sites Graph.empty.nextStatement 0 span subject property).map
      (·.depth) := by
    rw [chain.map_depth_sites, List.mem_range'_1]
    omega
  rcases List.mem_map.1 last with ⟨site, inside, depth⟩
  rw [attachEach_eq]
  exact Attempt.fst_bind_of_error (attach_of_deep chain.unlabelled inside (depth ▸ long))

end Chain

end Property

namespace Notation

structure Link where
  predicate : PlainName
  object : PlainName

namespace Link

variable (link : Link)

def source : String := s!"{link.predicate.source}:{link.object.source}"

def idents : Ident × Ident := (link.predicate.ident, link.object.ident)

def property : Tree .property := .colon (.ofAtom link.predicate.atom) tight link.object.atom

theorem property_describes (citation : Nat) :
    link.property.Describes citation fun properties =>
      ∃ place, properties = [Property.plain link.idents.1 link.idents.2 place] := by
  have predicate : (Tree.ofAtom link.predicate.atom).Names citation [link.predicate.ident] :=
    link.predicate.atom_names citation
  exact Tree.colon_describes predicate (link.object.atom_names citation) tight

theorem text_property : link.property.text = link.source.toList := by
  simp [property, source, PlainName.source, PlainName.atom, PlainName.text, tight, Gap.around,
    Blanks.none, toString]

def chain : Link → List Link → Tree .description
  | link, [] => .ofLabelled (.ofProperty link.property)
  | link, next :: others => .arrow (.ofProperty link.property) spaced (next.chain others)

def sourceOf (links : List Link) : String :=
  String.join (links.map fun link => s!" => {link.source}")

theorem toList_sourceOf_cons (others : List Link) :
    (sourceOf (link :: others)).toList =
      " => ".toList ++ (link.source.toList ++ (sourceOf others).toList) := by
  simp [sourceOf, toString]

theorem toList_sourceOf (others : List Link) :
    (sourceOf (link :: others)).toList = " => ".toList ++ (link.chain others).text := by
  induction others generalizing link with
  | nil =>
    rw [toList_sourceOf_cons, chain, Tree.text, Tree.text, text_property]
    simp [sourceOf]
  | cons next others ih =>
    rw [toList_sourceOf_cons, ih, chain, Tree.text, Tree.text, text_property]
    simp [spaced, Gap.around, singleSpace]

theorem depth_chain (others : List Link) : (link.chain others).depth = others.length + 2 := by
  induction others generalizing link with
  | nil => rfl
  | cons next others ih =>
    have depth : (link.chain (next :: others)).depth =
        max link.property.depth ((next.chain others).depth + 1) := rfl
    have one : link.property.depth = 2 := rfl
    rw [depth, ih, one, List.length_cons]
    omega

theorem chain_describes (citation : Nat) (others : List Link) :
    (link.chain others).Describes citation fun properties =>
      ∃ property, Property.Chain ((link :: others).map idents) property ∧
          properties = [property] := by
  induction others generalizing link with
  | nil =>
    refine Tree.Describes.mono (link.property_describes citation) ?_
    rintro _ ⟨place, rfl⟩
    exact ⟨_, .last link.idents place, rfl⟩
  | cons next others ih =>
    refine Tree.Describes.mono
      (Tree.arrow_describes (link.property_describes citation) (ih next) spaced) ?_
    rintro _ ⟨_, _, ⟨place, rfl⟩, ⟨inner, later, rfl⟩, rfl⟩
    exact ⟨_, .cited link.idents place later, rfl⟩

end Link

def PlainName.grouped (name : PlainName) : Nat → Tree .sequence
  | 0 => .single name.statement
  | count + 1 =>
      .single
          (.ofDescription (.ofLabelled
            (.ofProperty (.ofAtom (.group .none (name.grouped count) .none)))))

namespace PlainName

variable (name : PlainName)

theorem text_grouped (count : Nat) :
    (name.grouped count).text = List.replicate count '(' ++
      (name.text ++ List.replicate count ')') := by
  induction count with
  | zero => exact (List.append_nil _).symm
  | succ count ih =>
    have around : (name.grouped (count + 1)).text = '(' :: ((name.grouped count).text ++ [')']) :=
      rfl
    rw [around, ih, List.replicate_succ, List.replicate_succ', List.cons_append, List.append_assoc,
      List.append_assoc]

theorem depth_grouped (count : Nat) : (name.grouped count).depth = count + 1 := by
  induction count with
  | zero => rfl
  | succ count ih => exact congrArg (· + 1) ih

theorem grouped_names (citation count : Nat) :
    (name.grouped count).Names citation [name.ident] := by
  induction count with
  | zero => exact name.atom_names citation
  | succ count ih => exact fun mark builder => ih (mark.past ['(']) builder

theorem isOk_grouped (count : Nat) (limits : Limits) :
    (Compilation.ofSource (String.ofList (List.replicate count '(') ++ name.source ++
      String.ofList (List.replicate count ')')) limits).isOk = true ↔
      count + 1 ≤ limits.nesting := by
  let program : Program := ⟨none, name.grouped count, none⟩
  have whole : String.ofList (List.replicate count '(') ++ name.source ++
      String.ofList (List.replicate count ')') =
      program.source := by
    apply String.toList_injective
    simp [program, Program.source, Program.text, Program.pauseText, text_grouped, PlainName.source]
  have depth : program.depth = count + 1 := name.depth_grouped count
  rcases name.grouped_names limits.citation count Token.Mark.start Builder.empty with ⟨place, named⟩
  have means : program.eval limits.citation Builder.empty =
      (.ok [.entities [name.ident] place], Builder.empty) :=
    Attempt.bind_ok named
  rw [whole, program.ofSource_eq_ite means, depth]
  split
  · next fits => exact iff_of_true rfl fits
  · next deep => exact iff_of_false Bool.false_ne_true deep

end PlainName

end Notation

namespace Compilation

open Notation

/-- A chain is stopped by the limit of nesting if it is too long for this, and otherwise by the
limit of citations if it is too long for that. If it is not, then each of its links makes a
statement about the one before, and all but the last are reified. Groups are stopped by the limit of
nesting only. -/
theorem chain_meets_limits (subject : PlainName) (first : Link) (others : List Link)
    (limits : Limits) :
    let links := first :: others
    let source := subject.source ++ String.join (links.map fun link => s!" => {link.source}")
    (limits.nesting < links.length + 2 →
          ofSource source limits = .error (.limit (.nesting limits.nesting))) ∧
    (links.length + 2 ≤ limits.nesting → limits.citation < links.length - 1 →
      ofSource source limits = .error (.limit (.citation limits.citation))) ∧
    (links.length + 2 ≤ limits.nesting → links.length - 1 ≤ limits.citation →
      ∃ compilation, ofSource source limits = .ok compilation ∧
        compilation.graph.triples.length = 4 * links.length - 3 ∧
        compilation.graph.triples = links.zipIdx.flatMap fun (link, number) =>
          let main : Triple :=
            ⟨.statement number, if number = 0 then subject.ident else .statement (number - 1),
            link.predicate.ident, link.object.ident⟩
          if number + 1 = links.length then [main]
            else main :: Role.all.map (Graph.partOf main number)) ∧
    ∀ count : Nat, (ofSource (String.ofList (List.replicate count '(') ++ subject.source ++
      String.ofList (List.replicate count ')')) limits).isOk = true ↔
      count + 1 ≤ limits.nesting := by
  intro links source
  have whole : source = String.ofList (subject.atom.describedBy (first.chain others)).text := by
    apply String.toList_injective
    rw [String.toList_append, ← Link.sourceOf, Link.toList_sourceOf, Tree.text_describedBy,
      PlainName.source, String.toList_ofList, String.toList_ofList]
    exact (String.toList_ofList).symm
  have depth : (subject.atom.describedBy (first.chain others)).depth = links.length + 2 := by
    rw [Tree.depth_describedBy, first.depth_chain]
    exact Nat.max_eq_right (Nat.succ_pos _)
  have named := subject.atom_names limits.citation
  have described := first.chain_describes limits.citation others
  have length : (links.map Link.idents).length = links.length := List.length_map _
  rw [whole]
  refine ⟨fun deep => ?_, fun fits long => ?_, fun fits short => ?_, fun count => ?_⟩
  · exact ofSource_arrow_of_deep (depth ▸ deep) named described
  · rcases ofSource_arrow (depth ▸ fits) named described
      with ⟨_, span, place, ⟨property, chain, rfl⟩, compiled⟩
    rcases attached : Property.attachEach limits.citation span [subject.ident] [property]
      Graph.empty with
      ⟨answer, after⟩
    have stopped := chain.attachEach_of_long (length ▸ long) span subject.ident
    rw [attached] at stopped
    obtain rfl : answer = _ := stopped
    exact compiled _ _ attached
  · rcases ofSource_arrow (depth ▸ fits) named described
      with ⟨_, span, place, ⟨property, chain, rfl⟩, compiled⟩
    rcases chain.attachEach_of_short (length ▸ short) span subject.ident
      with ⟨after, attached, made⟩
    have triples : after.triples = _ := made.trans (chain.triplesOf_blocks 0 span subject.ident)
    refine ⟨_, compiled _ _ attached, ?_, ?_⟩
    · calc after.triples.length
          = Property.size property.nodes := by rw [made, Property.length_blocks]
        _ = 4 * links.length - 3 := by rw [chain.size_nodes, length]
    · rw [length, List.zipIdx_map, List.flatMap_map, Nat.zero_add] at triples
      exact triples
  · exact subject.isOk_grouped count limits

end Compilation

end FactGraph
