import FactGraph.Proofs.Corresponding
import FactGraph.Proofs.Graph.Construction
import FactGraph.Proofs.Graph.Refusal

/-! The same statements made behind others, or under other names. Attachment looks at identifiers
only to see whether a label is taken, so on top of another graph it makes the images of what it
makes on an empty one, up to a label that is the name of a statement below. -/

namespace FactGraph

def Triple.mapped (image : Ident → Ident) (triple : Triple) : Triple :=
  ⟨image triple.ident, image triple.subject, image triple.predicate, image triple.object⟩

def Block.mapped (image : Ident → Ident) (groups : Nat) (block : Block) : Block :=
  ⟨block.main.mapped image, block.group.map (groups + ·)⟩

/-- Different identifiers have different images. What has been numbered is numbered from these
numbers on. -/
structure Ident.Image (statements groups : Nat) (image : Ident → Ident) : Prop where
  injective : Function.Injective image
  statement (number : Nat) : image (.statement number) = .statement (statements + number)
  part (group : Nat) (role : Role) : image (.part group role) = .part (groups + group) role
  reification (role : Role) : image (.reification role) = .reification role

def Ident.Stands (image : Ident → Ident) (ident other : Ident) : Prop := other = image ident

variable {statements groups : Nat} {image : Ident → Ident}

theorem Ident.rel_stands_iff {label label' : Option Ident} :
    Option.Rel (Stands image) label label' ↔ label' = label.map image := by
  constructor
  · intro related
    cases related with
    | none => rfl
    | some same => exact congrArg some same
  · rintro rfl
    cases label with
    | none => exact .none
    | some label => exact .some rfl

theorem Block.triples_mapped (images : Ident.Image statements groups image) (block : Block) :
    (block.mapped image groups).triples = block.triples.map (Triple.mapped image) := by
  rcases block with ⟨main, group⟩
  have part (group : Nat) (role : Role) : Graph.partOf (main.mapped image) (groups + group) role =
      (Graph.partOf main group role).mapped image := by
    cases role <;> simp [Graph.partOf, Triple.mapped, Triple.component, images.part,
      images.reification]
  cases group with
  | none => simp [Block.mapped, Block.triples]
  | some group => simp [Block.mapped, Block.triples, Role.all, part]

structure Site.Stands (image : Ident → Ident) (site other : Site) : Prop where
  depth : other.depth = site.depth
  subject : other.subject = image site.subject
  property : site.property.Corresponds (Ident.Stands image) other.property

namespace Property

variable {property property' : Property} {properties properties' : List Property}

section

variable (related : property.Corresponds (Ident.Stands image) property')

include related

theorem label_of_stands : property'.label = property.label.map image :=
  Ident.rel_stands_iff.1 (corresponds_iff.1 related).2.2.2

theorem needsReification_of_stands : property'.needsReification = property.needsReification := by
  have citations := (corresponds_iff.1 related).2.2.1.length_eq
  have empty : property'.citations.isEmpty = property.citations.isEmpty := by
    rw [Bool.eq_iff_iff, List.isEmpty_iff_length_eq_zero,
      List.isEmpty_iff_length_eq_zero, citations]
  rw [needsReification, needsReification, label_of_stands related, empty, Option.isSome_map]

theorem statementsDrawn_of_stands : property'.statementsDrawn = property.statementsDrawn := by
  rw [statementsDrawn, statementsDrawn, label_of_stands related, Option.isNone_map]

theorem groupsDrawn_of_stands : property'.groupsDrawn = property.groupsDrawn := by
  rw [groupsDrawn, groupsDrawn, needsReification_of_stands related]

theorem block_of_stands (images : Ident.Image statements groups image) (statement group : Nat)
    (subject : Ident) :
    property'.block (statements + statement) (groups + group) (image subject) =
      (property.block statement group subject).mapped image groups := by
  rcases corresponds_iff.1 related with ⟨predicate, object, -, -⟩
  rw [Ident.Stands] at predicate object
  have label : (property'.label.getD (.statement (statements + statement))) =
      image (property.label.getD (.statement statement)) := by
    rw [label_of_stands related, ← images.statement, Option.getD_map]
  simp only [block, Block.mapped, Triple.mapped, needsReification_of_stands related, label,
    predicate, object]
  split <;> rfl

end

mutual

theorem statementCount_of_stands : ∀ property property' : Property,
    property.Corresponds (Ident.Stands image) property' →
      statementCount (nodes property') = statementCount (nodes property)
  | ⟨predicate, object, citations, label, place⟩,
    ⟨predicate', object', citations', label', place'⟩, related => by
    have own := statementsDrawn_of_stands related
    rw [Corresponds] at related
    rw [nodes, nodes, statementCount_cons, statementCount_cons, own,
      statementCountAll_of_stands citations citations' related.2.2.1]

theorem statementCountAll_of_stands : ∀ properties properties' : List Property,
    CorrespondAll (Ident.Stands image) properties properties' →
      statementCount (nodesAll properties') = statementCount (nodesAll properties)
  | [], [], _ => rfl
  | property :: rest, property' :: rest', related => by
    rw [CorrespondAll] at related
    rw [nodesAll, nodesAll, statementCount_append, statementCount_append,
      statementCount_of_stands property property' related.1, statementCountAll_of_stands rest
        rest' related.2]

end

mutual

theorem sites_of_stands (images : Ident.Image statements groups image) :
    ∀ (property property' : Property)
      (statement depth : Nat) (span span' : Span) (subject : Ident),
    property.Corresponds (Ident.Stands image) property' →
      List.Forall₂ (Site.Stands image) (sites statement depth span subject property)
        (sites (statements + statement) depth span' (image subject) property')
  | ⟨predicate, object, citations, label, place⟩, ⟨predicate', object', citations', label', place'⟩,
    statement, depth, span, span', subject, related => by
    have own := statementsDrawn_of_stands related
    have labels := label_of_stands related
    have inner := related
    rw [Corresponds] at inner
    have cited : label'.getD (.statement (statements + statement)) =
        image (label.getD (.statement statement)) := by
      rw [show label' = label.map image from labels, ← images.statement, Option.getD_map]
    rw [sites, sites, cited, own, Nat.add_assoc]
    exact .cons ⟨rfl, rfl, related⟩
      (sitesAll_of_stands images citations citations' _ _ _ inner.2.2.1)

theorem sitesAll_of_stands (images : Ident.Image statements groups image) :
    ∀ (properties properties' : List Property)
      (statement depth : Nat) (subject : Ident), CorrespondAll (Ident.Stands image)
    properties properties' →
      List.Forall₂ (Site.Stands image) (sitesAll statement depth subject properties)
        (sitesAll (statements + statement) depth (image subject) properties')
  | [], [], _, _, _, _ => .nil
  | property :: rest, property' :: rest', statement, depth, subject, related => by
    rw [CorrespondAll] at related
    rw [sitesAll, sitesAll, statementCount_of_stands property property' related.1, Nat.add_assoc]
    exact List.rel_append (sites_of_stands images property property' statement depth
      _ _ subject related.1) (sitesAll_of_stands images rest rest' _ _ _ related.2)

end

end Property

namespace Graph

/-- The whole has the images of the statements of the graph behind those of the base, and knows
both. What has been drawn is what has been drawn for both. -/
structure Atop (image : Ident → Ident) (base graph whole : Graph) : Prop where
  triples : whole.triples = base.triples ++ graph.triples.map (Triple.mapped image)
  statements : whole.nextStatement = base.nextStatement + graph.nextStatement
  groups : whole.nextGroup = base.nextGroup + graph.nextGroup
  entities : whole.nextEntity = base.nextEntity + graph.nextEntity
  minted : whole.minted = base.minted ++ graph.minted
  known (ident : Ident) : whole.hasStatement (image ident) = true ↔
    graph.hasStatement ident = true ∨ base.hasStatement (image ident) = true

structure Adds (graph after : Graph) : Prop where
  triples : graph.triples <+: after.triples
  known (ident : Ident) : graph.hasStatement ident = true → after.hasStatement ident = true

namespace Adds

variable {graph middle after : Graph}

theorem refl (graph : Graph) : graph.Adds graph := ⟨List.prefix_refl _, fun _ => id⟩

theorem trans (first : graph.Adds middle) (second : middle.Adds after) : graph.Adds after :=
  ⟨first.triples.trans second.triples,
    fun ident known => second.known ident (first.known ident known)⟩

theorem emit (graph : Graph) (span : Span) (subject : Ident) (property : Property) :
    graph.Adds (graph.emit span subject property) where
  triples := triples_emit ▸ List.prefix_append _ _
  known _ known := hasStatement_emit.2 (.inr known)

theorem allocate (graph : Graph) (name : Option String) : graph.Adds (graph.allocate name).2 := by
  constructor
  · exact ⟨[], by simp⟩
  · intro ident known
    rwa [hasStatement_allocate]

theorem walk (most : Nat) (sites : List Site) (graph : Graph) :
    graph.Adds (Property.walk most sites graph).2 := by
  induction sites generalizing graph with
  | nil => exact .refl graph
  | cons site sites ih =>
    cases met : site.property.obstacle? most site.depth site.span graph with
    | some fault =>
      rw [Property.walk_of_obstacle met]
      exact .refl graph
    | none =>
      rw [Property.walk_of_clear met]
      exact (emit graph site.span site.subject site.property).trans (ih _)

theorem attachPairs (most : Nat) (span : Span) (pairs : List (Ident × Property)) (graph : Graph) :
    graph.Adds (Property.attachPairs most span pairs graph).2 := by
  induction pairs generalizing graph with
  | nil => exact .refl graph
  | cons pair pairs ih =>
    have first : graph.Adds (Property.attach most span pair.1 pair.2 graph).2 := by
      rw [Property.attach, Property.attachAt_eq_walk, Attempt.snd_bind_pure]
      exact walk most _ graph
    rw [Property.attachPairs, Attempt.bind_apply]
    split
    · next run =>
      rw [run] at first
      exact first.trans (ih _)
    · next run => rwa [run] at first

end Adds

variable {base graph whole : Graph}

theorem Atop.emit (atop : Atop image base graph whole)
    (images : Ident.Image base.nextStatement base.nextGroup image) {property property' : Property}
    (related : property.Corresponds (Ident.Stands image) property') (span span' : Span)
    (subject : Ident) :
    Atop image base (graph.emit span subject property)
      (whole.emit span' (image subject) property') := by
  have block : property'.block whole.nextStatement whole.nextGroup (image subject) =
      (property.block graph.nextStatement graph.nextGroup subject).mapped image base.nextGroup := by
    rw [atop.statements, atop.groups, Property.block_of_stands related images]
  constructor
  · rw [triples_emit, triples_emit, block, Block.triples_mapped images, atop.triples,
      List.map_append, List.append_assoc]
  · rw [nextStatement_emit, nextStatement_emit, Property.statementsDrawn_of_stands related,
      atop.statements, Nat.add_assoc]
  · rw [nextGroup_emit, nextGroup_emit, Property.groupsDrawn_of_stands related, atop.groups,
      Nat.add_assoc]
  · rw [Graph.emit, Graph.emit, pushAll_eq, pushAll_eq]
    exact atop.entities
  · rw [Graph.emit, Graph.emit, pushAll_eq, pushAll_eq]
    exact atop.minted
  · intro ident
    have made :
        image ident ∈ ((property.block graph.nextStatement graph.nextGroup subject).triples.map
          (Triple.mapped image)).map (·.ident) ↔
        ident ∈ (property.block graph.nextStatement graph.nextGroup subject).triples.map
          (·.ident) := by
      rw [List.map_map]
      exact (congrArg (image ident ∈ ·) (List.map_map (g := image)).symm).to_iff.trans
        (List.mem_map_of_injective images.injective)
    rw [hasStatement_emit, hasStatement_emit, block, Block.triples_mapped images, made,
      atop.known, or_assoc]

/-- How a step has ended on top of the base, compared with the same step on its own: in the same
way, or refused for a label that is known to the base. -/
inductive Lifted (image : Ident → Ident) (base : Graph) {α β : Type} :
    Except Fault α × Graph → Except Fault β × Graph → Prop
  | answered {value : α} {other : β} {graph whole : Graph} (atop : Atop image base graph whole) :
      Lifted image base (.ok value, graph) (.ok other, whole)
  | failed {fault other : Fault} {graph whole : Graph} (atop : Atop image base graph whole)
      (faults : ∀ quote : String → String, (∀ first second, quote first = quote second) →
        fault.quoting quote = other.quoting quote) :
      Lifted image base (.error fault, graph) (.error other, whole)
  | taken {ending : Except Fault α × Graph} {whole : Graph} {label : Ident} {text : String}
      {place : Position} (made : ending.2.hasStatement label = true)
      (known : base.hasStatement (image label) = true) :
      Lifted image base ending (.error (.statementTaken text place), whole)

theorem Lifted.bind {α β γ δ : Type} {step : Attempt Graph α} {step' : Attempt Graph β}
    {next : α → Attempt Graph γ} {next' : β → Attempt Graph δ}
    (first : Lifted image base (step graph) (step' whole))
    (second : ∀ value value' graph whole, Atop image base graph whole →
      Lifted image base (next value graph) (next' value' whole))
    (adds : ∀ value (graph : Graph), graph.Adds (next value graph).2) :
    Lifted image base ((step >>= next) graph) ((step' >>= next') whole) := by
  rw [Attempt.bind_apply, Attempt.bind_apply]
  revert first
  generalize step graph = outcome
  generalize step' whole = outcome'
  intro first
  cases first with
  | answered atop => exact second _ _ _ _ atop
  | failed atop faults => exact .failed atop faults
  | @taken _ _ label _ _ made known =>
    rcases outcome with ⟨fault | value, reached⟩
    · exact .taken made known
    · exact .taken ((adds value reached).known label made) known

end Graph

namespace Property

open FactGraph.Graph

variable {base graph whole : Graph} {most : Nat}

theorem walk_lifted (images : Ident.Image base.nextStatement base.nextGroup image)
    {sites sites' : List Site} (related : List.Forall₂ (Site.Stands image) sites sites')
    (atop : Atop image base graph whole) :
    Lifted image base (walk most sites graph) (walk most sites' whole) := by
  induction related generalizing graph whole with
  | nil => exact .answered atop
  | @cons site site' rest rest' first _ ih =>
    have labels := label_of_stands first.property
    cases met : site.property.obstacle? most site.depth site.span graph with
    | some fault =>
      rw [walk_of_obstacle met]
      cases Site.obstacle?_eq_some_iff.1 met with
      | deep below =>
        have also : site'.property.obstacle? most site'.depth site'.span whole =
            some (.limit (.citation most)) :=
          if_pos (first.depth ▸ below)
        rw [walk_of_obstacle also]
        exact .failed atop fun _ _ => rfl
      | @taken label shallow labelled known =>
        rw [labelled] at labels
        have still : whole.hasStatement (image label) = true := (atop.known label).2 (.inl known)
        have also := Site.obstacle?_eq_some_iff.2 (.taken (first.depth ▸ shallow) labels still)
        rw [walk_of_obstacle also]
        refine .failed atop fun quote silent => ?_
        simp only [Fault.quoting, silent label.text (image label).text]
    | none =>
      rcases Site.obstacle?_eq_none_iff.1 met with ⟨shallow, free⟩
      rw [walk_of_clear met]
      cases met' : site'.property.obstacle? most site'.depth site'.span whole with
      | some fault =>
        rw [walk_of_obstacle met']
        cases Site.obstacle?_eq_some_iff.1 met' with
        | deep below => exact absurd (first.depth ▸ shallow) (Nat.not_le.2 below)
        | @taken label' _ labelled known =>
          rw [labelled] at labels
          rcases Option.map_eq_some_iff.1 labels.symm with ⟨label, own, rfl⟩
          -- The label is free on its own, so it is the base that knows it.
          have made : (graph.emit site.span site.subject site.property).hasStatement label = true :=
            hasStatement_emit_of_label own
          have new := free label own
          have below := ((atop.known label).1 known).resolve_left (by simp [new])
          exact .taken ((Adds.walk most rest _).known label made) below
      | none =>
        rw [walk_of_clear met', first.subject]
        exact ih (atop.emit images first.property _ _ _)

theorem attach_lifted (images : Ident.Image base.nextStatement base.nextGroup image)
    {property property' : Property} (related : property.Corresponds (Ident.Stands image) property')
    (span span' : Span) (subject : Ident) (atop : Atop image base graph whole) :
    Lifted image base (attach most span subject property graph)
      (attach most span' (image subject) property' whole) := by
  rw [attach, attach, attachAt_eq_walk, attachAt_eq_walk, atop.statements]
  have sites :=
    sites_of_stands images property property' graph.nextStatement 0 span span' subject related
  refine (walk_lifted images sites atop).bind ?_ ?_
  · intro _ _ _ _ reached
    exact .answered reached
  · intro _ graph
    exact .refl graph

theorem attachPairs_lifted (images : Ident.Image base.nextStatement base.nextGroup image)
    (span span' : Span) {pairs pairs' : List (Ident × Property)}
    (related : List.Forall₂ (fun pair other => other.1 = image pair.1 ∧
      pair.2.Corresponds (Ident.Stands image) other.2) pairs pairs')
      (atop : Atop image base graph whole) :
    Lifted image base (attachPairs most span pairs graph)
      (attachPairs most span' pairs' whole) := by
  induction related generalizing graph whole with
  | nil => exact .answered atop
  | @cons pair pair' pairs pairs' first _ ih =>
    have attached : Lifted image base (attach most span pair.1 pair.2 graph)
        (attach most span' (image pair.1) pair'.2 whole) :=
      attach_lifted images first.2 span span' pair.1 atop
    rw [← first.1] at attached
    refine attached.bind ?_ ?_
    · intro _ _ _ _ reached
      exact ih reached
    · intro _ graph
      exact Adds.attachPairs most span pairs graph

/-- Every property for every subject, on top of another graph. -/
theorem attachEach_lifted (images : Ident.Image base.nextStatement base.nextGroup image)
    (span span' : Span) {idents idents' : List Ident} {properties properties' : List Property}
    (subjects : List.Forall₂ (Ident.Stands image) idents idents')
    (related : List.Forall₂ (Corresponds (Ident.Stands image)) properties properties')
    (atop : Atop image base graph whole) :
    Lifted image base (attachEach most span idents properties graph)
      (attachEach most span' idents' properties' whole) := by
  apply attachPairs_lifted images span span' (List.rel_flatMap subjects ?_) atop
  intro subject subject' same
  refine List.rel_map ?_ related
  intro property property' properties
  exact ⟨same, properties⟩

end Property

end FactGraph
