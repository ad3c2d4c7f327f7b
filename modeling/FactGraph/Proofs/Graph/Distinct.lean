import FactGraph.Proofs.Graph.Emission

namespace FactGraph

inductive Ident.IsNamed : Ident → Prop
  | user (text : String) : IsNamed (.user text)
  | unique (text : String) : IsNamed (.unique text)

def Ident.statementNumber? : Ident → Option Nat
  | statement number => some number
  | _ => none

@[simp] theorem Ident.statementNumber?_part (group : Nat) (role : Role) :
    (part group role).statementNumber? = none := rfl

theorem Ident.IsNamed.statementNumber? {ident : Ident} (named : ident.IsNamed) :
    ident.statementNumber? = none := by
  cases named <;> rfl

def Graph.Free (graph : Graph) (property : Property) : Prop :=
  ∀ label ∈ property.label, label.IsNamed ∧ graph.hasStatement label = false

theorem Graph.Free.named {graph : Graph} {property : Property} (free : graph.Free property) :
    ∀ label ∈ property.label, label.IsNamed := by
  intro label labelled
  exact (free label labelled).1

namespace Block

theorem mem_idents {block : Block} {ident : Ident} :
    ident ∈ block.triples.map (·.ident) ↔
      ident = block.main.ident ∨ ∃ group ∈ block.group, ∃ role, ident = .part group role := by
  simp only [List.mem_map, mem_triples]
  constructor
  · intro made
    rcases made with ⟨triple, rfl | ⟨group, grouped, role, rfl⟩, rfl⟩
    · exact .inl rfl
    · exact .inr ⟨group, grouped, role, rfl⟩
  · intro known
    rcases known with rfl | ⟨group, grouped, role, rfl⟩
    · exact ⟨block.main, .inl rfl, rfl⟩
    · exact ⟨Graph.partOf block.main group role, .inr ⟨group, grouped, role, rfl⟩, rfl⟩

theorem nodup_idents {block : Block} (apart : ∀ group role, block.main.ident ≠ .part group role) :
    (block.triples.map (·.ident)).Nodup := by
  rcases block with ⟨main, group | group⟩
  · simp [triples]
  · have parts : ((Role.all.map (Graph.partOf main group)).map (·.ident)).Nodup := by
      simp [Role.all, Graph.partOf]
    have outside : main.ident ∉ (Role.all.map (Graph.partOf main group)).map (·.ident) := by
      intro inside
      simp only [List.map_map, List.mem_map, Function.comp_apply] at inside
      rcases inside with ⟨role, _, same⟩
      exact apart group role same.symm
    rw [triples, parts_reified]
    exact List.nodup_cons.2 ⟨outside, parts⟩

end Block

namespace Graph

/-- The identifiers of the statements are different, the places are those of the statements, and
numbers from the counters on are unused. -/
structure Distinct (graph : Graph) : Prop where
  idents : (graph.triples.map (·.ident)).Nodup
  placed (ident : Ident) : graph.hasStatement ident = true ↔ ident ∈ graph.triples.map (·.ident)
  statements (number : Nat) :
      graph.hasStatement (.statement number) = true → number < graph.nextStatement
  groups (group : Nat) (role : Role) :
      graph.hasStatement (.part group role) = true → group < graph.nextGroup

theorem distinct_empty : empty.Distinct where
  idents := List.nodup_nil
  placed _ := by simp [empty, hasStatement, Provenance.find?]
  statements _ := by simp [empty, hasStatement, Provenance.find?]
  groups _ _ := by simp [empty, hasStatement, Provenance.find?]

variable {graph : Graph} {property : Property} {span : Span} {subject ident : Ident}

theorem triples_emit : (graph.emit span subject property).triples =
    graph.triples ++ (property.block graph.nextStatement graph.nextGroup subject).triples := by
  rw [emit, pushAll_eq]

theorem hasStatement_emit : (graph.emit span subject property).hasStatement ident = true ↔
    ident ∈ (property.block graph.nextStatement graph.nextGroup subject).triples.map (·.ident) ∨
      graph.hasStatement ident = true :=
  hasStatement_pushAll

theorem hasStatement_emit_of_label (own : property.label = some ident) :
    (graph.emit span subject property).hasStatement ident = true := by
  have main : (property.block graph.nextStatement graph.nextGroup subject).main.ident = ident := by
    simp [Property.block, own]
  exact hasStatement_emit.2 (.inl (main ▸ List.mem_map_of_mem (Block.main_mem _)))

theorem nextStatement_emit : (graph.emit span subject property).nextStatement =
    graph.nextStatement + property.statementsDrawn := by
  rw [emit, pushAll_eq]

theorem nextGroup_emit : (graph.emit span subject property).nextGroup =
    graph.nextGroup + property.groupsDrawn := by
  rw [emit, pushAll_eq]

end Graph

namespace Property

variable {graph : Graph} {property : Property} (statement group : Nat) (subject : Ident)

theorem ident_block_cases (labels : ∀ label ∈ property.label, label.IsNamed) :
    (property.block statement group subject).main.ident.IsNamed ∨
      (property.block statement group subject).main.ident = .statement statement ∧
      property.label = none := by
  unfold block
  cases labelled : property.label with
  | none => exact .inr ⟨rfl, rfl⟩
  | some label => exact .inl (labels label labelled)

theorem ident_block_ne_part (labels : ∀ label ∈ property.label, label.IsNamed) (other : Nat)
    (role : Role) :
    (property.block statement group subject).main.ident ≠ .part other role := by
  intro same
  rcases ident_block_cases statement group subject labels with named | ⟨numbered, _⟩
  · rw [same] at named
    contradiction
  · rw [same] at numbered
    contradiction

theorem statementNumber?_block (labels : ∀ label ∈ property.label, label.IsNamed) :
    (property.block statement group subject).main.ident.statementNumber?.toList =
      List.range' statement property.statementsDrawn := by
  unfold block statementsDrawn
  cases labelled : property.label with
  | none => rfl
  | some label =>
    have named : label.IsNamed := labels label labelled
    simp [named.statementNumber?]

theorem group_block (property : Property) : (property.block statement group subject).group.toList =
    List.range' group property.groupsDrawn := by
  unfold block groupsDrawn
  cases property.needsReification <;> rfl

theorem free_of_obstacle?_eq_none {most depth : Nat} {span : Span}
    (labels : ∀ label ∈ property.label, label.IsNamed)
    (clear : property.obstacle? most depth span graph = none) : graph.Free property := by
  intro label labelled
  constructor
  · exact labels label labelled
  · simp only [obstacle?, Option.mem_def.1 labelled] at clear
    split at clear
    · contradiction
    · simpa using clear

theorem group_block_eq_some {other : Nat}
    (grouped : other ∈ (property.block statement group subject).group) :
    other = group ∧ property.needsReification = true := by
  unfold block at grouped
  split at grouped
  · next reified => exact ⟨(Option.some.inj grouped).symm, reified⟩
  · contradiction

end Property

namespace Graph.Distinct

variable {graph : Graph} {property : Property} {span : Span} {subject ident : Ident}

/-- What is made for a free property is new to the graph. -/
theorem fresh (distinct : graph.Distinct) (free : graph.Free property)
    (made : ident ∈ (property.block graph.nextStatement graph.nextGroup subject).triples.map
      (·.ident)) :
    graph.hasStatement ident = false := by
  apply Bool.eq_false_iff.2
  intro known
  rcases Block.mem_idents.1 made with rfl | ⟨group, grouped, role, rfl⟩
  · cases labelled : property.label with
    | none =>
      simp only [Property.block, labelled, Option.getD_none] at known
      have bounded := distinct.statements graph.nextStatement known
      omega
    | some label =>
      simp only [Property.block, labelled, Option.getD_some] at known
      rw [(free label labelled).2] at known
      contradiction
  · have next := (Property.group_block_eq_some _ _ subject grouped).1
    have bounded := distinct.groups group role known
    omega

theorem emit (span : Span) (subject : Ident) (distinct : graph.Distinct)
    (free : graph.Free property) :
    (graph.emit span subject property).Distinct where
  idents := by
    rw [triples_emit, List.map_append]
    apply List.nodup_append.2
    refine ⟨distinct.idents, ?_, ?_⟩
    · apply Block.nodup_idents
      exact Property.ident_block_ne_part graph.nextStatement graph.nextGroup subject free.named
    · intro known old other new same
      subst same
      have unknown := distinct.fresh free new
      rw [(distinct.placed known).2 old] at unknown
      contradiction
  placed ident := by
    rw [hasStatement_emit, triples_emit, List.map_append, List.mem_append, distinct.placed, or_comm]
  statements number known := by
    rw [nextStatement_emit]
    rcases hasStatement_emit.1 known with made | old
    · rcases Block.mem_idents.1 made with same | ⟨group, _, role, same⟩
      · rcases Property.ident_block_cases graph.nextStatement graph.nextGroup subject
          free.named with
          named | ⟨numbered, unlabelled⟩
        · rw [← same] at named
          contradiction
        · have next : number = graph.nextStatement := Ident.statement.inj (same.trans numbered)
          have drawn : property.statementsDrawn = 1 := by
            simp [Property.statementsDrawn, unlabelled]
          omega
      · contradiction
    · have bounded := distinct.statements number old
      omega
  groups group role known := by
    rw [nextGroup_emit]
    rcases hasStatement_emit.1 known with made | old
    · rcases Block.mem_idents.1 made with same | ⟨other, grouped, _, same⟩
      · exact absurd same.symm (Property.ident_block_ne_part _ _ subject free.named group role)
      · have here : group = other := (Ident.part.inj same).1
        rcases Property.group_block_eq_some _ _ subject grouped with ⟨next, reified⟩
        have drawn : property.groupsDrawn = 1 := by simp [Property.groupsDrawn, reified]
        omega
    · have bounded := distinct.groups group role old
      omega

end Graph.Distinct

end FactGraph
