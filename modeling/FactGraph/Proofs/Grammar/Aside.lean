import FactGraph.Proofs.Grammar.Enclosed
import FactGraph.Proofs.Grammar.Stacked
import FactGraph.Proofs.Grammar.Steady
import FactGraph.Proofs.Graph.Stated
import FactGraph.Proofs.Notation.Grouped

/-! A text that states nothing, in parentheses. Wherever it stands, it means what it means on its
own, and leaves what has been built as it is. -/

namespace FactGraph

open Precedence Token Notation

namespace Property

variable {citation : Nat} {span : Span} {graph after : Graph}

/-- Whatever leaves a graph without statements has attached nothing. -/
theorem eq_nil_of_attachPairs {pairs : List (Ident × Property)}
    (attached : attachPairs citation span pairs graph = (.ok (), after))
    (silent : after.triples = []) : pairs = [] := by
  obtain ⟨stated, behind, each⟩ := exists_stated_of_attachPairs attached
  have none : stated = [] := (List.append_eq_nil_iff.1 (behind.symm.trans silent)).2
  apply List.eq_nil_iff_forall_not_mem.2
  intro pair inside
  obtain ⟨triple, there, _⟩ := each pair inside
  exact List.not_mem_nil (none ▸ there)

end Property

namespace Grammar

variable {base : Builder} {citation : Nat}

/-- The run on its own, which is followed only where it states nothing, and the run with other
things built before. -/
def aside (base : Builder) : Correspondence where
  ident := Eq
  text := SameName
  naming _ _ := False
  graph _ graph := graph = base.graph
  bindings _ bindings := bindings = base.bindings
  quote _ := ""
  alone _ := True

def Silent (graph : Graph) : Prop := graph.triples = []

theorem silent_lasting : Lasting Silent := fun _ _ adds silent =>
  List.prefix_nil.1 (silent ▸ adds.triples)

theorem aside_carried (base : Builder) (citation : Nat) : (aside base).Carried citation Silent where
  quoted := .inl fun _ _ => rfl
  strayed := .inr trivial
  allocated := by
    rintro _ _ graph graph' ⟨text, rfl, rfl, plain⟩ kept
    rw [Graph.allocate_plain graph plain, Graph.allocate_plain graph' plain]
    exact ⟨rfl, kept⟩
  attached {idents idents' properties properties' graph graph'} span span' same related
      kept silent := by
    rcases ran : Property.attachEach citation span idents properties graph with ⟨fault | ⟨⟩, after⟩
    · exact .alone trivial
    · rw [ran] at silent
      have none := Property.eq_nil_of_attachPairs ran silent
      have none' : (idents'.flatMap fun subject => properties'.map (subject, ·)) = [] := by
        obtain rfl := List.forall₂_eq_eq_eq ▸ same
        rw [List.flatMap_eq_nil_iff] at none ⊢
        intro subject inside
        have empty := List.map_eq_nil_iff.1 (none subject inside)
        rw [empty, List.forall₂_nil_left_iff] at related
        rw [related, List.map_nil]
      rw [Property.attachEach, none']
      exact .answered rfl kept
  resolved := False.elim
  defined := False.elim

variable {value other : Meaning}

theorem outline_eq_of_aside {token other : Token}
    (tokens : (aside base).likeness.token token other) :
    token.outline = other.outline := by
  have value : token.value = other.value := by
    by_cases named : token.kind = .target ∨ token.kind = .reference
    · exact (tokens.naming named).2.elim
    · by_cases text : token.kind = .identifier
      · rcases tokens.text text with ⟨_, found, found', _⟩
        exact found.trans found'.symm
      · apply tokens.none
        cases kind : token.kind <;> simp_all [Token.Kind.carriesName]
  exact Prod.ext tokens.kind value

theorem unplaced_eq_of_aside (meanings : (aside base).meaning value other) :
    other.unplaced = value.unplaced := by
  refine (Meaning.alike_iff.1 (Meaning.corresponds_eq_iff.1 ?_)).symm
  cases meanings with
  | entities related => exact .entities related
  | descriptor related => exact .descriptor related
  | assignment => exact .assignment
  | target named => exact named.elim

end Grammar

end FactGraph
