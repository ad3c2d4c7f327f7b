import FactGraph.Proofs.Graph.Unlabelled
import FactGraph.Proofs.Notation.Expanded
import FactGraph.Proofs.Notation.Names
import FactGraph.Proofs.Notation.Overflowing
import Mathlib.Data.List.ProdSigma

namespace FactGraph.Notation

open Token

variable {citation : Nat} {idents : List Ident} {shape : List Property → Prop}

/-- The tree means properties of this shape, wherever it is written and whatever has been built. -/
def Tree.Describes (citation : Nat) {level : Level} (tree : Tree level)
    (shape : List Property → Prop) : Prop :=
  ∀ mark builder, ∃ properties place, shape properties ∧
    tree.eval citation mark builder = (.ok (.descriptor properties place), builder)

theorem Tree.Describes.mono {level : Level} {tree : Tree level} {other : List Property → Prop}
    (describes : tree.Describes citation shape)
    (weaker : ∀ properties, shape properties → other properties) :
    tree.Describes citation other := by
  intro mark builder
  rcases describes mark builder with ⟨properties, place, shaped, meant⟩
  exact ⟨properties, place, weaker properties shaped, meant⟩

def spaced : Gap := ⟨singleSpace, singleSpace⟩

def tight : Gap := ⟨.none, .none⟩

namespace Tree

theorem colon_describes {left : Tree .property} {right : Tree .atom}
    {predicates objects : List Ident} (first : left.Names citation predicates)
    (second : right.Names citation objects) (gap : Gap) :
    (left.colon gap right).Describes citation fun properties =>
      ∃ place, properties = Property.plainAll place (predicates ×ˢ objects) := by
  intro mark builder
  rcases first mark builder with ⟨place, named⟩
  rcases second (mark.past (left.text ++ gap.around [':'])) builder with ⟨other, last⟩
  have crossed : Property.plainAll place (predicates ×ˢ objects) =
      predicates.flatMap fun predicate => objects.map fun object =>
      .plain predicate object place := by
    simp [Property.plainAll, SProd.sprod, List.product, List.map_flatMap, Function.comp_def]
  refine ⟨_, place, ⟨place, rfl⟩, ?_⟩
  rw [crossed, Tree.eval, Evaluation.property]
  simp only [bind_assoc, Attempt.bind_ok named, Attempt.bind_ok last,
    Evaluation.needEntities, pure_bind]
  rfl

theorem arrow_describes {left : Tree .labelled} {right : Tree .description}
    {cited citing : List Property → Prop} (first : left.Describes citation cited)
    (second : right.Describes citation citing) (gap : Gap) :
    (left.arrow gap right).Describes citation fun properties =>
      ∃ inner outer, cited outer ∧ citing inner ∧ properties = outer.map (·.citedBy inner) := by
  intro mark builder
  rcases first mark builder with ⟨outer, place, shaped, named⟩
  rcases second (mark.past (left.text ++ gap.around ['=', '>'])) builder
    with ⟨inner, other, shaped', last⟩
  refine ⟨_, place, ⟨inner, outer, shaped, shaped', rfl⟩, ?_⟩
  rw [Tree.eval, Evaluation.description, Attempt.bind_ok named]
  simp only [bind_assoc, Attempt.bind_ok last, Evaluation.needProperties, pure_bind]
  rfl

theorem eval_arrow {left : Tree .labelled} {right : Tree .description}
    (first : left.Names citation idents) (second : right.Describes citation shape) (gap : Gap)
    (mark : Mark) (builder : Builder) :
    ∃ properties span place, shape properties ∧ (left.arrow gap right).eval citation mark builder =
      (Builder.onGraph (Property.attachEach citation span idents properties) >>= fun _ =>
        pure (.entities idents place)) builder := by
  rcases first mark builder with ⟨place, named⟩
  rcases second (mark.past (left.text ++ gap.around ['=', '>'])) builder
    with ⟨properties, other, shaped, last⟩
  refine ⟨properties, gap.place ['=', '>'] (mark.past left.text), place, shaped, ?_⟩
  rw [Tree.eval, Evaluation.description, Attempt.bind_ok named]
  simp only [bind_assoc, Attempt.bind_ok last, Evaluation.needProperties, pure_bind]

def describedBy (left : Tree .atom) (right : Tree .description) : Tree .description :=
  .arrow (.ofProperty (.ofAtom left)) spaced right

theorem text_describedBy (left : Tree .atom) (right : Tree .description) :
    (left.describedBy right).text = left.text ++ (" => ".toList ++ right.text) := by
  simp [describedBy, spaced, Gap.around, singleSpace]

theorem depth_describedBy (left : Tree .atom) (right : Tree .description) :
    (left.describedBy right).depth = max left.depth (right.depth + 1) := rfl

def program (tree : Tree .description) : Program := ⟨none, .single (.ofDescription tree), none⟩

theorem source_program (tree : Tree .description) :
    tree.program.source = String.ofList tree.text := by
  simp [program, Program.source, Program.text, Program.pauseText]

end Tree

theorem ofSource_arrow {limits : Limits} {left : Tree .labelled}
    {right : Tree .description} {gap : Gap} (fits : (left.arrow gap right).depth ≤ limits.nesting)
    (first : left.Names limits.citation idents) (second : right.Describes limits.citation shape) :
    ∃ properties span place, shape properties ∧
      ∀ answer after, Property.attachEach limits.citation span idents properties Graph.empty =
        (answer, after) →
        Compilation.ofSource (String.ofList (left.arrow gap right).text) limits =
          answer.map fun _ => ⟨[.entities idents place], after⟩ := by
  let program := (left.arrow gap right).program
  rcases Tree.eval_arrow first second gap Mark.start Builder.empty
    with ⟨properties, span, place, shaped, meant⟩
  refine ⟨properties, span, place, shaped, fun answer after attached => ?_⟩
  have stepped : Builder.onGraph (Property.attachEach limits.citation span idents properties)
      Builder.empty = (answer, ⟨after, []⟩) := by
    rw [Builder.onGraph, show Builder.empty.graph = Graph.empty from rfl, attached]
    rfl
  have evaluated : program.eval limits.citation Builder.empty =
      ((left.arrow gap right).eval limits.citation Mark.start >>= fun meaning => pure [meaning])
        Builder.empty := rfl
  rw [← Tree.source_program, Compilation.ofSource, program.parseFrom_of_shallow fits, evaluated]
  cases answer with
  | ok =>
    rw [Attempt.bind_ok stepped] at meant
    rw [Attempt.bind_ok meant]
    rfl
  | error fault =>
    rw [Attempt.bind_error stepped] at meant
    rw [Attempt.bind_error meant]
    rfl

theorem ofSource_arrow_of_deep {limits : Limits} {left : Tree .labelled}
    {right : Tree .description} {gap : Gap} (deep : limits.nesting < (left.arrow gap right).depth)
    (first : left.Names limits.citation idents) (second : right.Describes limits.citation shape) :
    Compilation.ofSource (String.ofList (left.arrow gap right).text) limits =
      .error (.limit (.nesting limits.nesting)) := by
  rw [← Tree.source_program]
  refine Compilation.ofSource_of_error
    ((left.arrow gap right).program.parseFrom_overflows limits deep fun room deep => ?_)
  rcases first Mark.start Builder.empty with ⟨place, named⟩
  rcases second (Mark.start.past (left.text ++ gap.around ['=', '>'])) Builder.empty with
    ⟨properties, other, _, described⟩
  have arrow : Overflows limits.nesting limits.citation room (left.arrow gap right) Mark.start
      Builder.empty :=
    .arrow Builder.bound_empty named nofun deep (fun _ => left.overflows Builder.bound_empty named)
      (fun _ => right.overflows Builder.bound_empty described)
  have statement : Overflows limits.nesting limits.citation room
      (.ofDescription (left.arrow gap right)) Mark.start
      Builder.empty := arrow.lift (by decide) (by decide) rfl
  exact statement.lift (by decide) (by decide) rfl

end FactGraph.Notation
