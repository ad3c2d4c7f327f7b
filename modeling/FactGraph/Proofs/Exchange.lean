import FactGraph.Proofs.Grammar.Named
import FactGraph.Proofs.Grammar.Stacked
import FactGraph.Proofs.Grammar.Steady
import FactGraph.Proofs.Limits
import FactGraph.Proofs.Statements

/-! The order of statements. Without variables and drawn names, two sources say the same in either
order, but for the numbers of statements and groups: they can be joined unless a label is used in
both. -/

namespace FactGraph.Compilation

open Grammar Precedence

variable {limits : Limits} {first second : String} {compilation other joint : Compilation}

/-- What a source comes to, also with room for two more levels of nesting. -/
theorem exists_parse_of_ofSource (compiled : ofSource first limits = .ok compilation) :
    ∃ after, Reader.parse (symbols limits.citation) limits.nesting
      (Reader.ofSource first Builder.empty) =
      (.ok compilation.meanings, after) ∧ after.state.graph = compilation.graph := by
  rcases exists_wholeCourse compiled with ⟨calls, after, last, course, graph, _⟩
  exact ⟨after, course.parse_eq, graph⟩

theorem ofSource_widened (compiled : ofSource first limits = .ok compilation) :
    ofSource first limits.widened = .ok compilation :=
  (ofSource_within first limits.within_widened).2 compilation compiled

theorem numbered_of_ofSource (compiled : ofSource first limits = .ok compilation) :
    compilation.graph.Numbered := by
  rcases exists_parse_of_ofSource compiled with ⟨after, parsed, graph⟩
  have numbered := parseFrom_numbered first limits
  rw [parseFrom, parsed] at numbered
  exact graph ▸ numbered

section Joint

variable (compiled : ofSource first limits = .ok compilation)
  (compiled' : ofSource second limits = .ok other) (stated : AllStated compilation.meanings)
  (free : (Trail.ofSource first).held = false) (plain : PlainText second.toList)

include compiled compiled' stated free plain

/-- What two sources state in one run, the second states on top of the first. -/
theorem atop_of_joint (joined : ofSource (first ++ ";" ++ second) limits = .ok joint) :
    Graph.Atop compilation.graph.above compilation.graph other.graph joint.graph := by
  rcases exists_parse_of_ofSource (ofSource_widened compiled) with ⟨after, parsed, graph⟩
  rcases exists_parse_of_ofSource (ofSource_widened (ofSource_widened compiled'))
    with ⟨final, also, graph'⟩
  rcases exists_parse_of_ofSource (ofSource_widened joined) with ⟨last, whole, graph''⟩
  let alone (fault : Fault) :
      Prop := fault.isLimit = true ∨ ∃ text place, fault = .statementTaken text place
  have carried : (offTop compilation.graph alone).Carried limits.citation fun _ => True :=
    offTop_carried fun text place => .inr ⟨text, place, rfl⟩
  have tables := carried.symbols_follow
  rw [Symbols.guarded_of_forall (symbols limits.citation) fun _ => trivial] at tables
  have states : (offTop compilation.graph alone).likeness.state after.state Builder.empty :=
    ⟨graph ▸ Graph.Atop.empty _, trivial⟩
  have atop :=
    parts_of_parse_joined carried.fair tables parsed stated free also whole (Nat.succ_pos _)
      (Nat.le_refl _)
    (.inl rfl) states (tokens_of_plainText (fun _ _ same => same) plain)
  rw [← graph', ← graph'']
  exact atop.1

theorem exists_joint_of_apart (stated' : AllStated other.meanings)
    (apart : Graph.Apart compilation.graph.above compilation.graph other.graph) :
    ∃ joint, ofSource (first ++ ";" ++ second) limits.widened = .ok joint := by
  rcases exists_parse_of_ofSource (ofSource_widened compiled) with ⟨after, parsed, graph⟩
  rcases exists_parse_of_ofSource compiled' with ⟨final, also, graph'⟩
  let alone (fault : Fault) : Prop := fault.isLimit = true ∨ fault = straying
  let kept : Graph → Prop := Graph.Apart compilation.graph.above compilation.graph
  have carried : (onTop compilation.graph alone).Carried limits.citation kept :=
    onTop_carried (.inr rfl)
  have lasting : Lasting kept := fun _ _ adds apart => apart.of_adds adds
  have inside : kept final.state.graph := graph' ▸ apart
  have guarded := Reader.parse_guarded (symbols_steady lasting limits.citation) also inside
  have states : (onTop compilation.graph alone).likeness.state Builder.empty after.state :=
    ⟨graph ▸ Graph.Atop.empty _, trivial⟩
  rcases parse_joined_of_parts carried.fair (separates_guarded _) carried.symbols_follow parsed
    stated free guarded stated' (Nat.le_refl _) (.inl rfl) states
    (tokens_of_plainText (fun _ _ same => same) plain) with ⟨values, last, whole, _⟩
  have ran : parseFrom Builder.empty limits.widened (first ++ ";" ++ second) =
      (.ok values, last.state) := by
    simp only [parseFrom, Limits.widened] at whole ⊢
    rw [whole]
  exact ⟨⟨values, last.state.graph⟩, by rw [ofSource, ran]⟩

theorem exists_exchanged (stated' : AllStated other.meanings)
    (free' : (Trail.ofSource second).held = false) (plain' : PlainText first.toList)
    (joined : ofSource (first ++ ";" ++ second) limits = .ok joint)
    (room : ∀ limit, ofSource (second ++ ";" ++ first) limits ≠ .error (.limit limit)) :
    ∃ exchanged, ofSource (second ++ ";" ++ first) limits = .ok exchanged := by
  have numbered := numbered_of_ofSource compiled
  have numbered' := numbered_of_ofSource compiled'
  have atop := atop_of_joint compiled compiled' stated free plain joined
  have apart := atop.apart numbered numbered' (numbered_of_ofSource joined).distinct
  rcases exists_joint_of_apart compiled' compiled stated' free' plain' stated (apart.symm numbered')
    with ⟨exchanged, wide⟩
  exact ⟨exchanged, ((ofSource_within _ limits.within_widened).1 room).symm.trans wide⟩

end Joint

/-- The order of statements has no meaning, but for numbers. Let two sources without variables and
drawn names be statements, and end within no operand that a terminator has begun. If there is room
for it, either both orders can be stated or none, and what is stated second is numbered behind what
is stated first, in both orders. -/
theorem order_without_meaning (compiled : ofSource first limits = .ok compilation)
    (compiled' : ofSource second limits = .ok other) (stated : AllStated compilation.meanings)
    (stated' : AllStated other.meanings) (plain : PlainText first.toList)
    (plain' : PlainText second.toList) (free : (Trail.ofSource first).held = false)
    (free' : (Trail.ofSource second).held = false)
    (room : ∀ limit, ofSource (first ++ ";" ++ second) limits ≠ .error (.limit limit))
    (room' : ∀ limit, ofSource (second ++ ";" ++ first) limits ≠ .error (.limit limit)) :
    ((∃ joint, ofSource (first ++ ";" ++ second) limits = .ok joint) ↔
        ∃ exchanged, ofSource (second ++ ";" ++ first) limits = .ok exchanged) ∧
      ∀ joint exchanged, ofSource (first ++ ";" ++ second) limits = .ok joint →
        ofSource (second ++ ";" ++ first) limits = .ok exchanged →
        joint.graph.triples = compilation.graph.triples ++
            other.graph.triples.map (.mapped
              (.raised compilation.graph.nextStatement compilation.graph.nextGroup)) ∧
          exchanged.graph.triples = other.graph.triples ++
            compilation.graph.triples.map
              (.mapped (.raised other.graph.nextStatement other.graph.nextGroup)) := by
  refine ⟨⟨?_, ?_⟩, ?_⟩
  · rintro ⟨joint, joined⟩
    exact exists_exchanged compiled compiled' stated free plain' stated' free' plain joined room'
  · rintro ⟨exchanged, joined⟩
    exact exists_exchanged compiled' compiled stated' free' plain stated free plain' joined room
  · intro joint exchanged joined joined'
    exact ⟨(atop_of_joint compiled compiled' stated free plain' joined).triples,
      (atop_of_joint compiled' compiled stated' free' plain joined').triples⟩

theorem order_without_meaning_cited :
    ∃ compilation other, ofSource "a => b:c ! l" .standard = .ok compilation ∧
      ofSource "d => e:f => g:h" .standard = .ok other ∧
      AllStated compilation.meanings ∧ AllStated other.meanings ∧
      ∃ joint exchanged, ofSource ("a => b:c ! l" ++ ";" ++ "d => e:f => g:h")
        .standard = .ok joint ∧
        ofSource ("d => e:f => g:h" ++ ";" ++ "a => b:c ! l") .standard = .ok exchanged ∧
        joint.graph.triples = compilation.graph.triples ++
            other.graph.triples.map (.mapped
              (.raised compilation.graph.nextStatement compilation.graph.nextGroup)) ∧
          exchanged.graph.triples = other.graph.triples ++
            compilation.graph.triples.map
              (.mapped (.raised other.graph.nextStatement other.graph.nextGroup)) := by
  have compiled : ofSource "a => b:c ! l" .standard =
      .ok ((ofSource "a => b:c ! l" .standard).toOption.get (by decide +kernel)) := by
    decide +kernel
  have compiled' : ofSource "d => e:f => g:h" .standard =
      .ok ((ofSource "d => e:f => g:h" .standard).toOption.get (by decide +kernel)) := by
    decide +kernel
  have stated : AllStated ((ofSource "a => b:c ! l" .standard).toOption.get
        (by decide +kernel)).meanings := by
    decide +kernel
  have stated' : AllStated ((ofSource "d => e:f => g:h" .standard).toOption.get
        (by decide +kernel)).meanings := by
    decide +kernel
  have ends : (ofSource ("a => b:c ! l" ++ ";" ++ "d => e:f => g:h") .standard).isOk = true := by
    decide +kernel
  have ends' : (ofSource ("d => e:f => g:h" ++ ";" ++ "a => b:c ! l") .standard).isOk = true := by
    decide +kernel
  rcases exists_of_isOk ends with ⟨⟨joint, joined⟩, room⟩
  rcases exists_of_isOk ends' with ⟨⟨exchanged, joined'⟩, room'⟩
  refine ⟨_, _, compiled, compiled', stated, stated', joint, exchanged, joined, joined', ?_⟩
  exact (order_without_meaning compiled compiled' stated stated' (by decide +kernel)
    (by decide +kernel) (by decide +kernel) (by decide +kernel) room room').2 joint exchanged
    joined joined'

/-- A right side that a terminator begins takes the entity behind a semicolon, but none that stands
in front. -/
theorem order_matters_behind_terminator :
    ∃ compilation other, ofSource "a => ;b:c" .standard = .ok compilation ∧
    ofSource "x" .standard = .ok other ∧
      AllStated compilation.meanings ∧ AllStated other.meanings ∧ PlainText "a => ;b:c".toList ∧
        PlainText "x".toList ∧
      (∀ limit, ofSource ("a => ;b:c" ++ ";" ++ "x") .standard ≠ .error (.limit limit)) ∧
      (∀ limit, ofSource ("x" ++ ";" ++ "a => ;b:c") .standard ≠ .error (.limit limit)) ∧
      ¬ ((∃ joint, ofSource ("a => ;b:c" ++ ";" ++ "x") .standard = .ok joint) ↔
        ∃ exchanged, ofSource ("x" ++ ";" ++ "a => ;b:c") .standard = .ok exchanged) := by
  have ends : (ofSource ("x" ++ ";" ++ "a => ;b:c") .standard).isOk = true := by decide +kernel
  rcases exists_of_isOk ends with ⟨exchanged, room⟩
  have refused : ofSource ("a => ;b:c" ++ ";" ++ "x") .standard =
      .error (.unexpected "descriptor" ["descriptor"] "entities" ⟨1, 11⟩) := by
    decide +kernel
  refine ⟨(ofSource "a => ;b:c" .standard).toOption.get (by decide +kernel),
    (ofSource "x" .standard).toOption.get (by decide +kernel), by
    decide +kernel, by decide +kernel, by decide +kernel,
    by decide +kernel, by decide +kernel, by decide +kernel, ?_, room, ?_⟩
  · rw [refused]
    nofun
  · rw [refused]
    rintro same
    exact absurd (same.2 exchanged) nofun

end FactGraph.Compilation
