import FactGraph.Files
import FactGraph.Proofs.Grammar.Named
import FactGraph.Proofs.Graph.Ordered
import FactGraph.Proofs.Snapshot.Value

namespace FactGraph.Snapshot

open MessagePack

variable {snapshot : Snapshot}

theorem ofBytes?_written (sized : snapshot.Sized) : ofBytes? snapshot.written = some snapshot := by
  have read := (reads_written sized 1019).whole []
  rw [List.append_nil] at read
  simp [ofBytes?, deepest, read, ofValue?_value sized]

/-- Every snapshot is read back as it was. So a compiled graph, or a projection of one, is read back
with its statements in their order, and each with its place; the places stand in the order of the
identifiers. -/
theorem ofBytes_written :
    (∀ snapshot : Snapshot, snapshot.Sized → ofBytes snapshot.written = .ok snapshot) ∧
      ∀ source limits compilation, Compilation.ofSource source limits = .ok compilation →
      ∀ graph : Graph,
        (graph = compilation.graph ∨ ∃ subject, graph = compilation.graph.about subject) →
        (ofGraph graph).Sized →
        ∃ read, ofBytes (ofGraph graph).written = .ok read ∧ read.triples = graph.triples ∧
          (read.places.Pairwise fun first second => compare first.1 second.1 = .lt) ∧
          ∀ ident, read.place? ident = graph.place? ident := by
  have back : ∀ snapshot : Snapshot, snapshot.Sized → ofBytes snapshot.written = .ok snapshot := by
    intro snapshot sized
    rw [ofBytes, ofBytes?_written sized]
  refine ⟨back, ?_⟩
  intro source limits compilation compiled graph known sized
  rcases Compilation.exists_built_of_compiled compiled with ⟨blocks, built⟩
  refine ⟨ofGraph graph, back _ sized, rfl, ?_, fun _ => rfl⟩
  rcases known with rfl | ⟨subject, rfl⟩
  · exact built.ascending
  · exact built.ascending

/-- Texts with a letter of two bytes, and numbers of one byte, of two and of four. -/
theorem ofBytes_written_small :
    let triple : Triple := ⟨.part 70000 .object, .user "é", .auto 300, .reification .subject⟩
    let snapshot : Snapshot := ⟨[triple], [(.statement 255, ⟨0, 256, 1, 65536⟩)]⟩
    ofBytes snapshot.written = .ok snapshot ∧
      ∃ compilation, Compilation.ofSource "é& => b:c ! l; d => e:f" .standard = .ok compilation ∧
        ∃ read, ofBytes (ofGraph (compilation.graph.about (.user "d"))).written = .ok read ∧
          read.triples = (compilation.graph.about (.user "d")).triples ∧
          (read.places.Pairwise fun first second => compare first.1 second.1 = .lt) ∧
          ∀ ident, read.place? ident = (compilation.graph.about (.user "d")).place? ident := by
  intro triple snapshot
  have compiled : Compilation.ofSource "é& => b:c ! l; d => e:f" .standard =
      .ok ((Compilation.ofSource "é& => b:c ! l; d => e:f" .standard).toOption.get
        (by decide +kernel)) := by
    decide +kernel
  refine ⟨ofBytes_written.1 _ (by decide +kernel), _, compiled, ?_⟩
  exact ofBytes_written.2 _ _ _ compiled _ (.inr ⟨_, rfl⟩) (by decide +kernel)

/-- The beginning of what is written is no snapshot, wherever it ends, and neither is a file that
has nothing more. -/
theorem ofBytes_beginning (sized : snapshot.Sized) {front : Bytes}
    (short : front <+: snapshot.written) (less : front ≠ snapshot.written) :
    ofBytes front = .error (.snapshot "not a snapshot") ∧
      ∀ disk path, Disk.entry disk path = .ok (.file front) →
      load disk path = .error (.snapshot "not a snapshot") := by
  have stopped : ofBytes front = .error (.snapshot "not a snapshot") := by
    simp [ofBytes, ofBytes?, deepest, (reads_written sized 1019).cut front short less]
  refine ⟨stopped, ?_⟩
  intro disk path found
  simp [load, found, Disk.content, stopped]

/-- The last byte is missing. -/
theorem ofBytes_beginning_last :
    let snapshot : Snapshot :=
      ⟨[⟨.user "l", .user "a", .user "b", .user "c"⟩], [(.user "l", ⟨0, 1, 1, 1⟩)]⟩
    snapshot.Sized ∧ snapshot.written.dropLast ≠ snapshot.written ∧
      ofBytes snapshot.written.dropLast = .error (.snapshot "not a snapshot") := by
  intro snapshot
  have sized : snapshot.Sized := by decide +kernel
  have shorter : snapshot.written.dropLast ≠ snapshot.written := by
    intro same
    have length := congrArg List.length same
    simp [written, writeMap, mapHead] at length
  exact ⟨sized, shorter, (ofBytes_beginning sized (List.dropLast_prefix _) shorter).1⟩

end FactGraph.Snapshot
