import FactGraph.Proofs.CommandLine
import FactGraph.Proofs.Wording

namespace FactGraph

namespace CommandLine

/-- The run comes to the text of a file: it asks for the file, and nothing before that fails. -/
inductive Reaches (disk : Disk) (words : List String) (path source : String) (limits : Limits) :
    Prop
  | file {options : Options} {subject : Option Ident} {early late : List String}
      (asked : Options.ofWords words = .ok options)
      (compiling : options.help = false ∧ options.version = false)
      (about : subjectOf options = .ok subject)
      (within : limits = { nesting := options.nesting.getD Precedence.defaultNesting })
      (listed : options.files = early ++ path :: late)
      (passed : ∀ other ∈ early, ∃ graph, graphOf disk.read limits subject other = .ok graph)
      (text : Source.text disk.read path = .ok source)

variable {disk : Disk} {words : List String} {path source : String} {limits : Limits}
  {fault : Fault}

theorem graphOf_of_failed (subject : Option Ident) (text : Source.text disk.read path = .ok source)
    (failed : Compilation.ofSource source limits = .error fault) :
    graphOf disk.read limits subject path = .error (Report.within path fault).text := by
  rw [graphOf, Compilation.ofFile, text]
  simp only [failed]

theorem goThrough_of_failed {graphOf : String → Except String Graph}
    (print : String → Graph → String) {text : String} {early : List String} (late : List String)
    (passed : ∀ other ∈ early, ∃ graph, graphOf other = .ok graph)
    (failed : graphOf path = .error text) (last : Option Graph) :
    ∃ printed, goThrough graphOf print last (early ++ path :: late) = (printed, .error text) := by
  let told other := ((graphOf other).map (print other)).toOption.getD ""
  have each : ∀ other ∈ early, ∃ graph, graphOf other = .ok graph ∧
      print other graph = told other := by
    intro other inside
    rcases passed other inside with ⟨graph, compiled⟩
    refine ⟨graph, compiled, ?_⟩
    simp only [told, compiled]
    rfl
  have stopped : goThrough graphOf print none (path :: late) = ("", .error text) := by
    rw [goThrough, failed]
  exact ⟨_, by rw [goThrough_append each, stopped]⟩

/-- A run fails with the first file that does not compile, and leaves the disk as it was. -/
theorem Reaches.run_eq (reaches : Reaches disk words path source limits)
    (failed : Compilation.ofSource source limits = .error fault) :
    ∃ printed, run disk words = ⟨1, printed, errorLine (Report.within path fault).text, disk⟩ := by
  rcases reaches with @⟨options, subject, early, late, asked, ⟨unhelped, unversed⟩, about, rfl,
    listed, passed, text⟩
  have stopped := graphOf_of_failed subject text failed
  rcases goThrough_of_failed (block (1 < options.files.length) options.places) late passed
    stopped none with
    ⟨printed, ended⟩
  rw [← listed] at ended
  have some : options.files.isEmpty = false := by simp [listed]
  have planned : plan disk.read words = ⟨printed, .error (Report.within path fault).text⟩ := by
    simp [plan, asked, planOptions, unhelped, unversed, some, about, planFiles, ended]
  refine ⟨printed, ?_⟩
  rw [run, planned]

end CommandLine

theorem Report.oneLine_within {path : String} {fault : Fault} :
    OneLine (within path fault).text ↔ OneLine path ∧ OneLine fault.message := by
  have plain (text : String) : toString text = text := rfl
  have colon : OneLine ":" ∧ OneLine ": " := by decide
  unfold within text Place.text
  cases fault.position? with
  | none => simp [plain, colon]
  | some place => simp [plain, colon]

namespace Compilation

variable {source : String} {limits : Limits} {fault : Fault}

/-- The message of a fault is one line, unless it quotes what cannot be read, and a line ends within
the ten characters that are quoted. A run of the command line that comes to the source fails, and
what it reports is one line just when the name of the file and the message are. -/
theorem oneLine_of_ofSource (failed : ofSource source limits = .error fault) :
    (OneLine fault.message ↔ ∀ before rest, source.toList = before ++ rest →
      fault = Token.unreadableAfter before rest →
      ∀ c ∈ rest.take 10, Text.endsLine c = false) ∧
    ∀ disk words path, CommandLine.Reaches disk words path source limits →
      ∃ printed line, CommandLine.run disk words = ⟨1, printed, "error: " ++ line ++ "\n", disk⟩ ∧
        (OneLine line ↔ OneLine path ∧ OneLine fault.message) := by
  refine ⟨⟨?_, ?_⟩, ?_⟩
  · rintro one before rest _ rfl
    exact Token.oneLine_unreadableAfter.1 one
  · intro visible
    rcases oneLine_or_unread failed with one | ⟨before, c, after, split, _, _, same⟩
    · exact one
    · rw [same]
      exact Token.oneLine_unreadableAfter.2 (visible before (c :: after) split same)
  · intro disk words path reaches
    rcases reaches.run_eq failed with ⟨printed, ended⟩
    exact ⟨printed, _, ended, Report.oneLine_within⟩

theorem oneLine_of_ofSource_second_line :
    let source := "@x := a\n*y => b:c"
    let disk := Disk.empty.makeFile "facts.cg" source.toUTF8.toList
    let fault : Fault := .undefined "y" ⟨2, 1⟩
    ofSource source .standard = .error fault ∧
      CommandLine.Reaches disk ["facts.cg"] "facts.cg" source .standard ∧ OneLine fault.message ∧
      ∃ printed line, CommandLine.run disk ["facts.cg"] =
        ⟨1, printed, "error: " ++ line ++ "\n", disk⟩ ∧
        OneLine line := by
  intro source disk fault
  have failed : ofSource source .standard = .error fault := by decide +kernel
  have asked : CommandLine.Options.ofWords ["facts.cg"] = .ok { files := [] ++ ["facts.cg"] } := by
    decide +kernel
  have reaches : CommandLine.Reaches disk ["facts.cg"] "facts.cg" source .standard :=
    .file asked ⟨rfl, rfl⟩ rfl rfl rfl (List.forall_mem_nil _) (by decide +kernel)
  rcases oneLine_of_ofSource failed with ⟨message, report⟩
  have one : OneLine fault.message := message.2 nofun
  rcases report disk ["facts.cg"] "facts.cg" reaches with ⟨printed, line, ended, told⟩
  exact ⟨failed, reaches, one, printed, line, ended, told.2 ⟨by decide +kernel, one⟩⟩

/-- The ten characters that are quoted go on into the next line. -/
theorem message_over_two_lines :
    ∃ fault, ofSource "# comment\na" .standard = .error fault ∧ '\n' ∈ fault.message.toList ∧
      ¬ OneLine fault.message :=
  ⟨.unreadable 0 ⟨1, 1⟩ "# comment\n", by decide +kernel, by decide +kernel, by decide +kernel⟩

end Compilation

end FactGraph
