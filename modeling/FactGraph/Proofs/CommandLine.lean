import FactGraph.CommandLine.Run

/-! Runs of the command line over several files. Each file is compiled by itself, and a run is put
together from the runs over its files one by one, up to the first that fails. -/

namespace FactGraph.CommandLine

inductive Flag where
  | places
  | subject (text : String)
  | nesting (text : String)
  | output (path : String)
  deriving DecidableEq, Repr

namespace Flag

def words : Flag → List String
  | places => ["--provenance"]
  | subject text => ["--subject", text]
  | nesting text => ["--max-depth", text]
  | output path => ["--output", path]

def output? : Flag → Option String
  | output path => some path
  | _ => none

def apply (options : Options) : Flag → Except String Options
  | places => .ok { options with places := true }
  | subject text => .ok { options with subject := some text }
  | nesting text =>
      match Text.readCounter text.toList with
      | some most => .ok { options with nesting := some most }
      | none => .error ("invalid --max-depth value: " ++ text)
  | output path => .ok { options with output := some path }

def applyAll (flags : List Flag) (options : Options) : Except String Options :=
  flags.foldlM apply options

end Flag

abbrev Items := List (Flag ⊕ String)

namespace Items

def words (items : Items) : List String := items.flatMap (Sum.elim Flag.words fun path => [path])

def flags (items : Items) : List Flag := items.filterMap Sum.getLeft?

def files (items : Items) : List String := items.filterMap Sum.getRight?

end Items

def NamesFile (word : String) : Prop := word.toList.head? ≠ some '-'

instance (word : String) : Decidable (NamesFile word) := inferInstanceAs (Decidable (_ ≠ _))

namespace Options

def withFiles (options : Options) (files : List String) : Options := { options with files }

theorem read_flag (options : Options) (flag : Flag) (rest : List String) :
    read options (flag.words ++ rest) = (flag.apply options).bind fun options =>
    read options rest := by
  cases flag with
  | nesting text =>
    rw [Flag.words, Flag.apply, read.eq_def]
    cases counted : Text.readCounter text.toList with
    | some most => simp [counted, Except.bind]
    | none => simp [counted, Except.bind]
  | places =>
    rw [Flag.words, Flag.apply, read.eq_def]
    simp [Except.bind]
  | subject text =>
    rw [Flag.words, Flag.apply, read.eq_def]
    simp [Except.bind]
  | output path =>
    rw [Flag.words, Flag.apply, read.eq_def]
    simp [Except.bind]

theorem read_file {path : String} (named : NamesFile path) (options : Options)
    (rest : List String) :
    read options (path :: rest) = read (options.withFiles (options.files ++ [path])) rest := by
  have differ (option : String) (begins : option.toList.head? = some '-') : path ≠ option := by
    intro same
    exact named (same ▸ begins)
  have plain : ¬ path.toList.head? = some '-' := named
  rw [read.eq_def]
  simp only [differ "-h" rfl, differ "--help" rfl, differ "-V" rfl,
    differ "--version" rfl, differ "--provenance" rfl, differ "--trace" rfl,
    differ "--subject" rfl, differ "--output" rfl, differ "--max-depth" rfl,
    plain, or_self, if_false, withFiles]

theorem apply_withFiles (flag : Flag) (options : Options) (files : List String) :
    flag.apply (options.withFiles files) = (flag.apply options).map (·.withFiles files) := by
  cases flag with
  | nesting text =>
    rw [Flag.apply, Flag.apply]
    cases Text.readCounter text.toList <;> rfl
  | _ => rfl

/-- Wherever the files stand between the flags, they are taken in order, and the flags as if they
stood alone. -/
theorem read_words {items : Items} (named : ∀ path ∈ items.files, NamesFile path)
    (options : Options) (done : List String) :
    read (options.withFiles done) items.words =
      (Flag.applyAll items.flags options).map (·.withFiles (done ++ items.files)) := by
  -- Each flag brings its own words along, so a value is never taken for a file.
  induction items generalizing options done with
  | nil =>
    simp [Items.words, Items.flags, Items.files, Flag.applyAll, read, Except.map, pure, Except.pure]
  | cons item items ih =>
    cases item with
    | inl flag =>
      have words : Items.words (.inl flag :: items) = flag.words ++ Items.words items := rfl
      have all : Flag.applyAll (Items.flags (.inl flag :: items)) options =
          (flag.apply options).bind (Flag.applyAll (Items.flags items)) := rfl
      have files : Items.files (.inl flag :: items) = Items.files items := rfl
      rw [files] at named
      rw [words, all, files, read_flag, apply_withFiles]
      cases flag.apply options with
      | error text => rfl
      | ok after => exact ih named after done
    | inr path =>
      have files : Items.files (.inr path :: items) = path :: Items.files items := rfl
      have words : Items.words (.inr path :: items) = path :: Items.words items := rfl
      have all : Items.flags (.inr path :: items) = Items.flags items := rfl
      rw [files] at named
      rcases List.forall_mem_cons.1 named with ⟨here, others⟩
      have next : (options.withFiles done).withFiles ((options.withFiles done).files ++ [path]) =
          options.withFiles (done ++ [path]) := rfl
      rw [words, all, files, read_file here, next, ih others, List.append_assoc,
        List.singleton_append]

theorem ofWords_words {items : Items} (named : ∀ path ∈ items.files, NamesFile path) :
    ofWords items.words = (Flag.applyAll items.flags {}).map (·.withFiles items.files) :=
  read_words named {} []

end Options

namespace Flag

theorem apply_kept {flag : Flag} {options after : Options}
    (applied : flag.apply options = .ok after) :
    after.help = options.help ∧ after.version = options.version ∧ after.output = flag.output?.or
      options.output := by
  cases flag with
  | nesting text =>
    rw [apply] at applied
    cases counted : Text.readCounter text.toList with
    | some most =>
      rw [counted] at applied
      obtain rfl := Except.ok.inj applied
      exact ⟨rfl, rfl, rfl⟩
    | none =>
      rw [counted] at applied
      contradiction
  | places | subject | output =>
    obtain rfl := Except.ok.inj applied
    exact ⟨rfl, rfl, rfl⟩

theorem applyAll_kept {flags : List Flag} {options after : Options}
    (applied : applyAll flags options = .ok after) :
    after.help = options.help ∧ after.version = options.version ∧
      after.output = (flags.filterMap output?).getLast?.or options.output := by
  induction flags generalizing options with
  | nil =>
    obtain rfl : options = after := Except.ok.inj applied
    exact ⟨rfl, rfl, rfl⟩
  | cons flag flags ih =>
    rw [applyAll, List.foldlM_cons] at applied
    cases first : flag.apply options with
    | error text =>
      rw [first] at applied
      contradiction
    | ok middle =>
      rw [first] at applied
      rcases apply_kept first with ⟨help, version, output⟩
      rcases ih applied with ⟨help', version', output'⟩
      refine ⟨help'.trans help, version'.trans version, ?_⟩
      rw [output', output]
      cases flag <;> simp [output?, List.getLast?_cons]

end Flag

def settings (flags : List Flag) : Except String (Options × Option Ident) := do
  let options ← Flag.applyAll flags {}
  let subject ← subjectOf options
  return (options, subject)

theorem output_of_settings {flags : List Flag} {options : Options} {subject : Option Ident}
    (both : settings flags = .ok (options, subject)) :
    options.output = (flags.filterMap Flag.output?).getLast? := by
  rw [settings] at both
  cases applied : Flag.applyAll flags {} with
  | error text =>
    rw [applied] at both
    contradiction
  | ok reached =>
    rw [applied] at both
    have kept := (Flag.applyAll_kept applied).2.2
    cases about : subjectOf reached with
    | error text => simp [about, bind, Except.bind] at both
    | ok other =>
      simp only [about, bind, Except.bind, pure, Except.pure, Except.ok.injEq,
        Prod.mk.injEq] at both
      rw [← both.1, kept, Option.or_none]

def Items.alone (flags : List Flag) (path : String) : Items := flags.map .inl ++ [.inr path]

theorem Items.flags_alone (flags : List Flag) (path : String) :
    (alone flags path).flags = flags := by
  simp [alone, Items.flags, List.filterMap_map, Function.comp_def]

theorem Items.files_alone (flags : List Flag) (path : String) :
    (alone flags path).files = [path] := by
  simp [alone, Items.files, List.filterMap_map, Function.comp_def]

theorem plan_words {items : Items} (named : ∀ path ∈ items.files, NamesFile path)
    (some : items.files ≠ []) (source : Source) :
    plan source items.words =
      match settings items.flags with
      | .error text => .failing text
      | .ok (options, subject) => planFiles source (options.withFiles items.files) subject := by
  rw [plan, Options.ofWords_words named, settings]
  cases applied : Flag.applyAll items.flags {} with
  | error text => rfl
  | ok options =>
    rcases Flag.applyAll_kept applied with ⟨help, version, -⟩
    have listed : (options.withFiles items.files).files.isEmpty = false :=
      List.isEmpty_eq_false_iff.2 some
    have helpless : (options.withFiles items.files).help = false := help
    have versionless : (options.withFiles items.files).version = false := version
    have same : subjectOf (options.withFiles items.files) = subjectOf options := rfl
    simp only [Except.map, planOptions, helpless, versionless, listed, same,
      Bool.false_eq_true, if_false]
    cases about : subjectOf options with
    | error text => simp [about, bind, Except.bind]
    | ok subject => simp [about, bind, Except.bind, pure, Except.pure]

/-- Files that compile are gone through, and what comes behind them does not depend on them. -/
theorem goThrough_append {graphOf : String → Except String Graph} {print : String → Graph → String}
    {told : String → String} {early : List String}
    (passed : ∀ path ∈ early, ∃ graph, graphOf path = .ok graph ∧ print path graph = told path)
    (last : Option Graph) (path : String) (late : List String) :
    goThrough graphOf print last (early ++ path :: late) =
      (String.join (early.map told) ++ (goThrough graphOf print none (path :: late)).1,
        (goThrough graphOf print none (path :: late)).2) := by
  induction early generalizing last with
  | nil =>
    rw [List.nil_append, List.map_nil, String.join_nil, String.empty_append]
    rfl
  | cons other early ih =>
    rcases List.forall_mem_cons.1 passed with ⟨⟨graph, compiled, printed⟩, others⟩
    rw [List.cons_append, goThrough, compiled]
    simp only [ih others (some graph), List.map_cons, String.join_cons, printed,
      String.append_assoc]

def entry (plan : String → Plan) (path : String) : String :=
  "# " ++ path ++ "\n" ++ (plan path).printed

section Files

variable (source : Source) (options : Options) (subject : Option Ident)

def graphFor : String → Except String Graph :=
  graphOf source { nesting := options.nesting.getD Precedence.defaultNesting } subject

def planFile (path : String) : Plan :=
  match graphFor source options subject path with
  | .error text => .failing text
  | .ok graph =>
    ⟨graph.listing options.places, .ok (options.output.map (·, Snapshot.ofGraph graph))⟩

variable {source options subject} {path text : String} {graph : Graph}
  {files early late : List String}

theorem planFile_of_failed (failed : graphFor source options subject path = .error text) :
    planFile source options subject path = .failing text := by
  rw [planFile, failed]

theorem planFile_of_compiled (compiled : graphFor source options subject path = .ok graph) :
    planFile source options subject path =
      ⟨graph.listing options.places, .ok (options.output.map (·, Snapshot.ofGraph graph))⟩ := by
  rw [planFile, compiled]

theorem exists_of_planFile
    (passes : ∀ text, (planFile source options subject path).ending ≠ .error text) :
    ∃ graph, graphFor source options subject path = .ok graph := by
  cases compiled : graphFor source options subject path with
  | ok graph => exact ⟨graph, rfl⟩
  | error text =>
    rw [planFile_of_failed compiled] at passes
    exact absurd rfl (passes text)

theorem planFiles_of_failed {printed : String}
    (through : goThrough (graphFor source options subject)
      (block (1 < files.length) options.places) none files =
      (printed, .error text)) :
    planFiles source (options.withFiles files) subject = ⟨printed, .error text⟩ := by
  rw [graphFor] at through
  dsimp only [planFiles, Options.withFiles]
  rw [through]

theorem planFiles_of_passed {printed : String}
    (through : goThrough (graphFor source options subject)
      (block (1 < files.length) options.places) none files =
      (printed, .ok (some graph))) :
    planFiles source (options.withFiles files) subject =
      ⟨printed, .ok (options.output.map (·, Snapshot.ofGraph graph))⟩ := by
  rw [graphFor] at through
  dsimp only [planFiles, Options.withFiles]
  rw [through]
  cases options.output <;> rfl

theorem planFiles_single :
    planFiles source (options.withFiles [path]) subject = planFile source options subject path := by
  cases compiled : graphFor source options subject path with
  | error text =>
    rw [planFile_of_failed compiled]
    apply planFiles_of_failed
    rw [goThrough, compiled]
  | ok graph =>
    rw [planFile_of_compiled compiled]
    apply planFiles_of_passed
    rw [goThrough, compiled]
    simp [goThrough, block]

theorem goThrough_several (several : 1 < files.length)
    (passed : ∀ other ∈ early, ∃ graph, graphFor source options subject other = .ok graph)
    (path : String) (late : List String) :
    goThrough (graphFor source options subject) (block (1 < files.length) options.places) none
        (early ++ path :: late) =
      (String.join (early.map (entry (planFile source options subject))) ++
          (goThrough (graphFor source options subject) (block (1 < files.length) options.places)
            none (path :: late)).1,
        (goThrough (graphFor source options subject) (block (1 < files.length) options.places) none
          (path :: late)).2) := by
  apply goThrough_append
  intro other inside
  rcases passed other inside with ⟨graph, compiled⟩
  refine ⟨graph, compiled, ?_⟩
  rw [entry, planFile_of_compiled compiled, block]
  simp [several]

theorem planFiles_until_failed (several : 1 < files.length) (split : files = early ++ path :: late)
    (passed : ∀ other ∈ early, ∃ graph, graphFor source options subject other = .ok graph)
    (failed : graphFor source options subject path = .error text) :
    planFiles source (options.withFiles files) subject =
      ⟨String.join (early.map (entry (planFile source options subject))), .error text⟩ := by
  apply planFiles_of_failed
  have stopped : goThrough (graphFor source options subject)
      (block (1 < files.length) options.places) none
      (path :: late) = ("", .error text) := by
    rw [goThrough, failed]
  have through := goThrough_several several passed path late
  rw [← split, stopped] at through
  simpa using through

theorem planFiles_all (several : 1 < files.length) (split : files = early ++ [path])
    (passed : ∀ other ∈ files, ∃ graph, graphFor source options subject other = .ok graph) :
    planFiles source (options.withFiles files) subject =
      ⟨String.join (files.map (entry (planFile source options subject))),
        (planFile source options subject path).ending⟩ := by
  rcases passed path (by simp [split]) with ⟨graph, compiled⟩
  rw [planFile_of_compiled compiled]
  apply planFiles_of_passed
  have final : goThrough (graphFor source options subject)
      (block (1 < files.length) options.places) none [path] =
      (entry (planFile source options subject) path, .ok (some graph)) := by
    rw [goThrough, compiled, entry, planFile_of_compiled compiled]
    simp [goThrough, block, several]
  have others : ∀ other ∈ early, ∃ graph, graphFor source options subject other = .ok graph := by
    intro other inside
    exact passed other (by simp [split, inside])
  have through := goThrough_several several others path []
  rw [← split, final] at through
  simpa [split, String.join_append] using through

end Files

def planAlone (source : Source) (flags : List Flag) (path : String) : Plan :=
  plan source (Items.alone flags path).words

/-- A run with some flags fails with a file before it writes anything. -/
def FailsWith (source : Source) (flags : List Flag) (path : String) : Prop :=
  ∃ text, (planAlone source flags path).ending = .error text

instance (source : Source) (flags : List Flag) (path : String) :
    Decidable (FailsWith source flags path) :=
  match ending : (planAlone source flags path).ending with
  | .error text => isTrue ⟨text, ending⟩
  | .ok _ => isFalse fun failed => by
      rcases failed with ⟨text, same⟩
      rw [ending] at same
      contradiction

section Plans

variable {source : Source} {items : Items} {path : String} {early late : List String}

theorem planAlone_eq (named : NamesFile path) (source : Source) (flags : List Flag) :
    planAlone source flags path =
      match settings flags with
      | .error text => .failing text
      | .ok (options, subject) => planFile source options subject path := by
  have listed : ∀ other ∈ (Items.alone flags path).files, NamesFile other := by
    rw [Items.files_alone]
    exact List.forall_mem_singleton.2 named
  have some : (Items.alone flags path).files ≠ [] := by simp [Items.files_alone]
  rw [planAlone, plan_words listed some, Items.flags_alone, Items.files_alone]
  cases settings flags with
  | error text => rfl
  | ok both => exact planFiles_single

theorem exists_settings_or_failing (source : Source) (flags : List Flag) :
    (∃ options subject, settings flags = .ok (options, subject) ∧
      ∀ path, NamesFile path → planAlone source flags path = planFile source options subject path) ∨
    ∃ text, settings flags = .error text ∧ ∀ path, NamesFile path →
    planAlone source flags path = .failing text := by
  cases both : settings flags with
  | error text =>
    refine .inr ⟨text, rfl, ?_⟩
    intro path named
    rw [planAlone_eq named, both]
  | ok both' =>
    refine .inl ⟨both'.1, both'.2, rfl, ?_⟩
    intro path named
    rw [planAlone_eq named, both]

theorem compiled_of_passed {flags : List Flag} {options : Options} {subject : Option Ident}
    {files : List String} (alone : ∀ path, NamesFile path →
      planAlone source flags path = planFile source options subject path)
    (named : ∀ path ∈ files, NamesFile path)
    (passed : ∀ path ∈ files, ¬ FailsWith source flags path) :
    (∀ path ∈ files, ∃ graph, graphFor source options subject path = .ok graph) ∧
      files.map (entry (planAlone source flags)) =
        files.map (entry (planFile source options subject)) := by
  constructor
  · intro path inside
    apply exists_of_planFile
    intro text same
    rw [← alone path (named path inside)] at same
    exact passed path inside ⟨text, same⟩
  · apply List.map_congr_left
    intro path inside
    rw [entry, entry, alone path (named path inside)]

/-- A run over several files is planned as the runs on its files, up to the first that fails. -/
theorem plan_until_failed (named : ∀ path ∈ items.files, NamesFile path)
    (several : 1 < items.files.length) (split : items.files = early ++ path :: late)
    (passed : ∀ other ∈ early, ¬ FailsWith source items.flags other)
    (failed : FailsWith source items.flags path) :
    ∃ text, planAlone source items.flags path = .failing text ∧
      plan source items.words = ⟨String.join (early.map (entry (planAlone source items.flags))),
        .error text⟩ := by
  have some : items.files ≠ [] := by simp [split]
  have here : NamesFile path := named path (by simp [split])
  have before : ∀ other ∈ early, NamesFile other := by
    intro other inside
    exact named other (by simp [split, inside])
  rcases exists_settings_or_failing source items.flags
    with ⟨options, subject, both, alone⟩ | ⟨text, neither, alone⟩
  · rcases compiled_of_passed alone before passed with ⟨compiled, entries⟩
    rcases failed with ⟨text, ending⟩
    rw [alone path here] at ending ⊢
    cases outcome : graphFor source options subject path with
    | ok graph =>
      rw [planFile_of_compiled outcome] at ending
      contradiction
    | error text' =>
      refine ⟨text', planFile_of_failed outcome, ?_⟩
      rw [plan_words named some, both, entries]
      exact planFiles_until_failed several split compiled outcome
  · -- Every file fails then, and so none stands before the first that does.
    have none : early = [] := by
      apply List.eq_nil_iff_forall_not_mem.2
      intro other inside
      apply passed other inside
      exact ⟨text, by rw [alone other (before other inside)]; rfl⟩
    refine ⟨text, alone path here, ?_⟩
    rw [plan_words named some, neither, none]
    rfl

theorem plan_all (named : ∀ path ∈ items.files, NamesFile path) (several : 1 < items.files.length)
    (split : items.files = early ++ [path])
    (passed : ∀ other ∈ items.files, ¬ FailsWith source items.flags other) :
    ∃ write, (planAlone source items.flags path).ending = .ok write ∧
      plan source items.words =
        ⟨String.join (items.files.map (entry (planAlone source items.flags))), .ok write⟩ ∧
      write.map Prod.fst = (items.flags.filterMap Flag.output?).getLast? := by
  have some : items.files ≠ [] := by simp [split]
  have last : path ∈ items.files := by simp [split]
  rcases exists_settings_or_failing source items.flags
    with ⟨options, subject, both, alone⟩ | ⟨text, neither, alone⟩
  · rcases compiled_of_passed alone named passed with ⟨compiled, entries⟩
    rcases compiled path last with ⟨graph, final⟩
    have ending : (planFile source options subject path).ending =
        .ok (options.output.map (·, Snapshot.ofGraph graph)) := by rw [planFile_of_compiled final]
    rw [alone path (named path last)]
    refine ⟨_, ending, ?_, ?_⟩
    · rw [plan_words named some, both, entries, ← ending]
      exact planFiles_all several split compiled
    · rw [← output_of_settings both, Option.map_map]
      exact Option.map_id'
  · exact absurd ⟨text, by rw [alone path (named path last)]; rfl⟩ (passed path last)

end Plans

section Runs

variable {disk : Disk} {words words' : List String}

theorem out_run (disk : Disk) (words : List String) :
    (run disk words).out = (plan disk.read words).printed := by
  rw [run]
  split
  · rfl
  · rfl
  · split <;> rfl

theorem run_of_failing {printed text : String}
    (planned : plan disk.read words = ⟨printed, .error text⟩) :
    run disk words = ⟨1, printed, errorLine text, disk⟩ := by
  rw [run, planned]

theorem run_of_ending (same : (plan disk.read words).ending = (plan disk.read words').ending) :
    run disk words = { run disk words' with out := (run disk words).out } := by
  rw [out_run, run, run, same]
  split
  · rfl
  · rfl
  · split <;> rfl

end Runs

end FactGraph.CommandLine
