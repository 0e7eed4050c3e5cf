import CommandSuite.Program
import CommandSuite.Proofs.PathOrder
import CommandSuite.Proofs.RunOrder
import CommandSuite.Proofs.Suite.Report
import Mathlib.Data.List.Forall2

/-!
# What the exit code tells

The program ends with exit code 2 if its suite files cannot be found or one of them cannot be
read, decoded or validated, and then it has printed nothing to standard output and run nothing.
Otherwise it has run every case, and ends with 0 if all of them passed, with 1 if not.

* `Program.Reads` says how the reading of one suite file ends, and `Program.Refused` when no case
  is run at all.
* `Program.Refusal` and `Program.Completion` say what is seen of the two kinds of ends.
* `Program.runUnder_ending` says that these are all ends, for every order in which cases run.
-/

namespace CommandSuite.Program

/-! ## Suite files -/

/-- How the reading of a suite file ends. -/
inductive Reads (tree : FileTree) (config : Config) (path : String) :
    Except SuiteError (List TestCase) → Prop
  | unreadable {e : IoError} (read : tree.readText path = .error e) :
      Reads tree config path (.error (.unreadable e.message))
  | malformed {document : String} {fault : Suite.Fault} (read : tree.readText path = .ok document)
      (decoded : Suite.ofDocument document = .error fault) :
      Reads tree config path (.error (.malformed fault))
  | invalid {document : String} {suite : Suite} {problems : List (String × List Problem)}
      (read : tree.readText path = .ok document) (decoded : Suite.ofDocument document = .ok suite)
      (checked : suite.cases config = .error problems) :
      Reads tree config path (.error (.invalid problems))
  | valid {document : String} {suite : Suite} {cases : List TestCase}
      (read : tree.readText path = .ok document) (decoded : Suite.ofDocument document = .ok suite)
      (checked : suite.cases config = .ok cases) : Reads tree config path (.ok cases)

theorem reads_loadSuite (tree : FileTree) (config : Config) (path : String) :
    Reads tree config path (loadSuite tree config path) := by
  rw [loadSuite]
  cases read : tree.readText path with
  | error e => exact .unreadable read
  | ok document =>
    dsimp only
    rw [Suite.casesOf]
    cases decoded : Suite.ofDocument document with
    | error fault => exact .malformed read decoded
    | ok suite =>
      dsimp only
      rw [Suite.check]
      cases checked : suite.cases config with
      | error problems => exact .invalid read decoded checked
      | ok cases => exact .valid read decoded checked

theorem loadSuite_eq_iff_reads {tree : FileTree} {config : Config} {path : String}
    {result : Except SuiteError (List TestCase)} :
    loadSuite tree config path = result ↔ Reads tree config path result := by
  refine ⟨fun loaded => loaded ▸ reads_loadSuite tree config path, fun reads => ?_⟩
  cases reads with
  | unreadable read => rw [loadSuite, read]
  | malformed read decoded => simp only [loadSuite, read, Suite.casesOf, decoded]
  | invalid read decoded checked =>
    simp only [loadSuite, read, Suite.casesOf, decoded, Suite.check, checked]
    rfl
  | valid read decoded checked =>
    simp only [loadSuite, read, Suite.casesOf, decoded, Suite.check, checked]
    rfl

variable {tree : FileTree} {here : String} {config : Config} {paths : List RelativePath}

/-- No case is run: the suite files cannot be found, or the reading of one of them fails. -/
inductive Refused (tree : FileTree) (here : String) (config : Config)
    (patterns : List String) : Prop
  | pattern {e : Glob.PatternError} (expanded : SuiteFiles.expand tree here patterns = .error e)
  | suite {paths : List RelativePath}
    (expanded : SuiteFiles.expand tree here patterns = .ok paths)
      {path : RelativePath} (mem : path ∈ paths) {error : SuiteError}
      (reads : Reads tree config (path.logicalPath here) (.error error))

theorem Reads.unique {path : String} {result result' : Except SuiteError (List TestCase)}
    (reads : Reads tree config path result) (reads' : Reads tree config path result') :
    result = result' :=
  (loadSuite_eq_iff_reads.2 reads).symm.trans (loadSuite_eq_iff_reads.2 reads')

/-- Where no suite file fails, nothing is refused. -/
theorem not_refused_of_reads {patterns : List String}
    (given : List (RelativePath × List TestCase))
    (expanded : SuiteFiles.expand tree here patterns = .ok (given.map Prod.fst))
    (reads : ∀ path cases, (path, cases) ∈ given →
      Reads tree config (path.logicalPath here) (.ok cases)) :
    ¬ Refused tree here config patterns := by
  intro refused
  cases refused with
  | pattern expanded' => cases expanded.symm.trans expanded'
  | suite expanded' mem reads' =>
    obtain rfl := Except.ok.inj (expanded.symm.trans expanded')
    obtain ⟨⟨path, cases⟩, mem', rfl⟩ := List.mem_map.1 mem
    cases (reads path cases mem').unique reads'

theorem map_fst_loadSuites (tree : FileTree) (config : Config) (here : String)
    (paths : List RelativePath) : (loadSuites tree config here paths).map Prod.fst = paths := by
  rw [loadSuites, List.map_map]
  exact List.map_id paths

theorem mem_loadSuites {path : RelativePath} {result : Except SuiteError (List TestCase)} :
    (path, result) ∈ loadSuites tree config here paths ↔
      path ∈ paths ∧ Reads tree config (path.logicalPath here) result := by
  simp only [loadSuites, List.mem_map, Prod.mk.injEq]
  constructor
  · rintro ⟨_, mem, rfl, loaded⟩
    exact ⟨mem, loadSuite_eq_iff_reads.1 loaded⟩
  · rintro ⟨mem, reads⟩
    exact ⟨path, mem, rfl, loadSuite_eq_iff_reads.2 reads⟩

/-- The files whose reading fails, each with the reason. -/
def failing (suites : List (RelativePath × Except SuiteError (List TestCase))) :
    List (RelativePath × SuiteError) :=
  suites.filterMap fun
    | (path, .error e) => some (path, e)
    | (_, .ok _) => none

theorem suiteReports_eq (suites : List (RelativePath × Except SuiteError (List TestCase))) :
    suiteReports suites = (failing suites).map fun (path, error) => error.report path.text := by
  rw [failing, suiteReports, List.map_filterMap]
  congr 1
  funext ⟨path, result⟩
  cases result <;> rfl

theorem mem_failing {path : RelativePath} {error : SuiteError} :
    (path, error) ∈ failing (loadSuites tree config here paths) ↔
      path ∈ paths ∧ Reads tree config (path.logicalPath here) (.error error) := by
  rw [← mem_loadSuites, failing, List.mem_filterMap]
  constructor
  · rintro ⟨⟨_, _ | _⟩, mem, same⟩ <;> cases same
    exact mem
  · exact fun mem => ⟨_, mem, rfl⟩

/-- The files that fail stand in the order of their paths. -/
theorem pairwise_failing (sorted : paths.Pairwise fun p q => p.before q) :
    ((failing (loadSuites tree config here paths)).map Prod.fst).Pairwise fun p q =>
      p.before q := by
  rw [← map_fst_loadSuites tree config here paths] at sorted
  refine sorted.sublist ?_
  generalize loadSuites tree config here paths = suites
  induction suites with
  | nil => exact .slnil
  | cons suite suites ih =>
    obtain ⟨path, result⟩ := suite
    cases result with
    | error e => exact ih.cons_cons path
    | ok cases => exact ih.cons path

/-- Where no file fails, every file gives cases. -/
theorem exists_of_failing_eq_nil
    {suites : List (RelativePath × Except SuiteError (List TestCase))}
    (none : failing suites = []) :
    ∃ given : List (RelativePath × List TestCase),
      suites = given.map fun (path, cases) => (path, .ok cases) := by
  induction suites with
  | nil => exact ⟨[], rfl⟩
  | cons suite suites ih =>
    obtain ⟨path, result⟩ := suite
    cases result with
    | error e => cases none
    | ok cases =>
      obtain ⟨given, rfl⟩ := ih none
      exact ⟨(path, cases) :: given, rfl⟩

theorem suiteCases_eq (given : List (RelativePath × List TestCase)) :
    suiteCases (given.map fun (path, cases) => (path, .ok cases)) = given.flatMap Prod.snd := by
  rw [suiteCases, List.flatMap_map]

/-! ## The ways of the program -/

section Ways

variable {m : Type → Type} [Monad m] {arguments : Arguments}

/-- What is reported of a pattern that is none. -/
def unlocated (e : Glob.PatternError) : String :=
  messageReport "Failed to locate suite files" (SuiteFiles.patternReport e)

theorem runUnder_of_expand_error (available : tree.currentDir = .ok here) {e : Glob.PatternError}
    (expanded : SuiteFiles.expand tree here arguments.suites = .error e) (schedule : List Nat)
    (searchPath : Option String) (colored : Bool) (execute : Executor m) :
    runUnder schedule arguments tree searchPath colored execute =
      pure (refuse [unlocated e]) := by
  rw [runUnder]
  simp only [available, expanded]
  rfl

theorem runUnder_of_expand_ok (available : tree.currentDir = .ok here)
    (expanded : SuiteFiles.expand tree here arguments.suites = .ok paths) (schedule : List Nat)
    (searchPath : Option String) (colored : Bool) (execute : Executor m) :
    let config := arguments.config tree searchPath
    let suites := loadSuites tree config here paths
    runUnder schedule arguments tree searchPath colored execute =
      if (suiteReports suites).isEmpty then
        runCases schedule arguments colored
          ((Registry.withBuiltin config).registerAll (suiteCases suites)) execute
      else pure (refuse (suiteReports suites)) := by
  rw [runUnder]
  simp only [available, expanded]

/-- The program has three ways: it refuses patterns, it refuses suite files, or it runs all
cases. -/
theorem runUnder_cases (available : tree.currentDir = .ok here) (schedule : List Nat)
    (arguments : Arguments) (searchPath : Option String) (colored : Bool) (execute : Executor m) :
    let config := arguments.config tree searchPath
    let program := runUnder schedule arguments tree searchPath colored execute
    (∃ e, SuiteFiles.expand tree here arguments.suites = .error e ∧
      program = pure (refuse [unlocated e])) ∨
    (∃ paths, SuiteFiles.expand tree here arguments.suites = .ok paths ∧
      failing (loadSuites tree config here paths) ≠ [] ∧
      program = pure (refuse (suiteReports (loadSuites tree config here paths)))) ∨
    ∃ given : List (RelativePath × List TestCase),
      SuiteFiles.expand tree here arguments.suites = .ok (given.map Prod.fst) ∧
      (∀ path cases, (path, cases) ∈ given →
        Reads tree config (path.logicalPath here) (.ok cases)) ∧
      program = runCases schedule arguments colored
        ((Registry.withBuiltin config).registerAll (given.flatMap Prod.snd)) execute := by
  intro config program
  cases expanded : SuiteFiles.expand tree here arguments.suites with
  | error e =>
    exact .inl ⟨e, rfl,
      runUnder_of_expand_error available expanded schedule searchPath colored execute⟩
  | ok paths =>
    right
    have way := runUnder_of_expand_ok available expanded schedule searchPath colored execute
    have reports := suiteReports_eq (loadSuites tree config here paths)
    by_cases none : failing (loadSuites tree config here paths) = []
    · right
      obtain ⟨given, loaded⟩ := exists_of_failing_eq_nil none
      have same : given.map Prod.fst = paths := by
        rw [← map_fst_loadSuites tree config here paths, loaded, List.map_map]
        rfl
      refine ⟨given, congrArg _ same.symm, fun path cases mem => ?_, ?_⟩
      · have mem' : (path, .ok cases) ∈ loadSuites tree config here paths :=
          loaded ▸ List.mem_map.2 ⟨_, mem, rfl⟩
        exact (mem_loadSuites.1 mem').2
      · rw [none, List.map_nil] at reports
        rw [← suiteCases_eq, ← loaded]
        exact way.trans (if_pos (List.isEmpty_iff.2 reports))
    · left
      have reported : ¬ (suiteReports (loadSuites tree config here paths)).isEmpty := by
        rw [reports, List.isEmpty_iff, List.map_eq_nil_iff]
        exact none
      exact ⟨paths, rfl, none, way.trans (if_neg reported)⟩

end Ways

/-! ## What is seen of an end -/

variable {answer : Invocation → Execution}

/-- The program has ended without a run: nothing is printed to standard output and no command is
executed. Each suite file whose reading fails has one report, in the order of the paths, which
shows its path and says what is wrong; if the suite files cannot be found, the one report says
that. -/
structure Refusal (tree : FileTree) (here : String) (config : Config) (patterns : List String)
    (ending : Ending) (calls : List Invocation) : Prop where
  silent : ending.stdout = []
  idle : calls = []
  reported : ∀ paths, SuiteFiles.expand tree here patterns = .ok paths →
    ∃ failing : List (RelativePath × SuiteError),
      (failing.map Prod.fst).Pairwise (fun p q => p.before q) ∧
      (∀ path error, (path, error) ∈ failing ↔
        path ∈ paths ∧ Reads tree config (path.logicalPath here) (.error error)) ∧
      List.Forall₂ (fun (path, error) report => error.Reports path.text report)
        failing ending.stderr
  unlocated : ∀ e, SuiteFiles.expand tree here patterns = .error e →
    ending.stderr =
      ["Failed to locate suite files\n└─ " ++ SuiteFiles.patternReport e ++ "\n\n"]

/-- The program has ended with a run of all cases of a registry: every case is executed, the exit
code tells whether all passed, and the last line of a summary says the same, with the counts. -/
structure Completion (answer : Invocation → Execution) (registry : Registry)
    (arguments : Arguments) (colored : Bool) (ending : Ending) (calls : List Invocation) :
    Prop where
  executed : calls.Perm (registry.cases.map TestCase.invocation)
  success : ending.exitCode.number = 0 ↔ ∀ c ∈ registry.cases, (outcomeBy answer c).passed
  failure : ending.exitCode.number = 1 ↔ ∃ c ∈ registry.cases, ¬ (outcomeBy answer c).passed
  summary : arguments.tap = false →
    let style := arguments.reportStyle colored registry.size
    let passed := Report.Summary.passedCount (registry.cases.map (outcomeBy answer))
    let failed := style.numberOfTests - passed
    passed ≤ style.numberOfTests ∧ passed + failed = registry.size ∧
    failed = registry.cases.countP (fun c => ¬ (outcomeBy answer c).passed) ∧
    (Text.lines (String.join ending.stdout).toList).getLast? =
      some ("Test result: " ++
        (if ending.exitCode.number = 0 then Report.Color.green.paint style.colored "OK"
          else Report.Color.red.paint style.colored "FAIL") ++
        " (" ++ toString passed ++ " passed, " ++ toString failed ++ " failed)").toList

theorem Completion.number_ne_two {registry : Registry} {arguments : Arguments} {colored : Bool}
    {ending : Ending} {calls : List Invocation}
    (completion : Completion answer registry arguments colored ending calls) :
    ending.exitCode.number ≠ 2 := by
  intro two
  by_cases all : ∀ c ∈ registry.cases, (outcomeBy answer c).passed
  · cases two.symm.trans (completion.success.2 all)
  · have some : ∃ c ∈ registry.cases, ¬ (outcomeBy answer c).passed := by simpa using all
    cases two.symm.trans (completion.failure.2 some)

theorem unlocated_eq (e : Glob.PatternError) :
    unlocated e = "Failed to locate suite files\n└─ " ++ SuiteFiles.patternReport e ++
      "\n\n" := by
  have heading : "Failed to locate suite files\n└─ " =
    "Failed to locate suite files" ++ "\n└─ " := by decide +kernel
  rw [unlocated, messageReport_eq, heading]

theorem refusal_of_expand_error {e : Glob.PatternError} {patterns : List String}
    (expanded : SuiteFiles.expand tree here patterns = .error e) :
    Refusal tree here config patterns (refuse [unlocated e]) [] where
  silent := rfl
  idle := rfl
  reported paths expanded' := by
    rw [expanded] at expanded'
    cases expanded'
  unlocated e' expanded' := by
    obtain rfl := Except.error.inj (expanded.symm.trans expanded')
    exact congrArg (fun report => [report]) (unlocated_eq e)

theorem refusal_of_expand_ok {patterns : List String}
    (expanded : SuiteFiles.expand tree here patterns = .ok paths) :
    Refusal tree here config patterns
      (refuse (suiteReports (loadSuites tree config here paths))) [] where
  silent := rfl
  idle := rfl
  reported paths' expanded' := by
    obtain rfl := Except.ok.inj (expanded.symm.trans expanded')
    refine ⟨_, pairwise_failing (SuiteFiles.pairwise_expand expanded), fun _ _ => mem_failing, ?_⟩
    show List.Forall₂ _ _ (suiteReports _)
    rw [suiteReports_eq, List.forall₂_map_right_iff, List.forall₂_same]
    exact fun (path, error) _ => error.reports_report path.text
  unlocated e expanded' := by
    rw [expanded] at expanded'
    cases expanded'

/-- Where one suite file fails, there is one report. -/
theorem Refusal.exists_report {patterns : List String} {ending : Ending} {calls : List Invocation}
    (refusal : Refusal tree here config patterns ending calls)
    (expanded : SuiteFiles.expand tree here patterns = .ok paths) {path : RelativePath}
    (mem : path ∈ paths) {error : SuiteError}
    (reads : Reads tree config (path.logicalPath here) (.error error))
    (others : ∀ other ∈ paths, other ≠ path →
      ∃ cases, Reads tree config (other.logicalPath here) (.ok cases)) :
    ∃ report, ending.stderr = [report] ∧ error.Reports path.text report := by
  obtain ⟨failing, sorted, members, reports⟩ := refusal.reported _ expanded
  have among := (members path error).2 ⟨mem, reads⟩
  have each : ∀ failure ∈ failing, failure = (path, error) := by
    rintro ⟨other, error'⟩ fails
    obtain ⟨isPath, readsToo⟩ := (members other error').1 fails
    by_cases same : other = path
    · subst same
      rw [Except.error.inj (readsToo.unique reads)]
    · obtain ⟨cases, isValid⟩ := others other isPath same
      cases readsToo.unique isValid
  -- no path stands before itself, so that the file fails once
  have all : failing = List.replicate failing.length (path, error) :=
    List.eq_replicate_iff.2 ⟨rfl, each⟩
  have once : failing.length = 1 := by
    rw [all, List.map_replicate, List.pairwise_replicate, RelativePath.before_irrefl] at sorted
    have least := List.length_pos_of_mem among
    have most := sorted.resolve_right Bool.false_ne_true
    omega
  rw [all, once] at reports
  obtain ⟨report, rest, isReport, none, written⟩ := List.forall₂_cons_left_iff.1 reports
  rw [List.forall₂_nil_left_iff.1 none] at written
  exact ⟨report, written, isReport⟩

theorem finish_number_eq_zero_iff (style : ReportStyle) (told : List String)
    (outcomes : List Outcome) :
    (finish style told outcomes).exitCode.number = 0 ↔ allPassed outcomes := by
  cases all : allPassed outcomes <;> simp [finish, all, ExitCode.number]

theorem finish_number_eq_one_iff (style : ReportStyle) (told : List String)
    (outcomes : List Outcome) :
    (finish style told outcomes).exitCode.number = 1 ↔ allPassed outcomes = false := by
  cases all : allPassed outcomes <;> simp [finish, all, ExitCode.number]

theorem allPassed_outcomes_iff {cases : List TestCase} :
    allPassed (cases.map (outcomeBy answer)) ↔ ∀ c ∈ cases, (outcomeBy answer c).passed := by
  simp [allPassed]

theorem allPassed_outcomes_eq_false_iff {cases : List TestCase} :
    allPassed (cases.map (outcomeBy answer)) = false ↔
      ∃ c ∈ cases, ¬ (outcomeBy answer c).passed := by
  simp [allPassed]

/-- The verdict at the end of a summary goes with the exit code. -/
theorem getLast?_lines_finish {style : ReportStyle} {showAll : Bool} {outcomes : List Outcome}
    (summary : style.format = .summary showAll) (all : style.numberOfTests = outcomes.length)
    (told : List String) :
    let ending := finish style told outcomes
    (Text.lines (String.join ending.stdout).toList).getLast? =
      some ("Test result: " ++
        (if ending.exitCode.number = 0 then Report.Color.green.paint style.colored "OK"
          else Report.Color.red.paint style.colored "FAIL") ++
        " (" ++ toString (Report.Summary.passedCount outcomes) ++ " passed, " ++
        toString (Report.Summary.failedCount outcomes) ++ " failed)").toList := by
  intro ending
  have verdict : Report.Summary.verdict style.colored (allPassed outcomes) =
      if ending.exitCode.number = 0 then Report.Color.green.paint style.colored "OK"
      else Report.Color.red.paint style.colored "FAIL" := by
    simp only [ending, finish_number_eq_zero_iff]
    rfl
  rw [← verdict, ← Report.Summary.verdictLine_eq, ← all]
  exact ReportStyle.getLast?_lines_printsAround summary told outcomes

/-- A run of all cases ends so, in whatever order they run. -/
theorem runCases_recording (answer : Invocation → Execution) (schedule : List Nat)
    (arguments : Arguments) (colored : Bool) (registry : Registry) :
    ∃ ending calls,
      (runCases schedule arguments colored registry (recording answer)).run [] = (ending, calls) ∧
      Completion answer registry arguments colored ending calls := by
  obtain ⟨told, calls, run, executed, _⟩ := registry.runAll_recording answer
    (arguments.runOrder schedule) (arguments.reportStyle colored registry.size).casePrints
  refine ⟨_, calls, run_bind_of_run run, executed, ?_, ?_, fun noTap => ?_⟩
  · rw [finish_number_eq_zero_iff, allPassed_outcomes_iff]
  · rw [finish_number_eq_one_iff, allPassed_outcomes_eq_false_iff]
  · intro style passed failed
    have all : style.numberOfTests = (registry.cases.map (outcomeBy answer)).length :=
      (List.length_map _).symm
    have total :=
      Report.Summary.passedCount_add_failedCount (registry.cases.map (outcomeBy answer))
    rw [← all] at total
    have difference : failed =
        Report.Summary.failedCount (registry.cases.map (outcomeBy answer)) :=
      Nat.sub_eq_of_eq_add' total.symm
    have format : style.format = .summary arguments.showAllTests := by
      simp only [style, Arguments.reportStyle, noTap]
      rfl
    refine ⟨Nat.le.intro total, by rw [difference]; exact total, ?_, ?_⟩
    · rw [difference, Report.Summary.failedCount, List.countP_map]
      congr 1
      funext c
      simp
    · rw [difference]
      exact getLast?_lines_finish format all told

/-- **The exit code tells how the run went.** For all arguments, file trees and answers to
commands, and for every order in which cases run, the exit code is 2 exactly if the suite files
cannot be found or the reading of one of them fails. Then nothing is run; otherwise all cases are,
those that every compiler must pass and those of the suite files, file after file. -/
theorem runUnder_ending (available : tree.currentDir = .ok here) (schedule : List Nat)
    (arguments : Arguments) (searchPath : Option String) (colored : Bool)
    (answer : Invocation → Execution) :
    let config := arguments.config tree searchPath
    let patterns := arguments.suites
    ∃ ending calls,
      (runUnder schedule arguments tree searchPath colored (recording answer)).run [] =
        (ending, calls) ∧
      (ending.exitCode.number = 2 ↔ Refused tree here config patterns) ∧
      (Refused tree here config patterns → Refusal tree here config patterns ending calls) ∧
      (¬ Refused tree here config patterns →
        ∃ given : List (RelativePath × List TestCase),
          SuiteFiles.expand tree here patterns = .ok (given.map Prod.fst) ∧
          (∀ path cases, (path, cases) ∈ given →
            Reads tree config (path.logicalPath here) (.ok cases)) ∧
          Completion answer
            ((Registry.withBuiltin config).registerAll (given.flatMap Prod.snd))
            arguments colored ending calls) := by
  intro config patterns
  rcases runUnder_cases available schedule arguments searchPath colored (recording answer) with
    ⟨e, expanded, way⟩ | ⟨paths, expanded, fails, way⟩ | ⟨given, expanded, reads, way⟩
  · have refused : Refused tree here config patterns := .pattern expanded
    refine ⟨refuse [unlocated e], [], ?_, ?_, ?_, ?_⟩
    · rw [way]
      rfl
    · exact ⟨fun _ => refused, fun _ => rfl⟩
    · exact fun _ => refusal_of_expand_error expanded
    · exact fun loaded => (loaded refused).elim
  · obtain ⟨⟨path, error⟩, mem⟩ := List.exists_mem_of_ne_nil _ fails
    obtain ⟨mem, reads⟩ := mem_failing.1 mem
    have refused : Refused tree here config patterns := .suite expanded mem reads
    refine ⟨refuse (suiteReports (loadSuites tree config here paths)), [], ?_, ?_, ?_, ?_⟩
    · rw [way]
      rfl
    · exact ⟨fun _ => refused, fun _ => rfl⟩
    · exact fun _ => refusal_of_expand_ok expanded
    · exact fun loaded => (loaded refused).elim
  · have loaded : ¬ Refused tree here config patterns :=
      not_refused_of_reads given expanded reads
    obtain ⟨ending, calls, run, completion⟩ := runCases_recording answer schedule
      arguments colored ((Registry.withBuiltin config).registerAll (given.flatMap Prod.snd))
    refine ⟨ending, calls, ?_, ?_, ?_, ?_⟩
    · rw [way]
      exact run
    · exact ⟨fun two => (completion.number_ne_two two).elim, fun refused => (loaded refused).elim⟩
    · exact fun refused => (loaded refused).elim
    · exact fun _ => ⟨given, expanded, reads, completion⟩

/-- A suite file that is valid and one that is not: together they are refused with a report on the
latter, and by itself the former has its case run with those that every compiler must pass. -/
theorem runUnder_ending_oneInvalid :
    let tree : FileTree :=
      { root := .directory
          [("a.suite.toml", .file (Text.Utf8.encode "[tests.say]\n") false),
            ("b.suite.toml", .file
              (Text.Utf8.encode "[tests.say]\narguments = []\nexpected_output = \"\"\n") false)]
        workingDir := [] }
    let answer (_ : Invocation) : Execution :=
      { output := "Usage: arxc [options] <source_file>\n0.1.0\n", exitCode := some 0,
        error := none }
    let run (pattern : String) : Ending × List Invocation :=
      (runUnder [1, 0] { suites := [pattern], parallel := true } tree none false
        (recording answer)).run []
    tree.currentDir = .ok "/" ∧
      (run "*").1.exitCode.number = 2 ∧ (run "*").1.stdout = [] ∧ (run "*").2 = [] ∧
      (run "*").1.stderr =
        ["📋 a.suite.toml\n└─ Validation errors\n   └─ say\n"
          ++ "      ├─ ❌ Either 'arguments' or 'shell' is required\n"
          ++ "      └─ ❌ The field 'expected_output' is required\n\n"] ∧
      (run "b*").1.exitCode.number = 0 ∧ (run "b*").2.length = 3 := by
  intro tree answer run
  have available : tree.currentDir = .ok "/" := rfl
  let config := ({ } : Arguments).config tree none
  let a : RelativePath := ⟨[.name "a.suite.toml"]⟩
  let b : RelativePath := ⟨[.name "b.suite.toml"]⟩
  let problems : List (String × List Problem) :=
    [("say", [.invocationRequired, .expectationRequired])]
  let say : TestCase :=
    { name := "say", description := none, invocation := config.compilerInvocation [],
      expected := "" }
  have invalid : Reads tree config (a.logicalPath "/") (.error (.invalid problems)) := by
    have read : (match loadSuite tree config (a.logicalPath "/") with
        | .error (.invalid problems) => some problems
        | _ => none) = some problems := by decide +kernel
    refine loadSuite_eq_iff_reads.1 ?_
    split at read
    case h_1 loaded => rw [loaded, Option.some.inj read]
    case h_2 => cases read
  have valid : Reads tree config (b.logicalPath "/") (.ok [say]) := by
    have read : (loadSuite tree config (b.logicalPath "/")).toOption = some [say] := by
      decide +kernel
    refine loadSuite_eq_iff_reads.1 ?_
    cases loaded : loadSuite tree config (b.logicalPath "/") with
    | error e => rw [loaded] at read; cases read
    | ok cases => rw [loaded] at read; exact congrArg _ (Option.some.inj read)
  have both : SuiteFiles.expand tree "/" ["*"] = .ok [a, b] := by decide +kernel
  have alone : SuiteFiles.expand tree "/" ["b*"] = .ok [b] := by decide +kernel
  have others : ∀ other ∈ [a, b], other ≠ a →
      ∃ cases, Reads tree config (other.logicalPath "/") (.ok cases) := by
    rw [List.forall_mem_cons, List.forall_mem_singleton]
    exact ⟨fun other => absurd rfl other, fun _ => ⟨_, valid⟩⟩
  obtain ⟨ending, calls, ran, two, refusal, _⟩ := runUnder_ending available [1, 0]
    { suites := ["*"], parallel := true } none false answer
  have refused : Refused tree "/" config ["*"] := .suite both List.mem_cons_self invalid
  obtain ⟨report, stderr, written, _⟩ :=
    (refusal refused).exists_report both List.mem_cons_self invalid others
  obtain ⟨ending', calls', ran', _, _, completed⟩ := runUnder_ending available [1, 0]
    { suites := ["b*"], parallel := true } none false answer
  have accepted : ¬ Refused tree "/" config ["b*"] := by
    refine not_refused_of_reads [(b, [say])] alone fun path cases mem => ?_
    obtain ⟨rfl, rfl⟩ := Prod.mk.inj (List.mem_singleton.1 mem)
    exact valid
  obtain ⟨given, expanded, reads, completion⟩ := completed accepted
  obtain ⟨cases, rfl⟩ : ∃ cases, given = [(b, cases)] := by
    have one := Except.ok.inj (expanded.symm.trans alone)
    obtain ⟨⟨path, cases⟩, rfl, same⟩ := List.map_eq_singleton_iff.1 one
    exact ⟨cases, by rw [← same]⟩
  obtain rfl := Except.ok.inj ((reads b cases List.mem_cons_self).unique valid)
  have first : run "*" = (ending, calls) := ran
  have second : run "b*" = (ending', calls') := ran'
  rw [first, second]
  refine ⟨available, two.2 refused, (refusal refused).silent, (refusal refused).idle, ?_, ?_, ?_⟩
  · rw [stderr, written]
    decide +kernel
  · exact completion.success.2 (by decide +kernel)
  · exact completion.executed.length_eq

end CommandSuite.Program
