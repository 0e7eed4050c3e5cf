import CommandSuite.Host
import CommandSuite.Proofs.Path.Parts
import CommandSuite.Proofs.Suite.Validation

/-!
# Empty commands

What is refused as an empty command at a run, and what is refused as a blank script when a suite
file is read, is the same. A script that became a case is never refused later; a case with
arguments is refused exactly if no program is configured, which `Config.LacksProgram` says in
terms of the fields.

* `Suite.exists_of_casesOf` is the inversion of reading a suite: every case was made by its entry.
* `Suite.commands_of_cases` says when the cases of a suite can be started.
-/

namespace CommandSuite

/-! ## The configured program -/

namespace Config

variable {config : Config}

/-- No program is configured: the interpreter is empty, or there is none and the compiler is
empty, be it given as a path or in three parts. -/
def LacksProgram (config : Config) : Prop :=
  config.interpreter = some "" ∨
    config.interpreter = none ∧
      (config.compiler = some "" ∨
        config.compiler = none ∧
          config.projectRoot = "" ∧ config.outputDir = "" ∧ config.binaryName = "")

instance (config : Config) : Decidable config.LacksProgram :=
  inferInstanceAs (Decidable (_ ∨ _ ∧ (_ ∨ _ ∧ _ ∧ _ ∧ _)))

theorem binaryPath_eq_empty_iff :
    config.binaryPath = "" ↔
      config.compiler = some "" ∨
        config.compiler = none ∧
          config.projectRoot = "" ∧ config.outputDir = "" ∧ config.binaryName = "" := by
  unfold binaryPath outputPath
  cases config.compiler with
  | some compiler => simp
  | none => simp [Path.join_eq_empty_iff, and_assoc]

/-- What is started for arguments is a program, and its name is empty exactly if none is
configured.
-/
theorem exists_compilerInvocation (config : Config) (arguments : List String) :
    ∃ program rest, config.compilerInvocation arguments = .direct program rest ∧
      (program = "" ↔ config.LacksProgram) := by
  unfold compilerInvocation
  cases interpreter : config.interpreter with
  | some program =>
    refine ⟨program, config.binaryPath :: arguments, rfl, ?_⟩
    simp [LacksProgram, interpreter]
  | none =>
    refine ⟨config.binaryPath, arguments, rfl, ?_⟩
    rw [binaryPath_eq_empty_iff]
    simp [LacksProgram, interpreter]

end Config

/-! ## What is started -/

namespace Host

theorem command_eq_emptyCommand_iff {invocation : Invocation} :
    command invocation = .error .emptyCommand ↔ isEmpty invocation := by
  unfold command
  split <;> simp [*]

theorem command_eq_ok_iff {invocation : Invocation} {words : List String} :
    command invocation = .ok words ↔ ¬ isEmpty invocation ∧ words = invocation.words := by
  unfold command
  split <;> simp [*, eq_comm]

theorem isEmpty_direct_iff {program : String} {arguments : List String} :
    isEmpty (.direct program arguments) ↔ program = "" :=
  String.isEmpty_iff

theorem isEmpty_script_iff {text : String} {environment : List (String × String)} :
    isEmpty (.script text environment) ↔ Text.trim text = "" :=
  Text.trim_eq_empty_iff.symm

end Host

/-! ## Cases of a suite -/

theorem Entry.Valid.trim_ne_empty {entry : Entry} (valid : entry.Valid) {script : String}
    (written : entry.shell = some script) : Text.trim script ≠ "" :=
  valid.2.1 script written

namespace Suite

variable {config : Config} {document : String}

/-- A suite that gives its cases has made each of them from a valid entry, and has no other entry.
-/
theorem exists_of_casesOf {cases : List TestCase} (loaded : casesOf config document = .ok cases) :
    ∃ suite, ofDocument document = .ok suite ∧
      (∀ entry ∈ suite.entries, entry.2.Valid) ∧
      List.Forall₂ (Entry.Makes config) suite.entries cases := by
  unfold casesOf at loaded
  cases decoded : ofDocument document with
  | error fault =>
    rw [decoded] at loaded
    cases loaded
  | ok suite =>
    simp only [decoded, check] at loaded
    -- had an entry been reported, no case would have been given
    have none : suite.problems config = [] := by
      by_contra some
      rw [Suite.cases, if_neg (by simpa using some)] at loaded
      cases loaded
    have valid := problems_eq_nil_iff.1 none
    obtain ⟨cases', made, makes⟩ := forall₂_cases config valid
    rw [made] at loaded
    obtain rfl : cases' = cases := Except.ok.inj loaded
    exact ⟨suite, rfl, valid, makes⟩

/-- What is related to a list, element by element, has for each of its elements one of the
list. -/
theorem exists_mem_of_forall₂ {α β : Type} {R : α → β → Prop} {as : List α} {bs : List β} {b : β}
    (related : List.Forall₂ R as bs) (mem : b ∈ bs) : ∃ a ∈ as, R a b := by
  induction related with
  | nil => cases mem
  | @cons a b' as bs head _ ih =>
    rcases List.mem_cons.1 mem with rfl | mem
    · exact ⟨a, List.mem_cons_self, head⟩
    · obtain ⟨a', mem', related⟩ := ih mem
      exact ⟨a', List.mem_cons_of_mem a mem', related⟩

/-- **A script that became a case is never refused as empty, arguments only without a program.**
Each case of a suite that could be read has a script, which is started, or a program with
arguments, which is refused as empty exactly if the configuration lacks a program. No case comes
from a blank script. -/
theorem commands_of_cases {cases : List TestCase} (loaded : casesOf config document = .ok cases) :
    (∀ c ∈ cases,
      (∃ script environment, c.invocation = .script script environment ∧ Text.trim script ≠ "" ∧
        Host.command c.invocation = .ok ["sh", "-c", script]) ∨
      ∃ program arguments, c.invocation = .direct program arguments ∧
        (Host.command c.invocation = .error .emptyCommand ↔ program = "") ∧
        (Host.command c.invocation = .ok (program :: arguments) ↔ program ≠ "") ∧
        (program = "" ↔ config.LacksProgram)) ∧
    (∀ suite, ofDocument document = .ok suite → ∀ entry ∈ suite.entries,
      ∀ script, entry.2.shell = some script → Text.trim script ≠ "") ∧
    ∀ name (entry : Entry) script, entry.shell = some script → Text.trim script = "" →
      ∀ c, entry.toCase config name ≠ .ok c := by
  obtain ⟨suite, decoded, valid, makes⟩ := exists_of_casesOf loaded
  refine ⟨fun c mem => ?_, fun suite' decoded' entry among script written => ?_,
    fun name entry script written blank c made => ?_⟩
  · obtain ⟨entry, among, made⟩ := exists_mem_of_forall₂ makes mem
    rcases made.invocation with ⟨arguments, _, invocation⟩ | ⟨script, written, invocation⟩
    · obtain ⟨program, rest, started, lacks⟩ := config.exists_compilerInvocation arguments
      refine .inr ⟨program, rest, invocation.trans started, ?_, ?_, lacks⟩
      · rw [invocation, started, Host.command_eq_emptyCommand_iff, Host.isEmpty_direct_iff]
      · rw [invocation, started, Host.command_eq_ok_iff, Host.isEmpty_direct_iff]
        exact and_iff_left rfl
    · have kept : Text.trim script ≠ "" := (valid entry among).trim_ne_empty written
      refine .inl ⟨script, _, invocation, kept, ?_⟩
      rw [invocation, Config.scriptInvocation, Host.command_eq_ok_iff, Host.isEmpty_script_iff]
      exact ⟨kept, rfl⟩
  · obtain rfl : suite = suite' := Except.ok.inj (decoded.symm.trans decoded')
    exact (valid entry among).trim_ne_empty written
  · rcases entry.toCase_cases config name with ⟨valid, _⟩ | ⟨_, problems, reported, _⟩
    · exact valid.trim_ne_empty written blank
    · cases made.symm.trans reported

/-- A case of each form, where nothing is configured. -/
theorem commands_of_cases_unconfigured :
    let config : Config := { projectRoot := "", outputDir := "", binaryName := "" }
    let document := "[tests.a]\narguments = ['-h']\nexpected_output = ''\n" ++
      "[tests.b]\nshell = 'true'\nexpected_output = ''\n"
    ∃ cases, casesOf config document = .ok cases ∧ config.LacksProgram ∧
      cases.map (fun c => (Host.command c.invocation).toOption) =
        [none, some ["sh", "-c", "true"]] ∧
      ∀ c ∈ cases, (∃ script environment, c.invocation = .script script environment) ∨
        Host.command c.invocation = .error .emptyCommand := by
  intro config document
  have evaluated : (casesOf config document).toOption =
      some [⟨"a", none, .direct "" ["-h"], ""⟩,
        ⟨"b", none, .script "true" [("ARXC", "")], ""⟩] := by
    decide +kernel
  cases loaded : casesOf config document with
  | error e =>
    rw [loaded] at evaluated
    cases evaluated
  | ok cases =>
    rw [loaded] at evaluated
    obtain rfl := Option.some.inj evaluated
    have lacks : config.LacksProgram := by decide
    refine ⟨_, rfl, lacks, by decide, fun c mem => ?_⟩
    rcases (commands_of_cases loaded).1 c mem with
      ⟨script, environment, invocation, _⟩ | ⟨program, _, _, refused, _, same⟩
    · exact .inl ⟨script, environment, invocation⟩
    · exact .inr (refused.2 (same.2 lacks))

end Suite

end CommandSuite
