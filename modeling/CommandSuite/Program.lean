import CommandSuite.Arguments
import CommandSuite.Suite
import CommandSuite.SuiteFiles

/-!
# The program

The program as a function of its arguments, the file tree and an executor. It loads all suite
files before it runs a case. If the suite files cannot be found or one of them gives no cases, it
reports that, once for each file, and runs nothing; otherwise it runs every case and its exit code
tells whether all of them passed.
-/

namespace CommandSuite

/-- How the program ends. -/
inductive ExitCode where
  | success
  | failedTests
  | invalidConfig
  deriving Repr, DecidableEq

def ExitCode.number : ExitCode → Nat
  | success => 0
  | failedTests => 1
  | invalidConfig => 2

/-- What the program prints and how it ends. -/
structure Ending where
  exitCode : ExitCode
  /-- What is printed to standard output, print by print. -/
  stdout : List String
  /-- What is printed to standard error, print by print. -/
  stderr : List String
  deriving Repr, DecidableEq

namespace Program

/-- The cases of a suite file. -/
def loadSuite (tree : FileTree) (config : Config) (path : String) :
    Except SuiteError (List TestCase) :=
  match tree.readText path with
  | .ok document => Suite.casesOf config document
  | .error e => .error (.unreadable e.message)

/-- Each suite file with what it holds. -/
def loadSuites (tree : FileTree) (config : Config) (here : String) (paths : List RelativePath) :
    List (RelativePath × Except SuiteError (List TestCase)) :=
  paths.map fun path => (path, loadSuite tree config (path.logicalPath here))

/-- The reports on the files that give no cases. -/
def suiteReports (suites : List (RelativePath × Except SuiteError (List TestCase))) :
    List String :=
  suites.filterMap fun
    | (path, .error e) => some (e.report path.text)
    | (_, .ok _) => none

/-- The cases of the files that give some. -/
def suiteCases (suites : List (RelativePath × Except SuiteError (List TestCase))) :
    List TestCase :=
  suites.flatMap fun
    | (_, .ok cases) => cases
    | (_, .error _) => []

/-- The end without a run. -/
def refuse (reports : List String) : Ending :=
  { exitCode := .invalidConfig, stdout := [], stderr := reports }

/-- The end of a run with these outcomes, during which `told` was printed. -/
def finish (style : ReportStyle) (told : List String) (outcomes : List Outcome) : Ending :=
  { exitCode := if allPassed outcomes then .success else .failedTests
    stdout := style.printsAround told outcomes
    stderr := [] }

/-- Runs the cases of a registry. If they run at the same time, they take their steps as the
schedule says. -/
def runCases {m : Type → Type} [Monad m] (schedule : List Nat) (arguments : Arguments)
    (colored : Bool) (registry : Registry) (execute : Executor m) : m Ending := do
  let style := arguments.reportStyle colored registry.size
  let (outcomes, told) ← registry.runAll (arguments.runOrder schedule) execute style.casePrints
  return finish style told outcomes

/-- Runs the program, and the cases under the schedule. -/
def runUnder {m : Type → Type} [Monad m] (schedule : List Nat) (arguments : Arguments)
    (tree : FileTree) (searchPath : Option String) (colored : Bool) (execute : Executor m) :
    m Ending :=
  match tree.currentDir with
  | .error e => return refuse [messageReport "Failed to get current directory" e.message]
  | .ok here =>
    let config := arguments.config tree searchPath
    match SuiteFiles.expand tree here arguments.suites with
    | .error e =>
      return refuse [messageReport "Failed to locate suite files" (SuiteFiles.patternReport e)]
    | .ok paths =>
      let suites := loadSuites tree config here paths
      let reports := suiteReports suites
      if reports.isEmpty then
        let registry := (Registry.withBuiltin config).registerAll (suiteCases suites)
        runCases schedule arguments colored registry execute
      else return refuse reports

/-- Runs the program, with the workers one after the other where there are some. -/
def run {m : Type → Type} [Monad m] (arguments : Arguments) (tree : FileTree)
    (searchPath : Option String) (colored : Bool) (execute : Executor m) : m Ending :=
  runUnder [] arguments tree searchPath colored execute

end Program

end CommandSuite
