import CommandSuite.Config
import CommandSuite.Executable
import CommandSuite.Report
import CommandSuite.RunOrder

/-!
# Command line arguments

Arguments are read from left to right. An option's value is settled when the next known option, or
the end, is met; what is unknown is reported at once, before a fault in the value that waits.
-/

namespace CommandSuite

/-- Options that take a value. -/
inductive ValueOption where
  | projectRoot
  | outputDir
  | binaryName
  | compiler
  | interpreter
  | suite
  | outputFormat
  deriving Repr, DecidableEq

/-- Options that take none. -/
inductive FlagOption where
  | showAllTests
  | runTestsInParallel
  | noColor
  | help
  deriving Repr, DecidableEq

/-- An option. -/
inductive OptionName where
  | value (option : ValueOption)
  | flag (option : FlagOption)
  deriving Repr, DecidableEq

/-- The option of a long name. -/
def OptionName.ofText? : String → Option OptionName
  | "project-root" => some (.value .projectRoot)
  | "output-dir" => some (.value .outputDir)
  | "binary-name" => some (.value .binaryName)
  | "compiler" => some (.value .compiler)
  | "interpreter" => some (.value .interpreter)
  | "suite" => some (.value .suite)
  | "output-format" => some (.value .outputFormat)
  | "show-all-tests" => some (.flag .showAllTests)
  | "run-tests-in-parallel" => some (.flag .runTestsInParallel)
  | "no-color" => some (.flag .noColor)
  | "help" => some (.flag .help)
  | _ => none

/-- Why arguments are not read as options. -/
inductive UsageError where
  | unknownArgument
  /-- A value is missing, or empty where a path belongs. -/
  | missingValue
  | invalidFormat
  /-- A value for an option that takes none. -/
  | unneededValue
  /-- An option, other than that for suites, is given twice. -/
  | repeatedOption
  /-- Help is asked for. -/
  | help
  deriving Repr, DecidableEq

/-- What the command line asks for. -/
structure Arguments where
  projectRoot : String := ({} : Config).projectRoot
  outputDir : String := ({} : Config).outputDir
  binaryName : String := ({} : Config).binaryName
  compiler : Option String := none
  interpreter : Option String := none
  suites : List String := []
  tap : Bool := false
  showAllTests : Bool := false
  parallel : Bool := false
  noColor : Bool := false
  deriving Repr, DecidableEq

namespace Arguments

/-- Arguments of which some are read. -/
structure Partial where
  arguments : Arguments := {}
  /-- The options that were given and settled. -/
  given : List OptionName := []
  /-- The option that waits to be settled, with its value if that was read. -/
  waiting : Option (ValueOption × Option String) := none
  /-- Whether all options have ended. -/
  ended : Bool := false

/-- A value that is a path. -/
def pathValue (s : String) : Except UsageError String :=
  if s.isEmpty then .error .missingValue else .ok s

/-- The arguments with a value for an option. -/
def setValue (a : Arguments) (value : String) : ValueOption → Except UsageError Arguments
  | .projectRoot => return { a with projectRoot := ← pathValue value }
  | .outputDir => return { a with outputDir := ← pathValue value }
  | .binaryName => return { a with binaryName := value }
  | .compiler => return { a with compiler := some value }
  | .interpreter => return { a with interpreter := some (← pathValue value) }
  | .suite => return { a with suites := a.suites ++ [value] }
  | .outputFormat =>
    match value with
    | "summary" => return { a with tap := false }
    | "tap" => return { a with tap := true }
    | _ => throw .invalidFormat

/-- The arguments with a flag. -/
def setFlag (a : Arguments) : FlagOption → Except UsageError Arguments
  | .showAllTests => return { a with showAllTests := true }
  | .runTestsInParallel => return { a with parallel := true }
  | .noColor => return { a with noColor := true }
  | .help => throw .help

namespace Partial

/-- Notes that an option is given. Only suites may be given more than once. -/
def note (p : Partial) (option : OptionName) : Except UsageError Partial :=
  if option ≠ .value .suite && p.given.contains option then .error .repeatedOption
  else .ok { p with given := option :: p.given }

/-- Takes a value for an option. -/
def putValue (p : Partial) (option : ValueOption) (value : String) :
    Except UsageError Partial := do
  let p ← p.note (.value option)
  return { p with arguments := ← p.arguments.setValue value option }

/-- Settles the option that waits, if one does. -/
def settle (p : Partial) : Except UsageError Partial :=
  match p.waiting with
  | none => .ok p
  | some (_, none) => .error .missingValue
  | some (option, some value) => { p with waiting := none }.putValue option value

/-- Takes an option with the value that is attached to it, if one is. -/
def takeOption (p : Partial) (option : OptionName) (attached : Option String) :
    Except UsageError Partial := do
  match option, attached with
  | .value option, some value => (← p.settle).putValue option value
  | .value option, none => return { ← p.settle with waiting := some (option, none) }
  | .flag _, some _ => throw .unneededValue
  | .flag option, none =>
    let p ← (← p.settle).note (.flag option)
    return { p with arguments := ← p.arguments.setFlag option }

/-- Takes an argument that is no option. -/
def takeOther (p : Partial) (s : String) : Except UsageError Partial :=
  match p.waiting with
  | some (option, none) => .ok { p with waiting := some (option, some s) }
  | _ => .error .unknownArgument

/-- Takes the next argument. -/
def take (p : Partial) (argument : String) : Except UsageError Partial :=
  if p.ended then .error .unknownArgument
  else
    match argument.toList with
    | ['-', '-'] => .ok { p with ended := true }
    | '-' :: '-' :: cs =>
      let (name, rest) := cs.span (· ≠ '=')
      match OptionName.ofText? (String.ofList name) with
      | some option =>
        p.takeOption option (if rest.isEmpty then none else some (String.ofList rest.tail))
      | none => .error .unknownArgument
    | '-' :: 'h' :: _ => p.takeOption (.flag .help) none
    | '-' :: _ :: _ => .error .unknownArgument
    | _ => p.takeOther argument

end Partial

/-- The arguments that a command line gives. -/
def ofCommandLine (arguments : List String) : Except UsageError Arguments := do
  return (← (← arguments.foldlM Partial.take {}).settle).arguments

/-! ## What the arguments mean -/

/-- The compiler that is meant by a path or a name. A bare name is looked up in the project root
and then in the search path; one that is not found is kept, so that the cases show the failure. -/
def resolveCompiler (a : Arguments) (tree : FileTree) (searchPath : Option String)
    (compiler : String) : String :=
  if a.interpreter.isSome || Path.isPathLike compiler then compiler
  else (Executable.find? tree searchPath compiler a.projectRoot).getD compiler

/-- The configuration that the arguments ask for. -/
def config (a : Arguments) (tree : FileTree) (searchPath : Option String) : Config :=
  { projectRoot := a.projectRoot
    outputDir := a.outputDir
    binaryName := a.binaryName
    compiler := a.compiler.map (a.resolveCompiler tree searchPath)
    interpreter := a.interpreter }

/-- The report that the arguments ask for, of a number of tests. -/
def reportStyle (a : Arguments) (colored : Bool) (numberOfTests : Nat) : ReportStyle :=
  { numberOfTests
    format := if a.tap then .tap else .summary a.showAllTests
    colored := colored && !a.noColor }

/-- The order that the arguments ask for; workers take their steps as the schedule says. -/
def runOrder (a : Arguments) (schedule : List Nat) : RunOrder :=
  if a.parallel then .parallel schedule else .sequential

end Arguments

end CommandSuite
