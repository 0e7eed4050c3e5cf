import CommandSuite.Path
import CommandSuite.TestCase

/-!
# Compiler configuration

A configuration says where the compiler under test lies and how it is started: by itself, or
through an interpreter that gets the compiler's path as its first argument. Scripts find the
compiler in the variable `ARXC`.
-/

namespace CommandSuite

/-- Where the compiler under test lies and how it is started. -/
structure Config where
  /-- The root of the compiler's tree. -/
  projectRoot : String := "../../"
  /-- The directory of built files, seen from the root. -/
  outputDir : String := "out/"
  /-- The name of the compiler in that directory. -/
  binaryName : String := "arxc"
  /-- The compiler, if it is not the one that the three fields above name. -/
  compiler : Option String := none
  /-- The program that runs the compiler, if it does not run by itself. -/
  interpreter : Option String := none
  deriving Repr, DecidableEq

namespace Config

/-- The variable in which scripts find the compiler. -/
def compilerVariable : String := "ARXC"

/-- The directory of built files. -/
def outputPath (config : Config) : String := Path.join config.projectRoot config.outputDir

/-- The path of the compiler. -/
def binaryPath (config : Config) : String :=
  config.compiler.getD (Path.join config.outputPath config.binaryName)

/-- The compiler run with the given arguments. -/
def compilerInvocation (config : Config) (arguments : List String) : Invocation :=
  match config.interpreter with
  | some interpreter => .direct interpreter (config.binaryPath :: arguments)
  | none => .direct config.binaryPath arguments

/-- What scripts find in their compiler variable. -/
def compilerCommand (config : Config) : String :=
  match config.interpreter with
  | some interpreter => interpreter ++ " " ++ config.binaryPath
  | none => config.binaryPath

/-- A script that can find the compiler. -/
def scriptInvocation (config : Config) (text : String) : Invocation :=
  .script text [(compilerVariable, config.compilerCommand)]

end Config

/-! ## Cases that every compiler must pass -/

/-- The usage line that the compiler's help shows. -/
def usageLine (binaryName : String) : String :=
  "Usage: " ++ binaryName ++ " [options] <source_file>"

/-- The version of the compiler under test. -/
def expectedVersion : String := "0.1.0"

/-- The cases on `--help` and `--version`, in this order. -/
def builtinCases (config : Config) : List TestCase :=
  [{ name := "help"
     description := some "--help prints the usage line"
     invocation := config.compilerInvocation ["--help"]
     expected := usageLine config.binaryName },
   { name := "version"
     description := some "--version prints the semantic version"
     invocation := config.compilerInvocation ["--version"]
     expected := expectedVersion }]

end CommandSuite
