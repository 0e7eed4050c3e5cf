import CommandSuite.TestCase

/-!
# Outcomes

A case is run once, which gives an execution, and judged by it. A case passes when its command
could be run and the output contains the expected text as it stands; the exit code plays no part.
-/

namespace CommandSuite

/-- Why a command could not be run to its end. -/
inductive RunError where
  /-- There is no program, or nothing but blanks in a script. -/
  | emptyCommand
  /-- The process could not be started. -/
  | spawn (cause : String)
  /-- The output could not be read. -/
  | capture (cause : String)
  deriving Repr, DecidableEq

/-- The text that reports the error. -/
def RunError.message : RunError → String
  | emptyCommand => "empty command line"
  | spawn cause => "failed to start process: " ++ cause
  | capture cause => "failed to capture process output: " ++ cause

/-- What is seen of one run of a command. -/
structure Execution where
  /-- Standard output and standard error in one. -/
  output : String
  /-- The exit code, unless a signal ended the process or there was none. -/
  exitCode : Option Int
  error : Option RunError
  deriving Repr, DecidableEq

/-- The execution of a command that could not be run. -/
def Execution.failed (error : RunError) : Execution :=
  { output := "", exitCode := none, error := some error }

/-- Executes an invocation, with whatever effects that has. -/
abbrev Executor (m : Type → Type) := Invocation → m Execution

/-- Why a case did not pass. -/
inductive Failure where
  | notRun (error : RunError)
  | mismatch (expected got : String)
  deriving Repr, DecidableEq

/-- The text that reports the failure. -/
def Failure.message : Failure → String
  | notRun error => "could not run command: " ++ error.message
  | mismatch _ got => "expected output not found. Got: " ++ got

/-- A judged case. -/
structure Outcome where
  case : TestCase
  /-- Why the case did not pass, if it did not. -/
  failure : Option Failure
  exitCode : Option Int
  deriving Repr, DecidableEq

namespace Outcome

def passed (outcome : Outcome) : Bool := outcome.failure.isNone

/-- The reason of a failure, with the output. -/
def diagnostic (outcome : Outcome) : Option String := outcome.failure.map Failure.message

theorem passed_eq_isNone_diagnostic (outcome : Outcome) :
    outcome.passed = outcome.diagnostic.isNone := Option.isNone_map.symm

end Outcome

/-- Whether one text stands in another. -/
def containsChars (part : List Char) : List Char → Bool
  | [] => part.isEmpty
  | c :: cs => part.isPrefixOf (c :: cs) || containsChars part cs

/-- The failure of an output in which the expected text does not stand. -/
def mismatch? (output expected : String) : Option Failure :=
  if containsChars expected.toList output.toList then none
  else some (.mismatch expected output)

/-- The outcome of a case that was executed so. -/
def judge (c : TestCase) (execution : Execution) : Outcome where
  case := c
  failure :=
    match execution.error with
    | some error => some (.notRun error)
    | none => mismatch? execution.output c.expected
  exitCode := execution.exitCode

/-- The outcome of a case when it is executed once. -/
def evaluate {m : Type → Type} [Monad m] (execute : Executor m) (c : TestCase) : m Outcome :=
  return judge c (← execute c.invocation)

def allPassed (outcomes : List Outcome) : Bool := outcomes.all Outcome.passed

end CommandSuite
