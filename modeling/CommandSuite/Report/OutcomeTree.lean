import CommandSuite.Outcome
import CommandSuite.Report.Frame
import CommandSuite.Tree

/-!
# Outcomes as trees

The branches that explain an outcome: the command, the reason of a failure and, below a failure,
the exit code, which plays no part in the verdict.
-/

namespace CommandSuite.Report

/-- A framed text under a heading, as the lines of a leaf. -/
def framedLeaf (heading s : String) : Tree :=
  .leaf (Text.displayLines (heading ++ "\n" ++ frame s))

/-- The branch that explains a failure. -/
def failureTree : Failure → Tree
  | .notRun error => .node "Failed to run command" [.leaf [error.message]]
  | .mismatch expected got =>
    .node "Expected output not found"
      [framedLeaf "Expected to contain" expected, framedLeaf "Got" got]

/-- The branches of a failure and of the exit code that came with it. -/
def failureTrees (failure : Failure) (exitCode : Option Int) : List Tree :=
  failureTree failure ::
    exitCode.toList.map fun code => .node "Exit code (not checked)" [.leaf [toString code]]

/-- The branches that explain an outcome. -/
def outcomeTrees (outcome : Outcome) : List Tree :=
  .node "Command" [.leaf [outcome.case.commandLine]] ::
    match outcome.failure with
    | none => []
    | some failure => failureTrees failure outcome.exitCode

end CommandSuite.Report
