import CommandSuite.Report.Color
import CommandSuite.Report.OutcomeTree

/-!
# Summaries

The report for people: a line for each case as it is judged, then the cases that failed as trees,
then the counts.
-/

namespace CommandSuite.Report.Summary

def statusMark (passed : Bool) : String := if passed then "✅" else "❌"

def startLine (numberOfTests : Nat) : String := "Running " ++ toString numberOfTests ++ " tests:"

/-- The line of a case that was just judged. -/
def caseLine (colored : Bool) (outcome : Outcome) : String :=
  statusMark outcome.passed ++ " " ++ outcome.case.name ++ ": "
    ++ Color.yellow.paint colored ("Running command `" ++ outcome.case.commandLine ++ "`")

/-- What the summary shows of an outcome: its label, or a tree that explains the failure. -/
def result (colored : Bool) (outcome : Outcome) : String :=
  if outcome.passed then "✅ " ++ outcome.case.label ++ "\n"
  else (Tree.node ("❌ " ++ Color.red.paint colored outcome.case.label)
    (outcomeTrees outcome)).draw

/-- The outcomes that a summary shows. -/
def shown (showAll : Bool) (outcomes : List Outcome) : List Outcome :=
  outcomes.filter fun outcome => showAll || !outcome.passed

/-- The number of outcomes that passed. -/
def passedCount (outcomes : List Outcome) : Nat := outcomes.countP Outcome.passed

/-- The line of the verdict. -/
def verdictLine (colored : Bool) (numberOfTests : Nat) (outcomes : List Outcome) : String :=
  let passed := passedCount outcomes
  let failed := numberOfTests - passed
  let status :=
    if failed = 0 then Color.green.paint colored "OK" else Color.red.paint colored "FAIL"
  "Test result: " ++ status ++ " (" ++ toString passed ++ " passed, " ++
    toString failed ++ " failed)"

/-- The end of the report, after all cases were judged. -/
def closing (colored showAll : Bool) (numberOfTests : Nat) (outcomes : List Outcome) : String :=
  let results := (shown showAll outcomes).map (result colored)
  (if results.isEmpty then "" else "\n" ++ String.join results)
    ++ "\n" ++ verdictLine colored numberOfTests outcomes ++ "\n"

end CommandSuite.Report.Summary
