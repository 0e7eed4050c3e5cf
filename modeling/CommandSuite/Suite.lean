import CommandSuite.Suite.Fault
import CommandSuite.Text.Lines
import CommandSuite.Tree

/-!
# Suite files

A suite file holds cases for a compiler. `Suite.casesOf` gives its cases in the order of their
names, or the one error that is reported for the file: that it cannot be read, that its document
is malformed, or the problems of all entries that make no case.
-/

namespace CommandSuite

/-- Why a suite file gives no cases. -/
inductive SuiteError where
  | unreadable (cause : String)
  | malformed (fault : Suite.Fault)
  | invalid (problems : List (String × List Problem))
  deriving Repr

namespace SuiteError

/-- The text that reports the error in one line. -/
def message : SuiteError → String
  | unreadable cause => "failed to read suite file: " ++ cause
  | malformed fault => "failed to parse suite file: " ++ fault.message
  | invalid problems => toString problems.length ++ " invalid test case(s)"

/-- The branches that explain the error. -/
def trees : SuiteError → List Tree
  | unreadable _ => [.leaf ["❌ Failed to read file"]]
  | malformed fault =>
    [.node "❌ Failed to parse suite file" [.leaf (Text.displayLines fault.message)]]
  | invalid problems =>
    [.node "Validation errors" (problems.map fun (name, problems) =>
      .node name (problems.map fun problem => .leaf ["❌ " ++ problem.message]))]

end SuiteError

/-- A tree as it is printed to standard error: with a blank line behind it. -/
def errorReport (heading : String) (trees : List Tree) : String :=
  (Tree.node heading trees).draw ++ "\n"

/-- The report on a suite file that gives no cases. -/
def SuiteError.report (path : String) (error : SuiteError) : String :=
  errorReport ("📋 " ++ path) error.trees

/-- The report of a single message under a heading. -/
def messageReport (heading message : String) : String := errorReport heading [.leaf [message]]

/-- The cases of a suite, or the error that is reported for its file. -/
def Suite.check (config : Config) (suite : Suite) : Except SuiteError (List TestCase) :=
  (suite.cases config).mapError .invalid

/-- The cases of the text of a suite file. -/
def Suite.casesOf (config : Config) (document : String) : Except SuiteError (List TestCase) :=
  match Suite.ofDocument document with
  | .error fault => .error (.malformed fault)
  | .ok suite => suite.check config

end CommandSuite
