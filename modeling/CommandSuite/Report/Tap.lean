import CommandSuite.Outcome
import CommandSuite.Text.Indent

/-!
# Test Anything Protocol

Lines of the protocol's version 14. Each function gives the texts that are printed one after the
other, each followed by a line feed; a text may itself hold several lines.
-/

namespace CommandSuite.Report.Tap

def versionLine : String := "TAP version 14"

def plan (first last : Nat) : String := toString first ++ ".." ++ toString last

/-- A number with blanks before it, up to the given width. -/
def rightAligned (width n : Nat) : String :=
  String.ofList (List.replicate (width - (toString n).length) ' ') ++ toString n

/-- The line of a test point. -/
def testLine (passed : Bool) (number width : Nat) (description : String) : String :=
  (if passed then "ok     " else "not ok ") ++ rightAligned width number ++ " - " ++ description

/-- A YAML block below a test point. Line feeds at the end of the text are dropped. -/
def diagnosticsBlock (diagnostics : String) : String :=
  Text.indent 2 ("---\n" ++ String.ofList (Text.chompAll diagnostics.toList) ++ "\n...")

/-- A key with a text as a literal block. -/
def yamlLiteral (key value : String) : String := key ++ ": |\n" ++ Text.indent 2 value

/-- A test point that passed. -/
def passedPoint (number width : Nat) (description : String) : List String :=
  [testLine true number width description]

/-- A test point that failed, with its diagnostics if there are any. -/
def failedPoint (number width : Nat) (description diagnostics : String) : List String :=
  testLine false number width description ::
    if diagnostics.isEmpty then [] else [diagnosticsBlock diagnostics]

/-- What a test point says of a case. -/
def caseDescription (c : TestCase) : String :=
  match c.description with
  | some description => c.name ++ " # " ++ description
  | none => c.name

/-- The diagnostics of a failure. -/
def diagnostics (commandLine message : String) : String :=
  "command: " ++ commandLine ++ "\n" ++ yamlLiteral "message" message

/-- The test point of an outcome. -/
def point (number width : Nat) (outcome : Outcome) : List String :=
  match outcome.diagnostic with
  | none => passedPoint number width (caseDescription outcome.case)
  | some message =>
    failedPoint number width (caseDescription outcome.case)
      (diagnostics outcome.case.commandLine message)

theorem point_of_passed {outcome : Outcome} (passed : outcome.diagnostic = none)
    (number width : Nat) :
    point number width outcome = [testLine true number width (caseDescription outcome.case)] := by
  rw [point, passed]
  rfl

theorem diagnostics_isEmpty (commandLine message : String) :
    (diagnostics commandLine message).isEmpty = false := by
  simp [diagnostics]

theorem point_of_failed {outcome : Outcome} {message : String}
    (failed : outcome.diagnostic = some message) (number width : Nat) :
    point number width outcome =
      [testLine false number width (caseDescription outcome.case),
        diagnosticsBlock (diagnostics outcome.case.commandLine message)] := by
  rw [point, failed]
  simp only [failedPoint, diagnostics_isEmpty]
  rfl

/-- A block is its text between the marks of its ends, behind a margin of two spaces. -/
theorem splitLines_diagnosticsBlock (diagnostics : String) :
    Text.splitLines (diagnosticsBlock diagnostics).toList =
      ("---".toList :: (Text.splitLines (Text.chompAll diagnostics.toList) ++ ["...".toList])).map
        ([' ', ' '] ++ ·) := by
  have inside : ("---\n" ++ String.ofList (Text.chompAll diagnostics.toList) ++ "\n...").toList =
      "---".toList ++ '\n' :: (Text.chompAll diagnostics.toList ++ '\n' :: "...".toList) := by
    simp
  have unended : Text.endsLine
      ("---".toList ++ '\n' :: (Text.chompAll diagnostics.toList ++ '\n' :: "...".toList)) =
        false := by
    rw [Text.endsLine_append _ (List.cons_ne_nil _ _), ← List.cons_append,
      Text.endsLine_append _ (List.cons_ne_nil _ _)]
    decide
  have begins : Text.splitLines "---".toList = ["---".toList] := by decide
  have closes : Text.splitLines "...".toList = ["...".toList] := by decide
  rw [diagnosticsBlock, Text.toList_indent, inside,
    Text.splitLines_indentChars (by decide) unended, Text.splitLines_append_newline,
    Text.splitLines_append_newline, begins, closes]
  rfl

end CommandSuite.Report.Tap
