import CommandSuite.Registry
import CommandSuite.Report.Summary
import CommandSuite.Report.Tap

/-!
# Reports

A report is printed in three stages: a beginning, the prints of each case as it is judged, and a
closing. Each print is one text that goes out as a whole, so that prints of cases that are judged
at the same time may stand in any order, but not inside each other.
-/

namespace CommandSuite

/-- The form of a report. -/
inductive ReportFormat where
  | summary (showAll : Bool)
  | tap
  deriving Repr, DecidableEq

/-- How a run is reported. -/
structure ReportStyle where
  numberOfTests : Nat
  format : ReportFormat
  colored : Bool
  deriving Repr, DecidableEq

namespace ReportStyle

/-- A text printed as a line. -/
def line (s : String) : String := s ++ "\n"

/-- The prints before any case is judged. -/
def beginning (style : ReportStyle) : List String :=
  match style.format with
  | .summary _ => [line (Report.Summary.startLine style.numberOfTests)]
  | .tap => [line Report.Tap.versionLine, line (Report.Tap.plan 1 style.numberOfTests)]

/-- The width of the numbers of test points. -/
def numberWidth (style : ReportStyle) : Nat := (toString style.numberOfTests).length

/-- The prints of the case at an index, once it is judged. -/
def casePrints (style : ReportStyle) (index : Nat) (outcome : Outcome) : List String :=
  match style.format with
  | .summary _ => [line (Report.Summary.caseLine style.colored outcome)]
  | .tap => (Report.Tap.point (index + 1) style.numberWidth outcome).map line

/-- The prints after all cases are judged. -/
def closing (style : ReportStyle) (outcomes : List Outcome) : List String :=
  match style.format with
  | .summary showAll =>
    [Report.Summary.closing style.colored showAll style.numberOfTests outcomes]
  | .tap => []

/-- The prints of a run during which `told` was printed. -/
def printsAround (style : ReportStyle) (told : List String) (outcomes : List Outcome) :
    List String :=
  style.beginning ++ told ++ style.closing outcomes

/-- The prints of a run in which the cases are judged one after the other. -/
def prints (style : ReportStyle) (outcomes : List Outcome) : List String :=
  style.printsAround (outcomes.mapIdx style.casePrints).flatten outcomes

end ReportStyle

end CommandSuite
