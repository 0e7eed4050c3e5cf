import CommandSuite.Report
import CommandSuite.Text.Lines

/-!
# The verdict of a summary

A summary is told the number of tests and counts those that passed itself; the number of those
that failed is the difference. For the outcomes of all tests this is no truncated difference
(`passedCount_add_failedCount`), and `verdictLine_eq` writes the verdict with both counts, the
verdict being that all passed if no outcome failed. `getLast?_lines_printsAround` finds the
verdict at the end of all that a run prints.
-/

namespace CommandSuite

namespace Report.Summary

/-- The number of outcomes that did not pass. -/
def failedCount (outcomes : List Outcome) : Nat := outcomes.countP fun outcome => !outcome.passed

theorem passedCount_add_failedCount (outcomes : List Outcome) :
    passedCount outcomes + failedCount outcomes = outcomes.length := by
  rw [passedCount, failedCount, List.length_eq_countP_add_countP Outcome.passed]
  simp

theorem failedCount_eq_zero_iff (outcomes : List Outcome) :
    failedCount outcomes = 0 ↔ allPassed outcomes := by
  simp [failedCount, allPassed]

/-- The word of the verdict. -/
def verdict (colored passed : Bool) : String :=
  if passed then Color.green.paint colored "OK" else Color.red.paint colored "FAIL"

/-- The verdict of the outcomes of all tests names both counts. -/
theorem verdictLine_eq (colored : Bool) (outcomes : List Outcome) :
    verdictLine colored outcomes.length outcomes =
      "Test result: " ++ verdict colored (allPassed outcomes) ++ " (" ++
        toString (passedCount outcomes) ++ " passed, " ++
        toString (failedCount outcomes) ++ " failed)" := by
  have difference : outcomes.length - passedCount outcomes = failedCount outcomes :=
    Nat.sub_eq_of_eq_add' (passedCount_add_failedCount outcomes).symm
  unfold verdictLine
  simp only [verdict, difference, failedCount_eq_zero_iff]

theorem isDigit_of_mem_toString {n : Nat} {c : Char} (mem : c ∈ (toString n).toList) :
    c.isDigit := by
  rw [Nat.toString_eq_ofList_toDigits, String.toList_ofList] at mem
  exact Nat.isDigit_of_mem_toDigits (by decide) (Nat.le_refl 10) mem

/-- Numbers are written within a line. -/
theorem newline_notMem_toString (n : Nat) : '\n' ∉ (toString n).toList :=
  fun mem => absurd (isDigit_of_mem_toString mem) (by decide)

/-- The verdict is one line. -/
theorem newline_notMem_verdictLine (colored : Bool) (numberOfTests : Nat)
    (outcomes : List Outcome) :
    '\n' ∉ (verdictLine colored numberOfTests outcomes).toList := by
  have word : ∀ colored, '\n' ∉ (Color.green.paint colored "OK").toList ∧
      '\n' ∉ (Color.red.paint colored "FAIL").toList := by decide +kernel
  unfold verdictLine
  simp only [String.toList_append, List.mem_append, not_or]
  refine ⟨⟨⟨⟨⟨⟨by decide, ?_⟩, by decide⟩, newline_notMem_toString _⟩, by decide⟩,
    newline_notMem_toString _⟩, by decide⟩
  split
  · exact (word colored).1
  · exact (word colored).2

/-- The report ends with the line of the verdict. -/
theorem closing_eq (colored showAll : Bool) (numberOfTests : Nat) (outcomes : List Outcome) :
    ∃ results, closing colored showAll numberOfTests outcomes =
      results ++ "\n" ++ verdictLine colored numberOfTests outcomes ++ "\n" :=
  ⟨_, rfl⟩

end Report.Summary

namespace ReportStyle

open Report.Summary

/-- The last line that a summary prints is the verdict, whatever was told before. -/
theorem getLast?_lines_printsAround {style : ReportStyle} {showAll : Bool}
    (summary : style.format = .summary showAll) (told : List String) (outcomes : List Outcome) :
    (Text.lines (String.join (style.printsAround told outcomes)).toList).getLast? =
      some (verdictLine style.colored style.numberOfTests outcomes).toList := by
  have closing : style.closing outcomes =
      [Report.Summary.closing style.colored showAll style.numberOfTests outcomes] := by
    rw [ReportStyle.closing, summary]
  obtain ⟨results, ending⟩ := closing_eq style.colored showAll style.numberOfTests outcomes
  rw [printsAround, closing, ending, String.join_append, String.join_cons, String.join_nil]
  have line := Text.getLast?_lines
    ((String.join (style.beginning ++ told)).toList ++ results.toList)
    (newline_notMem_verdictLine style.colored style.numberOfTests outcomes)
  simpa [String.toList_append] using line

end ReportStyle

end CommandSuite
