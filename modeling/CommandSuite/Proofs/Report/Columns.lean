import CommandSuite.Proofs.Report.Tap
import CommandSuite.Proofs.RunOrder.Notes

/-!
# Columns of test points

The verdict of a test point takes seven columns, whether the case passed or not, and its number
stands at the right end of a field as wide as the number of all tests. No test has a number of
more digits, so the text behind the numbers begins in one column throughout a run.

* `length_rightAligned`: a number fills its field, or is longer than that and shifts what follows.
* `columnOf?_testLine`: the column in which the ` - ` behind a number stands first.
* `separators_in_one_column`: in every run the test lines are those of the outcomes, and they have
  their ` - ` in the column behind the widest number.
-/

namespace CommandSuite

/-! ## Numbers -/

/-- A number is written with no more digits than a greater one. -/
theorem length_toString_le_of_le {m n : Nat} (le : m ≤ n) :
    (toString m).length ≤ (toString n).length := by
  have digits : 0 < n.repr.length := by
    rw [Nat.repr_eq_ofList_toDigits, String.length_ofList]
    exact Nat.length_toDigits_pos
  have bound : n < 10 ^ n.repr.length := (Nat.length_repr_le_iff digits).1 (Nat.le_refl _)
  apply (Nat.length_repr_le_iff digits).2
  omega

namespace Report.Tap

open Text

theorem length_rightAligned (width n : Nat) :
    (rightAligned width n).length = max width (toString n).length := by
  rw [rightAligned, String.length_append, String.length_ofList, List.length_replicate]
  omega

/-! ## The first column of a text -/

/-- What stands between the number of a test point and its text. -/
def separator : List Char := " - ".toList

/-- The first column of a line in which a text stands. -/
def columnOf? (text : List Char) : List Char → Option Nat
  | [] => if text.isEmpty then some 0 else none
  | c :: cs => if text.isPrefixOf (c :: cs) then some 0 else (columnOf? text cs).map (· + 1)

theorem isPrefixOf_separator_append (rest : List Char) :
    separator.isPrefixOf (separator ++ rest) = true :=
  List.isPrefixOf_iff_prefix.2 (List.prefix_append separator rest)

/-- The separator does not begin ahead of itself. -/
theorem not_isPrefixOf_separator_cons (c : Char) {front : List Char} (absent : '-' ∉ front)
    (rest : List Char) : separator.isPrefixOf (c :: (front ++ (separator ++ rest))) = false := by
  have begins : separator = [' ', '-', ' '] := by decide
  cases front with
  | nil => simp [begins, List.isPrefixOf_cons_cons]
  | cons d front =>
    rw [List.mem_cons, not_or] at absent
    simp [begins, List.isPrefixOf_cons_cons, absent.1]

theorem columnOf?_separator {front : List Char} (absent : '-' ∉ front) (rest : List Char) :
    columnOf? separator (front ++ (separator ++ rest)) = some front.length := by
  induction front with
  | nil =>
    have here := isPrefixOf_separator_append rest
    exact if_pos here
  | cons c front ih =>
    rw [List.mem_cons, not_or] at absent
    rw [List.cons_append, columnOf?, not_isPrefixOf_separator_cons c absent.2,
      if_neg Bool.false_ne_true, ih absent.2]
    rfl

/-! ## Test lines -/

/-- The verdict at the front of a test line. -/
def verdictField (passed : Bool) : List Char := (if passed then "ok     " else "not ok ").toList

theorem length_verdictField (passed : Bool) : (verdictField passed).length = 7 := by
  cases passed <;> decide

theorem toList_testLine_eq_fields (passed : Bool) (number width : Nat) (description : String) :
    (testLine passed number width description).toList =
      verdictField passed ++ (rightAligned width number).toList ++
        (separator ++ description.toList) := by
  rw [toList_testLine, pointHead, List.append_assoc]
  rfl

theorem dash_notMem_rightAligned (width n : Nat) : '-' ∉ (rightAligned width n).toList := by
  rw [rightAligned, String.toList_append, String.toList_ofList, List.mem_append, not_or]
  constructor
  · intro mem
    exact absurd (List.eq_of_mem_replicate mem) (by decide)
  · intro mem
    exact absurd (Summary.isDigit_of_mem_toString mem) (by decide)

/-- A number that is too long for its field shifts the text behind it. -/
theorem columnOf?_testLine (passed : Bool) (number width : Nat) (description : String) :
    columnOf? separator (testLine passed number width description).toList =
      some (7 + max width (toString number).length) := by
  have absent : '-' ∉ verdictField passed ++ (rightAligned width number).toList := by
    rw [List.mem_append, not_or]
    refine ⟨?_, dash_notMem_rightAligned width number⟩
    cases passed <;> decide
  rw [toList_testLine_eq_fields, columnOf?_separator absent, List.length_append,
    length_verdictField, String.length_toList, length_rightAligned]

/-- A line has the columns of a test point: seven for the verdict, as many as the width says for
the number, which is written in full at their right end, and then the first ` - ` of the line. -/
structure HasColumns (line : List Char) (passed : Bool) (number width : Nat) : Prop where
  verdict : line.take 7 = (if passed then "ok     " else "not ok ").toList
  filled : ((line.drop 7).take width).length = width
  right : ∃ blanks,
    (line.drop 7).take width = List.replicate blanks ' ' ++ (toString number).toList
  text : columnOf? separator line = some (7 + width)

/-- A test line has its columns exactly if the number is not too long for them. -/
theorem hasColumns_testLine_iff (passed : Bool) (number width : Nat) (description : String) :
    HasColumns (testLine passed number width description).toList passed number width ↔
      (toString number).length ≤ width := by
  have column := columnOf?_testLine passed number width description
  constructor
  · intro columns
    have same := Option.some.inj (column.symm.trans columns.text)
    omega
  · intro fits
    have filled : (rightAligned width number).toList.length = width := by
      rw [String.length_toList, length_rightAligned]
      omega
    have fields := toList_testLine_eq_fields passed number width description
    rw [List.append_assoc] at fields
    have verdict :
        (testLine passed number width description).toList.take 7 = verdictField passed := by
      rw [fields, ← length_verdictField passed, List.take_left]
    have field : ((testLine passed number width description).toList.drop 7).take width =
        (rightAligned width number).toList := by
      rw [fields, ← length_verdictField passed, List.drop_left, List.take_left' filled]
    refine ⟨verdict, by rw [field, filled], ?_, ?_⟩
    · exact ⟨width - (toString number).length, by
        rw [field, rightAligned, String.toList_append, String.toList_ofList]⟩
    · rw [column, Nat.max_eq_left fits]

/-! ## Prints -/

/-- What is printed begins with a verdict. -/
def beginsWithVerdict (print : String) : Bool :=
  "ok".toList.isPrefixOf print.toList || "not ok".toList.isPrefixOf print.toList

/-- The test line of the outcome at an index, as it is printed. -/
def printedLine (width index : Nat) (outcome : Outcome) : String :=
  ReportStyle.line (testLine outcome.passed (index + 1) width (caseDescription outcome.case))

theorem printedLine_eq_testLine (width index : Nat) (outcome : Outcome) :
    printedLine width index outcome =
      testLine outcome.passed (index + 1) width (caseDescription outcome.case ++ "\n") := by
  unfold printedLine ReportStyle.line testLine
  rw [String.append_assoc]

theorem beginsWithVerdict_printedLine (width index : Nat) (outcome : Outcome) :
    beginsWithVerdict (printedLine width index outcome) = true := by
  unfold beginsWithVerdict
  rw [printedLine_eq_testLine, toList_testLine, pointHead]
  cases outcome.passed <;> simp

/-- A diagnostics block begins with its margin. -/
theorem not_beginsWithVerdict_diagnosticsBlock (diagnostics : String) :
    beginsWithVerdict (ReportStyle.line (diagnosticsBlock diagnostics)) = false := by
  obtain ⟨rest, margin⟩ := prefix_indentChars (List.replicate 2 ' ')
    ("---\n" ++ String.ofList (chompAll diagnostics.toList) ++ "\n...").toList
  unfold beginsWithVerdict
  rw [ReportStyle.line, String.toList_append, diagnosticsBlock, toList_indent, ← margin]
  rfl

variable {style : ReportStyle} (tap : style.format = .tap)

include tap

/-- A case prints one test line, and nothing else that begins with a verdict. -/
theorem casePrints_eq_cons (index : Nat) (outcome : Outcome) :
    ∃ blocks,
      style.casePrints index outcome = printedLine style.numberWidth index outcome :: blocks ∧
      ∀ block ∈ blocks, beginsWithVerdict block = false := by
  obtain ⟨blocks, split, diagnostics⟩ := point_eq (index + 1) style.numberWidth outcome
  refine ⟨blocks.map ReportStyle.line, ?_, ?_⟩
  · unfold ReportStyle.casePrints
    rw [tap]
    dsimp only
    rw [split, List.map_cons]
    rfl
  · intro print mem
    obtain ⟨block, isBlock, rfl⟩ := List.mem_map.1 mem
    obtain ⟨told, rfl⟩ := diagnostics block isBlock
    exact not_beginsWithVerdict_diagnosticsBlock told

theorem filter_casePrints (index : Nat) (outcome : Outcome) :
    (style.casePrints index outcome).filter beginsWithVerdict =
      [printedLine style.numberWidth index outcome] := by
  obtain ⟨blocks, split, none⟩ := casePrints_eq_cons tap index outcome
  have others : blocks.filter beginsWithVerdict = [] := by
    rw [List.filter_eq_nil_iff]
    intro block mem
    rw [none block mem]
    exact Bool.false_ne_true
  rw [split, List.filter_cons_of_pos (beginsWithVerdict_printedLine _ _ _), others]

/-- No verdict is printed ahead of the cases. -/
theorem filter_beginning : style.beginning.filter beginsWithVerdict = [] := by
  have version : beginsWithVerdict (ReportStyle.line versionLine) = false := by decide +kernel
  have planned : beginsWithVerdict (ReportStyle.line (plan 1 style.numberOfTests)) = false := by
    have one : (toString 1).toList = ['1'] := by decide
    unfold beginsWithVerdict
    rw [ReportStyle.line, plan, String.toList_append, String.toList_append,
      String.toList_append, one]
    rfl
  unfold ReportStyle.beginning
  rw [tap]
  simp only [List.filter_cons, version, planned, if_neg Bool.false_ne_true, List.filter_nil]

omit tap

/-! ## Runs -/

/-- In whatever order the cases run, the test lines of a run are those of its outcomes. -/
theorem exists_testLines_runCases {σ : Type} (registry : Registry) (arguments : Arguments)
    (colored : Bool) (schedule : List Nat) (execute : Executor (StateM σ)) (start : σ) :
    ∃ (ending : Ending) (outcomes : List Outcome) (last : σ),
      (Program.runCases schedule { arguments with tap := true } colored registry
        execute).run start = (ending, last) ∧
      outcomes.map Outcome.case = registry.cases ∧
      (ending.stdout.filter beginsWithVerdict).Perm
        (outcomes.mapIdx (printedLine (toString registry.size).length)) := by
  let style : ReportStyle :=
    { numberOfTests := registry.size, format := .tap, colored := colored && !arguments.noColor }
  obtain ⟨outcomes, told, last, run, same, each⟩ :=
    registry.interleaves_runAll (arguments.runOrder schedule) execute style.casePrints start
  refine ⟨Program.finish style (told.map Prod.snd) outcomes, outcomes, last, run_bind_of_run run,
    same, ?_⟩
  have all : (told.map Prod.snd).Perm (outcomes.mapIdx style.casePrints).flatten := by
    rw [← map_snd_oneByOne 0]
    exact (each.perm (interleaves_oneByOne _)).map Prod.snd
  have own : (outcomes.mapIdx style.casePrints).flatten.filter beginsWithVerdict =
      outcomes.mapIdx (printedLine style.numberWidth) := by
    have tap : style.format = .tap := rfl
    rw [List.filter_flatten, ← flatten_mapIdx_singleton (printedLine style.numberWidth),
      List.mapIdx_eq_zipIdx_map, List.mapIdx_eq_zipIdx_map, List.map_map]
    simp only [Function.comp_def, filter_casePrints tap]
  have stdout : (Program.finish style (told.map Prod.snd) outcomes).stdout =
      style.beginning ++ told.map Prod.snd := List.append_nil _
  rw [stdout, List.filter_append, filter_beginning rfl, List.nil_append]
  exact (all.filter _).trans (.of_eq own)

/-- **One column for all separators.** A case prints one test line. Its number fills the field
from the right exactly if it has no more digits than the number of tests, and so for every index
of a test. In a run of all cases of a registry, in whatever order they run and whatever the
commands do, the test lines are those of the outcomes, and each has its ` - ` in the column behind
the widest number. -/
theorem separators_in_one_column :
    (∀ style : ReportStyle, style.format = .tap → ∀ index outcome,
      let width := (toString style.numberOfTests).length
      let line := printedLine width index outcome
      (∃ blocks, style.casePrints index outcome = line :: blocks ∧
        ∀ block ∈ blocks, beginsWithVerdict block = false) ∧
      (HasColumns line.toList outcome.passed (index + 1) width ↔
        (toString (index + 1)).length ≤ width) ∧
      (index < style.numberOfTests → HasColumns line.toList outcome.passed (index + 1) width)) ∧
    ∀ {σ : Type} (registry : Registry) (arguments : Arguments) (colored : Bool)
      (schedule : List Nat) (execute : Executor (StateM σ)) (start : σ),
      let width := (toString registry.size).length
      ∃ (ending : Ending) (outcomes : List Outcome) (last : σ),
        (Program.runCases schedule { arguments with tap := true } colored registry
          execute).run start = (ending, last) ∧
        outcomes.map Outcome.case = registry.cases ∧
        (ending.stdout.filter beginsWithVerdict).Perm (outcomes.mapIdx (printedLine width)) ∧
        ∀ print ∈ ending.stdout, beginsWithVerdict print →
          columnOf? separator print.toList = some (7 + width) := by
  constructor
  · intro style tap index outcome width line
    have exactly : HasColumns line.toList outcome.passed (index + 1) width ↔
        (toString (index + 1)).length ≤ width := by
      simp only [line, printedLine_eq_testLine]
      exact hasColumns_testLine_iff _ _ _ _
    exact ⟨casePrints_eq_cons tap index outcome, exactly,
      fun inRange => exactly.2 (length_toString_le_of_le inRange)⟩
  · intro σ registry arguments colored schedule execute start width
    obtain ⟨ending, outcomes, last, run, same, testLines⟩ :=
      exists_testLines_runCases registry arguments colored schedule execute start
    refine ⟨ending, outcomes, last, run, same, testLines, fun print mem begins => ?_⟩
    have size : outcomes.length = registry.size := by
      rw [← List.length_map Outcome.case, same, Registry.size]
    have isTestLine := testLines.mem_iff.1 (List.mem_filter.2 ⟨mem, begins⟩)
    obtain ⟨index, inRange, rfl⟩ := List.mem_mapIdx.1 isTestLine
    have fits : (toString (index + 1)).length ≤ width := length_toString_le_of_le (by omega)
    rw [printedLine_eq_testLine, columnOf?_testLine, Nat.max_eq_left fits]

/-- The last number of one digit and the first of two, with a name that has a ` - ` of its own;
and two cases that run at the same time, with another output at each call. -/
theorem separators_in_one_column_ten :
    let style : ReportStyle := { numberOfTests := 10, format := .tap, colored := false }
    let c : TestCase :=
      { name := "a - b", description := none, invocation := .script "true" [], expected := "hi" }
    let judged := fun output => judge c { output, exitCode := some 0, error := none }
    let counting :=
      replaying fun call => { output := toString call, exitCode := some 0, error := none }
    style.format = .tap ∧ 8 < style.numberOfTests ∧ 9 < style.numberOfTests ∧
      (∃ blocks, style.casePrints 8 (judged "") = "not ok  9 - a - b\n" :: blocks) ∧
      HasColumns "not ok  9 - a - b\n".toList false 9 2 ∧
      (∃ blocks, style.casePrints 9 (judged "hi") = "ok     10 - a - b\n" :: blocks) ∧
      HasColumns "ok     10 - a - b\n".toList true 10 2 ∧
      ∃ ending last,
        (Program.runCases [1, 0, 1] { tap := true, parallel := true } false
          (Registry.withBuiltin {}) counting).run 0 = (ending, last) ∧
        (ending.stdout.filter beginsWithVerdict).length = 2 ∧
        ∀ print ∈ ending.stdout, beginsWithVerdict print →
          columnOf? separator print.toList = some 8 := by
  intro style c judged counting
  have width : (toString style.numberOfTests).length = 2 := by decide
  have nine : printedLine 2 8 (judged "") = "not ok  9 - a - b\n" := by decide +kernel
  have ten : printedLine 2 9 (judged "hi") = "ok     10 - a - b\n" := by decide +kernel
  obtain ⟨lines, runs⟩ := separators_in_one_column
  have fails : (judged "").passed = false := by decide +kernel
  have passes : (judged "hi").passed = true := by decide +kernel
  have ninth := lines style rfl 8 (judged "")
  have tenth := lines style rfl 9 (judged "hi")
  simp only [width, nine, fails] at ninth
  simp only [width, ten, passes] at tenth
  obtain ⟨⟨blocks, printed, _⟩, _, columns⟩ := ninth
  obtain ⟨⟨blocks', printed', _⟩, _, columns'⟩ := tenth
  obtain ⟨ending, outcomes, last, run, same, testLines, aligned⟩ :=
    runs (Registry.withBuiltin {}) { parallel := true } false [1, 0, 1] counting 0
  refine ⟨rfl, by decide, by decide, ⟨blocks, printed⟩, columns (by decide), ⟨blocks', printed'⟩,
    columns' (by decide), ending, last, run, ?_, aligned⟩
  rw [testLines.length_eq, List.length_mapIdx, ← List.length_map Outcome.case, same]
  rfl

end Report.Tap

end CommandSuite
