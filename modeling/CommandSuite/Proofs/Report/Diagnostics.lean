import CommandSuite.Proofs.CommandLine.Lines
import CommandSuite.Report.Tap

/-!
# Ends of diagnostics blocks

A diagnostics block tells the command line and the message of a failure. It ends at the line of
three dots. The message is a literal block, so each of its lines is indented once more; the
command line stands behind its key as it is, and a line feed in it starts a line of the block.

* `splitLines_diagnosticsBlock_diagnostics`: the lines of the block of a failure.
* `closes_once_iff`: the block is closed only at its end exactly if no word of the command has a
  line of three dots between its first and its last line, whatever the message is.
-/

namespace CommandSuite.Report.Tap

open Text

/-! ## The lines of a block -/

/-- What stands left of the lines of a block. -/
def blockMargin : List Char := [' ', ' ']

/-- The line that begins a block. -/
def opening : List Char := "  ---".toList

/-- The line that ends a block. -/
def closing : List Char := "  ...".toList

/-- The diagnostics of a failure end with the message, of which one final line feed is dropped. -/
theorem chompAll_diagnostics (commandLine message : String) :
    chompAll (diagnostics commandLine message).toList =
      ("command: ".toList ++ commandLine.toList) ++ '\n' :: ("message: |".toList ++ '\n' ::
        joinLines ((lines message.toList).map (blockMargin ++ ·))) := by
  let head := ("command: ".toList ++ commandLine.toList) ++ '\n' ::
      ("message: |".toList ++ ['\n'])
  let body := head ++ joinLines ((lines message.toList).map (blockMargin ++ ·))
  have written : (diagnostics commandLine message).toList =
      body ++ if endsLine message.toList then ['\n'] else [] := by
    simp [diagnostics, yamlLiteral, toList_indent, indentChars, writeLines, body,
      head, blockMargin]
  have kept : chompAll body = body := chompAll_eq_self
    (endsLine_append_joinLines_margin head (by decide) (by decide) (chomp message.toList))
  have chomped : chompAll (diagnostics commandLine message).toList = body := by
    rw [written]
    split
    · rw [chompAll_concat_newline, kept]
    · rw [List.append_nil, kept]
  rw [chomped]
  simp [body, head]

/-- The lines of the block of a failure. -/
theorem splitLines_diagnosticsBlock_diagnostics (commandLine message : String) :
    splitLines (diagnosticsBlock (diagnostics commandLine message)).toList =
      opening :: ((splitLines ("command: ".toList ++ commandLine.toList)).map
        (blockMargin ++ ·) ++
        "  message: |".toList ::
          ((lines message.toList).map (fun line => blockMargin ++ (blockMargin ++ line)) ++
            [closing])) := by
  have key : splitLines "message: |".toList = ["message: |".toList] := by decide
  have literal : splitLines (joinLines ((lines message.toList).map (blockMargin ++ ·))) =
      (lines message.toList).map (blockMargin ++ ·) := by
    rw [lines, splitLines_joinLines_margin (by decide)]
  rw [splitLines_diagnosticsBlock, chompAll_diagnostics, splitLines_append_newline,
    splitLines_append_newline, key, literal]
  simp only [List.map_append, List.map_map, List.map_cons, List.append_assoc,
    List.cons_append]
  rfl

/-! ## The end of a block -/

/-- Three dots, which end a block behind its margin. -/
def dots : List Char := "...".toList

theorem closing_eq : closing = blockMargin ++ dots := rfl

theorem count_map_margin (line : List Char) (ls : List (List Char)) :
    (ls.map (blockMargin ++ ·)).count (blockMargin ++ line) = ls.count line := by
  induction ls with
  | nil => rfl
  | cons l ls ih => simp [List.count_cons, ih]

/-- Lines of a message are indented further than the end of the block. -/
theorem count_closing_message (ls : List (List Char)) :
    (ls.map fun line => blockMargin ++ (blockMargin ++ line)).count closing = 0 := by
  rw [List.count_eq_zero]
  intro mem
  obtain ⟨line, _, same⟩ := List.mem_map.1 mem
  have head := congrArg List.head? (List.append_cancel_left (same.trans closing_eq))
  revert head
  simp [blockMargin, dots]

/-- A block is closed at its end, and at the lines of three dots that its command line starts. -/
theorem count_closing (commandLine message : String) :
    (splitLines (diagnosticsBlock (diagnostics commandLine message)).toList).count closing =
      (splitLines commandLine.toList).tail.count dots + 1 := by
  obtain ⟨first, later, split⟩ := exists_splitLines_eq_cons commandLine.toList
  have keyed : splitLines ("command: ".toList ++ commandLine.toList) =
      ("command: ".toList ++ first) :: later := splitLines_append_of_notMem (by decide) split
  have named : ("command: ".toList ++ first == dots) = false := by
    rw [beq_eq_false_iff_ne]
    intro same
    have first := congrArg List.head? same
    revert first
    simp [dots]
  have opened : (opening == closing) = false := by decide
  have labelled : ("  message: |".toList == closing) = false := by decide
  have closed : [closing].count closing = 1 := by decide
  rw [splitLines_diagnosticsBlock_diagnostics, List.count_cons, List.count_append, closing_eq,
    count_map_margin, ← closing_eq, List.count_cons, List.count_append,
    count_closing_message, closed,
    keyed, List.count_cons, named, opened, labelled, split]
  simp

/-- **The end of a diagnostics block.** The block of a failure begins with its opening line and
ends with its closing line. No message can close it before its end; a command line does exactly if
a word of the command has a line of three dots between its first and its last line. -/
theorem closes_once_iff (outcome : Outcome) (message : String)
    (failed : outcome.diagnostic = some message) (number width : Nat) :
    ∃ block, point number width outcome =
        [testLine false number width (caseDescription outcome.case), block] ∧
      (splitLines block.toList).head? = some "  ---".toList ∧
      (splitLines block.toList).getLast? = some "  ...".toList ∧
      ((splitLines block.toList).count "  ...".toList = 1 ↔
        ∀ word ∈ outcome.case.invocation.words, "...".toList ∉ innerLines word.toList) ∧
      ((∀ word ∈ outcome.case.invocation.words, '\n' ∉ word.toList) →
        (splitLines block.toList).count "  ...".toList = 1) := by
  have lines := splitLines_diagnosticsBlock_diagnostics outcome.case.commandLine message
  have once : (splitLines (diagnosticsBlock
      (diagnostics outcome.case.commandLine message)).toList).count closing = 1 ↔
      ∀ word ∈ outcome.case.invocation.words, dots ∉ innerLines word.toList := by
    rw [count_closing, Nat.add_eq_right, List.count_eq_zero, TestCase.commandLine,
      Invocation.display, mem_tail_splitLines_commandLine_iff (by decide) (by decide)]
    simp
  refine ⟨_, point_of_failed failed number width, by rw [lines]; rfl, ?_, once, fun whole => ?_⟩
  · have regroup (first key last : List Char) (command text : List (List Char)) :
        first :: (command ++ key :: (text ++ [last])) =
          (first :: (command ++ key :: text)) ++ [last] := by
      simp
    rw [lines, regroup, List.getLast?_concat]
    rfl
  · refine once.2 fun word isWord mem => ?_
    rw [innerLines_eq_nil (whole word isWord)] at mem
    cases mem

/-- A message of three dots does not close the block, and a script that ends with three dots
neither. -/
theorem closes_once_iff_message :
    let c : TestCase :=
      { name := "c", description := none, invocation := .script "cat\n..." [], expected := "hi" }
    let outcome := judge c { output := "a\n...\n", exitCode := some 0, error := none }
    outcome.diagnostic = some "expected output not found. Got: a\n...\n" ∧
      ∃ block, point 1 1 outcome = ["not ok 1 - c", block] ∧
        (splitLines block.toList).count "  ...".toList = 1 := by
  intro c outcome
  have failed : outcome.diagnostic = some "expected output not found. Got: a\n...\n" := by
    decide +kernel
  obtain ⟨block, printed, _, _, once, _⟩ := closes_once_iff outcome _ failed 1 1
  have line : testLine false 1 1 (caseDescription outcome.case) = "not ok 1 - c" := by
    decide +kernel
  rw [line] at printed
  exact ⟨failed, block, printed, once.2 (by decide +kernel)⟩

/-- A script with a line of three dots closes the block of its case early. -/
theorem not_closes_once_of_script :
    let c : TestCase :=
      { name := "c", description := none, invocation := .script "cat <<...\nhi\n...\ntrue" []
        expected := "bye" }
    let outcome := judge c { output := "hi\n", exitCode := some 0, error := none }
    ∃ block, point 1 1 outcome = ["not ok 1 - c", block] ∧
      splitLines block.toList =
        ["  ---".toList, "  command: sh -c 'cat <<...".toList, "  hi".toList, "  ...".toList,
          "  true'".toList, "  message: |".toList,
          "    expected output not found. Got: hi".toList, "  ...".toList] ∧
      (splitLines block.toList).count "  ...".toList = 2 := by
  intro c outcome
  have failed : outcome.diagnostic = some "expected output not found. Got: hi\n" := by
    decide +kernel
  have line : testLine false 1 1 (caseDescription outcome.case) = "not ok 1 - c" := by
    decide +kernel
  let message := "expected output not found. Got: hi\n"
  let block := diagnosticsBlock (diagnostics outcome.case.commandLine message)
  have lines : splitLines block.toList =
      ["  ---".toList, "  command: sh -c 'cat <<...".toList, "  hi".toList, "  ...".toList,
        "  true'".toList, "  message: |".toList,
        "    expected output not found. Got: hi".toList, "  ...".toList] := by
    rw [splitLines_diagnosticsBlock_diagnostics]
    decide +kernel
  refine ⟨block, ?_, lines, by rw [lines]; decide +kernel⟩
  rw [point_of_failed failed, line]

end CommandSuite.Report.Tap
