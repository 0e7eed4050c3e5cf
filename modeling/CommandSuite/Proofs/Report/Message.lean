import CommandSuite.Proofs.Report.Diagnostics

/-!
# What a diagnostics block tells

The block of a failure tells the command line and the message. Both are written with every line
behind a margin, blank lines included, so that no more than one final line feed of the message
gets lost when the end of the block is trimmed.

* `toList_diagnosticsBlock`: the text of the block of a failure.
* `readMessage_diagnosticsBlock`: the message is read back from it, whatever the command line is.
* `block_tells_message` puts this together for outcomes.
-/

namespace CommandSuite.Report.Tap

open Text

/-! ## The text of a block -/

/-- The line behind which the message of a block stands. -/
def messageKey : List Char := "  message: |".toList

/-- What stands left of the lines of a message. -/
def messageMargin : List Char := List.replicate 4 ' '

/-- The lines of the block of a failure. -/
theorem splitLines_block (commandLine message : String) :
    splitLines (diagnosticsBlock (diagnostics commandLine message)).toList =
      [opening] ++
        ((splitLines ("command: ".toList ++ commandLine.toList)).map (blockMargin ++ ·) ++
        ([messageKey] ++ ((lines message.toList).map (messageMargin ++ ·) ++ [closing]))) :=
  splitLines_diagnosticsBlock_diagnostics commandLine message

/-- The block of a failure: the command line and the message, each behind its margin, and the
message without the line feed that may end it. -/
theorem toList_diagnosticsBlock {commandLine : String}
    (unended : endsLine ("command: ".toList ++ commandLine.toList) = false) (message : String) :
    (diagnosticsBlock (diagnostics commandLine message)).toList =
      opening ++ '\n' :: (indentChars blockMargin ("command: ".toList ++ commandLine.toList) ++
        '\n' :: (messageKey ++ '\n' ::
          (chomp (indentChars messageMargin message.toList) ++ '\n' :: closing))) := by
  have begins : splitLines opening = [opening] := by decide
  have key : splitLines messageKey = [messageKey] := by decide
  have closes : splitLines closing = [closing] := by decide
  have told : splitLines (chomp (indentChars messageMargin message.toList)) =
      (lines message.toList).map (messageMargin ++ ·) :=
    lines_indentChars (by decide) message.toList
  -- both texts have the same lines
  rw [← joinLines_splitLines (diagnosticsBlock (diagnostics commandLine message)).toList,
    splitLines_block, ← begins, ← splitLines_indentChars (by decide) unended, ← key,
    ← told, ← closes,
    ← splitLines_append_newline, ← splitLines_append_newline, ← splitLines_append_newline,
    ← splitLines_append_newline, joinLines_splitLines]

/-! ## The message of a block -/

/-- The message of a block: what stands behind the last key of a message and before the end of the
block, without the margin. -/
def readMessage (block : String) : String :=
  let behind := ((splitLines block.toList).reverse.takeWhile (· ≠ messageKey)).reverse
  String.ofList (joinLines (behind.dropLast.map (List.drop messageMargin.length)))

/-- No line of a message looks like the key, since it is indented further. -/
theorem margin_append_ne_messageKey (line : List Char) : messageMargin ++ line ≠ messageKey := by
  intro same
  have indented : (messageMargin ++ line)[2]? = some ' ' := rfl
  have third : (messageMargin ++ line)[2]? = messageKey[2]? := congrArg (·[2]?) same
  exact absurd (indented.symm.trans third) (by decide)

/-- The message is read back from a block, but for one line feed at its end. -/
theorem readMessage_diagnosticsBlock (commandLine message : String) :
    readMessage (diagnosticsBlock (diagnostics commandLine message)) =
      String.ofList (chomp message.toList) := by
  let told := (lines message.toList).map (messageMargin ++ ·)
  have behind : (splitLines (diagnosticsBlock (diagnostics commandLine message)).toList).reverse =
      (told ++ [closing]).reverse ++ messageKey :: (opening ::
        (splitLines ("command: ".toList ++ commandLine.toList)).map
          (blockMargin ++ ·)).reverse := by
    rw [splitLines_diagnosticsBlock_diagnostics]
    simp [told]
    rfl
  have others : ∀ line ∈ (told ++ [closing]).reverse, decide (line ≠ messageKey) = true := by
    intro line mem
    rw [List.mem_reverse, List.mem_append, List.mem_singleton] at mem
    rw [decide_eq_true_iff]
    rcases mem with inside | rfl
    · obtain ⟨own, _, rfl⟩ := List.mem_map.1 inside
      exact margin_append_ne_messageKey own
    · decide
  have read : told.map (List.drop messageMargin.length) = lines message.toList := by
    rw [List.map_map]
    conv => rhs; rw [← List.map_id (lines message.toList)]
    exact List.map_congr_left fun line _ => List.drop_left
  rw [readMessage, behind, List.takeWhile_append_of_pos others,
    List.takeWhile_cons_of_neg (by simp), List.append_nil, List.reverse_reverse,
    List.dropLast_concat, read, lines, joinLines_splitLines]

/-! ## Blocks of outcomes -/

/-- The text of a block with the given command and the given lines of a message. -/
def blockText (command told : String) : String :=
  "  ---\n" ++ indent 2 ("command: " ++ command) ++ "\n  message: |\n" ++ told ++ "\n  ..."

theorem diagnosticsBlock_eq_blockText (c : TestCase) (message : String) :
    diagnosticsBlock (diagnostics c.commandLine message) =
      blockText c.commandLine (String.ofList (chomp (indent 4 message).toList)) := by
  have unended : endsLine ("command: ".toList ++ c.commandLine.toList) = false :=
    endsLine_append_commandLine _ (Invocation.words_ne_nil c.invocation)
  have opens : "  ---\n".toList = opening ++ ['\n'] := by decide
  have key : "\n  message: |\n".toList = '\n' :: (messageKey ++ ['\n']) := by decide
  have closes : "\n  ...".toList = '\n' :: closing := by decide
  have command : (indent 2 ("command: " ++ c.commandLine)).toList =
      indentChars blockMargin ("command: ".toList ++ c.commandLine.toList) := by
    rw [toList_indent, String.toList_append]
    rfl
  apply String.toList_inj.1
  rw [toList_diagnosticsBlock unended, blockText, String.toList_append, String.toList_append,
    String.toList_append, String.toList_append, opens, command, key, String.toList_ofList,
    toList_indent, closes, messageMargin]
  simp only [List.append_assoc, List.cons_append, List.nil_append, String.toList_ofList]

theorem blockText_inj {command told told' : String} :
    blockText command told = blockText command told' ↔ told = told' := by
  constructor
  · intro same
    have texts := congrArg String.toList same
    simp only [blockText, String.toList_append] at texts
    exact String.toList_inj.1 (List.append_cancel_left (List.append_cancel_right texts))
  · exact congrArg _

/-- Blank lines at the end of a message are told behind the margin. -/
theorem chomp_indentChars_eq_iff (cs : List Char) :
    chomp (indentChars messageMargin cs) = indentChars messageMargin (chomp cs) ↔
      endsLine (chomp cs) = false := by
  have kept : chomp (indentChars messageMargin cs) =
      joinLines ((lines cs).map (messageMargin ++ ·)) :=
    chomp_indentChars (by decide) cs
  constructor
  · intro same
    have unended : endsLine (chomp (indentChars messageMargin cs)) = false := by
      rw [kept]
      exact endsLine_append_joinLines_margin [] (by decide) (by decide) (chomp cs)
    cases ended : endsLine (chomp cs) with
    | false => rfl
    | true =>
      rw [same, indentChars, writeLines, ended, if_pos rfl,
        endsLine_append _ (List.cons_ne_nil _ _)] at unended
      exact absurd unended (by decide)
  · intro unended
    rw [kept, indentChars, writeLines, unended, if_neg Bool.false_ne_true, List.append_nil, lines,
      lines, chomp_eq_self unended]

/-- The block of a message is the text of the message without its last line feed, indented, unless
the message ends with a blank line, which has its margin in the block. -/
theorem diagnosticsBlock_eq_indented_iff (c : TestCase) (message : String) :
    diagnosticsBlock (diagnostics c.commandLine message) =
        blockText c.commandLine (indent 4 (String.ofList (chomp message.toList))) ↔
      endsLine (chomp message.toList) = false := by
  rw [diagnosticsBlock_eq_blockText, blockText_inj, ← chomp_indentChars_eq_iff,
    ← String.toList_inj, String.toList_ofList, toList_indent, toList_indent, String.toList_ofList,
    messageMargin]

/-- A block is one of its command line and of its message without one line feed at the end. -/
theorem diagnosticsBlock_eq_iff (commandLine commandLine' message message' : String) :
    diagnosticsBlock (diagnostics commandLine message) =
        diagnosticsBlock (diagnostics commandLine' message') ↔
      commandLine = commandLine' ∧ chomp message.toList = chomp message'.toList := by
  constructor
  · intro same
    have read := congrArg readMessage same
    rw [readMessage_diagnosticsBlock, readMessage_diagnosticsBlock, String.ofList_inj] at read
    have lines := congrArg (fun block => splitLines block.toList) same
    simp only [splitLines_block, Text.lines, read] at lines
    have commands := List.append_cancel_right (List.append_cancel_left lines)
    have whole : splitLines ("command: ".toList ++ commandLine.toList) =
        splitLines ("command: ".toList ++ commandLine'.toList) :=
      (List.map_inj_right fun _ _ => List.append_cancel_left).1 commands
    have written := congrArg joinLines whole
    rw [joinLines_splitLines, joinLines_splitLines] at written
    exact ⟨String.toList_inj.1 (List.append_cancel_left written), read⟩
  · rintro ⟨rfl, read⟩
    apply String.toList_inj.1
    rw [← joinLines_splitLines (diagnosticsBlock _).toList,
      ← joinLines_splitLines (diagnosticsBlock (diagnostics commandLine message')).toList,
      splitLines_block, splitLines_block, lines, lines, read]

theorem tail_point {outcome : Outcome} {message : String}
    (failed : outcome.diagnostic = some message) (number width : Nat) :
    (point number width outcome).tail =
      [diagnosticsBlock (diagnostics outcome.case.commandLine message)] := by
  rw [point_of_failed failed]
  rfl

/-- **What a diagnostics block tells.** Behind the line of a failed case its block is printed: the
command line and then the message, every line of it behind its margin, without the line feed that
may end the message. A message that ends with blank lines differs from its text without that line
feed, indented, in the margin of the last one. The message can be read back but for that line
feed, and with it the output; so two failures are told by one block exactly if they have the same
command line and their messages differ in no more than one line feed at the end of each. -/
theorem block_tells_message (outcome : Outcome) (message : String)
    (failed : outcome.diagnostic = some message) :
    ∃ block, (∀ number width, (point number width outcome).tail = [block]) ∧
      block = blockText outcome.case.commandLine
        (String.ofList (chomp (indent 4 message).toList)) ∧
      (block = blockText outcome.case.commandLine
          (indent 4 (String.ofList (chomp message.toList))) ↔
        endsLine (chomp message.toList) = false) ∧
      readMessage block = String.ofList (chomp message.toList) ∧
      (∀ expected got, outcome.failure = some (.mismatch expected got) →
        readMessage block =
          "expected output not found. Got: " ++ String.ofList (chomp got.toList)) ∧
      ∀ outcome' message', outcome'.diagnostic = some message' → ∀ number width,
        (point number width outcome').tail = [block] ↔
          outcome'.case.commandLine = outcome.case.commandLine ∧
            chomp message'.toList = chomp message.toList := by
  refine ⟨diagnosticsBlock (diagnostics outcome.case.commandLine message), tail_point failed,
    diagnosticsBlock_eq_blockText outcome.case message,
    diagnosticsBlock_eq_indented_iff outcome.case message, readMessage_diagnosticsBlock _ message,
    fun expected got mismatched => ?_, fun outcome' message' failed' number width => ?_⟩
  · have told : message = "expected output not found. Got: " ++ got := by
      rw [Outcome.diagnostic, mismatched] at failed
      exact (Option.some.inj failed).symm
    rw [readMessage_diagnosticsBlock, told, String.toList_append,
      chomp_append_of_unended (by decide), String.ofList_append, String.ofList_toList]
  · rw [tail_point failed', List.singleton_inj, diagnosticsBlock_eq_iff]

/-- Leading spaces and all but one of the line feeds at the end of an output are read back. -/
theorem block_tells_message_blank :
    let c : TestCase :=
      { name := "c", description := none, invocation := .script "cat" [], expected := "b" }
    let outcome := judge c { output := "  a\n\n\n", exitCode := some 0, error := none }
    outcome.diagnostic = some "expected output not found. Got:   a\n\n\n" ∧
      ∃ block, (point 1 1 outcome).tail = [block] ∧
        readMessage block = "expected output not found. Got:   a\n\n" := by
  intro c outcome
  have failed : outcome.diagnostic = some "expected output not found. Got:   a\n\n\n" := by
    decide +kernel
  obtain ⟨block, printed, _, _, _, output, _⟩ := block_tells_message outcome _ failed
  refine ⟨failed, block, printed 1 1, (output "b" "  a\n\n\n" (by decide +kernel)).trans ?_⟩
  decide +kernel

/-- The block of a message that ends with a blank line is not the text of the message without its
last line feed, indented: the blank line has its margin. -/
theorem not_told_indented_of_blankLine :
    let c : TestCase :=
      { name := "c", description := none, invocation := .script "echo a; echo" []
        expected := "b" }
    let outcome := judge c { output := "a\n\n", exitCode := some 0, error := none }
    let message := "expected output not found. Got: a\n\n"
    outcome.diagnostic = some message ∧
      (point 1 1 outcome).tail =
        ["  ---\n  command: sh -c 'echo a; echo'\n  message: |\n" ++
          "    expected output not found. Got: a\n    \n  ..."] ∧
      (point 1 1 outcome).tail ≠
        ["  ---\n" ++ indent 2 ("command: " ++ c.commandLine) ++ "\n  message: |\n" ++
          indent 4 (String.ofList (chomp message.toList)) ++ "\n  ..."] := by
  intro c outcome message
  have failed : outcome.diagnostic = some message := by decide +kernel
  have told := tail_point failed 1 1
  refine ⟨failed, ?_, fun same => ?_⟩
  · rw [told, diagnosticsBlock_eq_blockText]
    decide +kernel
  · have indented := (diagnosticsBlock_eq_indented_iff c message).1
      (List.singleton_inj.1 (told.symm.trans same))
    exact absurd indented (by decide +kernel)

end CommandSuite.Report.Tap
