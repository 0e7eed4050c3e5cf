import CommandSuite.Proofs.Verdict
import CommandSuite.Report.OutcomeTree

/-!
# What a mismatch shows

A mismatch is explained by two frames, one around the expected text and one around the output. A
leaf holds them as lines for display, and such a line has no carriage return at its end, although
the search for the expected text takes a carriage return for a character like others.

* `splitLines_frame`: the lines of a frame are its top, the lines of the text behind their margin,
  and its bottom. Neither top nor bottom ends with a carriage return, so only lines of the text
  can lose one.
* `mismatch_shows_iff`: a mismatch shows a text in full exactly if none of its lines ends with a
  carriage return, and two texts look the same exactly if they differ in nothing but carriage
  returns at the ends of lines.
-/

namespace CommandSuite.Report

open Text

/-! ## The lines of a frame -/

def frameTop : List Char := "╭".toList

def frameMargin : List Char := "│ ".toList

/-- The bottom of a frame tells whether the text ends with a line feed. -/
def frameBottom (ended : Bool) : List Char :=
  if ended then "╰".toList else "╰ (No newline at end)".toList

theorem toList_lineFeed : "\n".toList = ['\n'] := by decide

theorem toList_frame (s : String) :
    (frame s).toList = frameTop ++ '\n' ::
      (joinLines ((lines s.toList).map (frameMargin ++ ·)) ++ '\n' ::
        frameBottom (endsLine s.toList)) := by
  rw [frame, String.toList_append, String.toList_append, toList_indentWith,
    indentChars, writeLines]
  cases endsLine s.toList <;> simp [frameTop, frameMargin, frameBottom]

theorem splitLines_frame (s : String) :
    splitLines (frame s).toList =
      frameTop :: ((lines s.toList).map (frameMargin ++ ·) ++
        [frameBottom (endsLine s.toList)]) := by
  have top : splitLines frameTop = [frameTop] := splitLines_eq_singleton (by decide)
  have bottom (ended : Bool) : splitLines (frameBottom ended) = [frameBottom ended] :=
    splitLines_eq_singleton (by cases ended <;> decide)
  have inside : splitLines (joinLines ((lines s.toList).map (frameMargin ++ ·))) =
      (lines s.toList).map (frameMargin ++ ·) := by
    rw [lines, splitLines_joinLines_margin (by decide)]
  rw [toList_frame, splitLines_append_newline, splitLines_append_newline, top, inside, bottom,
    List.singleton_append]

/-! ## The rows of a frame -/

/-- The rows in which a report shows a framed text. -/
def frameRows (s : String) : List String :=
  ((splitLines (frame s).toList).map dropReturn).map String.ofList

theorem dropReturn_frameBottom (ended : Bool) :
    dropReturn (frameBottom ended) = frameBottom ended :=
  dropReturn_eq_self_iff.2 (by cases ended <;> decide)

/-- What is shown of the lines of a frame. -/
theorem map_dropReturn_frame (s : String) :
    (splitLines (frame s).toList).map dropReturn =
      frameTop :: (((lines s.toList).map dropReturn).map (frameMargin ++ ·) ++
        [frameBottom (endsLine s.toList)]) := by
  have behind : dropReturn ∘ (frameMargin ++ ·) = (frameMargin ++ ·) ∘ dropReturn :=
    funext fun line => dropReturn_append (by decide) line
  rw [splitLines_frame, List.map_cons, List.map_append, List.map_map, behind, List.map_singleton,
    dropReturn_frameBottom, List.map_map]
  rfl

/-- The last line of a frame is its bottom, so all its lines are displayed. -/
theorem displayPieces_frame (s : String) :
    displayPieces (splitLines (frame s).toList) =
      (splitLines (frame s).toList).map dropReturn := by
  have bottom : (frameBottom (endsLine s.toList)).isEmpty = false := by
    cases endsLine s.toList <;> rfl
  rw [splitLines_frame, ← List.cons_append, displayPieces_concat, bottom,
    if_neg Bool.false_ne_true, List.map_append, List.map_singleton, dropReturn_frameBottom]

theorem framedLeaf_eq {heading : String} (oneLine : '\n' ∉ heading.toList)
    (kept : heading.toList.getLast? ≠ some '\r') (s : String) :
    framedLeaf heading s = .leaf (heading :: frameRows s) := by
  have split : splitLines (heading ++ "\n" ++ frame s).toList =
      heading.toList :: splitLines (frame s).toList := by
    rw [String.toList_append, String.toList_append, toList_lineFeed, List.append_assoc,
      List.singleton_append, splitLines_append_newline, splitLines_eq_singleton oneLine,
      List.singleton_append]
  have pieces : displayPieces (heading.toList :: splitLines (frame s).toList) =
      dropReturn heading.toList :: displayPieces (splitLines (frame s).toList) := by
    cases inside : splitLines (frame s).toList with
    | nil => exact absurd inside (splitLines_ne_nil _)
    | cons line lines => rfl
  rw [framedLeaf, displayLines, split, pieces, dropReturn_eq_self_iff.2 kept, displayPieces_frame,
    List.map_cons, String.ofList_toList, frameRows]

/-! ## What is lost -/

/-- No line of the text ends with a carriage return. -/
def ReturnFree (s : String) : Prop := ∀ line ∈ lines s.toList, line.getLast? ≠ some '\r'

/-- The texts differ in nothing but carriage returns at the ends of lines. -/
def Alike (s t : String) : Prop :=
  endsLine s.toList = endsLine t.toList ∧
    (lines s.toList).map dropReturn = (lines t.toList).map dropReturn

instance (s : String) : Decidable (ReturnFree s) := inferInstanceAs (Decidable (∀ line ∈ _, _))

instance (s t : String) : Decidable (Alike s t) := inferInstanceAs (Decidable (_ ∧ _))

theorem map_dropReturn_eq_self_iff {ls : List (List Char)} :
    ls.map dropReturn = ls ↔ ∀ line ∈ ls, line.getLast? ≠ some '\r' := by
  simp only [← dropReturn_eq_self_iff]
  induction ls with
  | nil => simp
  | cons line ls ih => simp [ih]

theorem eq_of_alike {s t : String} (alike : Alike s t) (left : ReturnFree s)
    (right : ReturnFree t) :
    s = t := by
  obtain ⟨ended, same⟩ := alike
  rw [map_dropReturn_eq_self_iff.2 left, map_dropReturn_eq_self_iff.2 right] at same
  rw [← String.toList_inj, ← writeLines_lines s.toList, same, ended, writeLines_lines]

theorem frameBottom_inj {ended ended' : Bool} :
    frameBottom ended = frameBottom ended' ↔ ended = ended' := by
  revert ended ended'
  decide

theorem map_margin_inj {ls ms : List (List Char)} :
    ls.map (frameMargin ++ ·) = ms.map (frameMargin ++ ·) ↔ ls = ms :=
  List.map_inj_right fun _ _ => List.append_cancel_left

/-- Two texts are shown alike exactly if they are. -/
theorem frameRows_eq_iff {s t : String} : frameRows s = frameRows t ↔ Alike s t := by
  have texts : ∀ l m : List Char, String.ofList l = String.ofList m → l = m :=
    fun _ _ => String.ofList_injective
  rw [frameRows, frameRows, List.map_inj_right texts, map_dropReturn_frame, map_dropReturn_frame,
    List.cons_inj_right, List.append_singleton_inj, map_margin_inj, frameBottom_inj,
    and_comm, Alike]

theorem map_dropReturn_frame_eq_self_iff {s : String} :
    (splitLines (frame s).toList).map dropReturn = splitLines (frame s).toList ↔
    ReturnFree s := by
  rw [map_dropReturn_frame, splitLines_frame, List.cons_inj_right, List.append_singleton_inj,
    and_iff_left rfl, map_margin_inj, map_dropReturn_eq_self_iff, ReturnFree]

/-- The rows make up the frame exactly if no line of the text ends with a carriage return. -/
theorem intercalate_frameRows_eq_iff {s : String} :
    "\n".intercalate (frameRows s) = frame s ↔ ReturnFree s := by
  have rows : (frameRows s).map String.toList = (splitLines (frame s).toList).map dropReturn := by
    rw [frameRows, List.map_map]
    exact List.map_id'' (fun _ => String.toList_ofList) _
  have whole : ∀ line ∈ (splitLines (frame s).toList).map dropReturn, '\n' ∉ line := by
    intro line mem
    obtain ⟨piece, isPiece, rfl⟩ := List.mem_map.1 mem
    exact fun inside => newline_notMem_of_mem_splitLines isPiece (mem_of_mem_dropReturn inside)
  have some : (splitLines (frame s).toList).map dropReturn ≠ [] := by
    rw [Ne, List.map_eq_nil_iff]
    exact splitLines_ne_nil _
  rw [← map_dropReturn_frame_eq_self_iff, ← String.toList_inj, String.toList_intercalate, rows,
    toList_lineFeed, intercalate_eq_joinWith]
  constructor
  · intro joined
    rw [← splitLines_joinLines some whole, joinLines, joined]
  · intro kept
    rw [kept, ← joinLines, joinLines_splitLines]

/-! ## The branches of a mismatch -/

variable (c : TestCase) (execution : Execution)

/-- The branches of an outcome whose output lacks the expected text. -/
theorem outcomeTrees_of_mismatch (ran : execution.error = none)
    (missing : ¬ Stands c.expected execution.output) :
    outcomeTrees (judge c execution) =
      .node "Command" [.leaf [c.commandLine]] ::
        .node "Expected output not found"
          [.leaf ("Expected to contain" :: frameRows c.expected),
            .leaf ("Got" :: frameRows execution.output)] ::
        execution.exitCode.toList.map fun code =>
          .node "Exit code (not checked)" [.leaf [toString code]] := by
  have failure : (judge c execution).failure = some (.mismatch c.expected execution.output) :=
    judge_mismatch_iff.2 ⟨ran, missing, rfl, rfl⟩
  rw [outcomeTrees, failure]
  simp only [failureTrees, failureTree]
  rw [framedLeaf_eq (by decide) (by decide), framedLeaf_eq (by decide) (by decide)]
  rfl

/-- **What a mismatch shows.** Of the expected text and of the output it shows the frames in full
exactly if none of their lines ends with a carriage return. Carriage returns at the ends of lines
are not shown: texts that differ in nothing else look the same, so the output can look like the
text that does not stand in it, and two outputs like each other; all other texts look
different. -/
theorem mismatch_shows_iff (ran : execution.error = none)
    (missing : ¬ Stands c.expected execution.output) :
    ∃ expectedRows gotRows,
      .node "Expected output not found"
        [.leaf ("Expected to contain" :: expectedRows), .leaf ("Got" :: gotRows)] ∈
          outcomeTrees (judge c execution) ∧
      ("\n".intercalate expectedRows = frame c.expected ↔ ReturnFree c.expected) ∧
      ("\n".intercalate gotRows = frame execution.output ↔ ReturnFree execution.output) ∧
      (expectedRows = gotRows ↔ Alike c.expected execution.output) ∧
      (ReturnFree c.expected → ReturnFree execution.output → expectedRows ≠ gotRows) ∧
      (∀ output, ¬ Stands c.expected output →
        (outcomeTrees (judge c execution) = outcomeTrees (judge c { execution with output }) ↔
          Alike execution.output output)) ∧
      ∀ output, Alike execution.output output → ReturnFree execution.output → ReturnFree output →
        execution.output = output := by
  have trees := outcomeTrees_of_mismatch c execution ran missing
  refine ⟨_, _, by rw [trees]; simp, intercalate_frameRows_eq_iff, intercalate_frameRows_eq_iff,
    frameRows_eq_iff, ?_, ?_, ?_⟩
  · intro expected got same
    have equal := eq_of_alike (frameRows_eq_iff.1 same) expected got
    exact missing ⟨"", "", by rw [equal, String.empty_append, String.append_empty]⟩
  · intro output missing'
    rw [trees, outcomeTrees_of_mismatch c { execution with output } ran missing',
      ← frameRows_eq_iff]
    simp
  · exact fun output alike left right => eq_of_alike alike left right

/-- An output whose line ends with a carriage return, which the expected text does not have. -/
theorem mismatch_shows_iff_return :
    let c : TestCase :=
      { name := "c", description := none, invocation := .script "true" [], expected := "a\n" }
    let execution : Execution := { output := "b\r\n", exitCode := some 0, error := none }
    execution.error = none ∧ ¬ Stands c.expected execution.output ∧
      ∃ expectedRows gotRows,
        .node "Expected output not found"
          [.leaf ("Expected to contain" :: expectedRows), .leaf ("Got" :: gotRows)] ∈
            outcomeTrees (judge c execution) ∧
        "\n".intercalate expectedRows = frame c.expected ∧
        "\n".intercalate gotRows ≠ frame execution.output ∧ expectedRows ≠ gotRows := by
  intro c execution
  have missing : ¬ Stands c.expected execution.output := by decide +kernel
  obtain ⟨expectedRows, gotRows, mem, expected, got, same, _⟩ :=
    mismatch_shows_iff c execution rfl missing
  have shown : ReturnFree c.expected := by decide +kernel
  have lost : ¬ ReturnFree execution.output := by decide +kernel
  have different : ¬ Alike c.expected execution.output := by decide +kernel
  exact ⟨rfl, missing, expectedRows, gotRows, mem, expected.2 shown, mt got.1 lost,
    mt same.1 different⟩

/-- Carriage returns are lost: an output that lacks the expected text looks like it, and two
outputs that differ look like each other. -/
theorem not_shown_of_return :
    let c : TestCase :=
      { name := "c", description := none, invocation := .script "true" [], expected := "hi\r\n" }
    let execution : Execution := { output := "hi\n", exitCode := some 0, error := none }
    (judge c execution).failure = some (.mismatch "hi\r\n" "hi\n") ∧
      .node "Expected output not found"
        [.leaf ["Expected to contain", "╭", "│ hi", "╰"], .leaf ["Got", "╭", "│ hi", "╰"]] ∈
          outcomeTrees (judge c execution) ∧
      "\n".intercalate ["╭", "│ hi", "╰"] ≠ frame "hi\r\n" ∧
      outcomeTrees (judge c { execution with output := "ho\r\n" }) =
        outcomeTrees (judge c { execution with output := "ho\n" }) := by
  intro c execution
  have trees := outcomeTrees_of_mismatch c execution rfl (by decide +kernel)
  have left := outcomeTrees_of_mismatch c { execution with output := "ho\r\n" } rfl
    (by decide +kernel)
  have right := outcomeTrees_of_mismatch c { execution with output := "ho\n" } rfl
    (by decide +kernel)
  have expected : frameRows c.expected = ["╭", "│ hi", "╰"] := by decide +kernel
  have got : frameRows execution.output = ["╭", "│ hi", "╰"] := by decide +kernel
  have same : frameRows "ho\r\n" = frameRows "ho\n" := by decide +kernel
  refine ⟨by decide +kernel, ?_, by decide +kernel, ?_⟩
  · rw [trees, expected, got]
    simp
  · rw [left, right, same]

end CommandSuite.Report
