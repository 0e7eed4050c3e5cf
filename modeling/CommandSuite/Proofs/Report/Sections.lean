import CommandSuite.Proofs.Report.Summary
import CommandSuite.Proofs.Tree
import CommandSuite.Proofs.Verdict

/-!
# Sections of a report

A reader tells by the marks on the left to which section of a tree a line belongs. A row has its
marks in its margin; but a text that is set into a row as it is can hold line feeds, and what
stands behind these starts a line without a margin.

* `Tree.forall_isMarked_lines_iff`: below the title, the lines of a drawing are marked exactly if
  the lines are that its texts start themselves.
* `report_isMarked_iff`: of the texts of a report, only the label, the command line and the error
  of a command that could not be run can start lines. The expected text and the output cannot:
  they are cut into lines first.
-/

namespace CommandSuite

open Text

/-! ## Marked lines -/

/-- What stands left of a line below the title of a tree. -/
def Tree.marks : List String := ["├─ ", "└─ ", "│  ", "   "]

/-- The line begins with a mark. -/
def IsMarked (line : List Char) : Prop := ∃ mark ∈ Tree.marks, mark.toList <+: line

/-- Every line that the text starts itself begins with a mark. -/
def StaysIn (text : String) : Prop := ∀ line ∈ (splitLines text.toList).tail, IsMarked line

instance (line : List Char) : Decidable (IsMarked line) :=
  inferInstanceAs (Decidable (∃ mark ∈ _, _))

instance (text : String) : Decidable (StaysIn text) :=
  inferInstanceAs (Decidable (∀ line ∈ _, _))

theorem staysIn_of_newline_notMem {text : String} (oneLine : '\n' ∉ text.toList) :
    StaysIn text := by
  intro line mem
  rw [splitLines_eq_singleton oneLine] at mem
  cases mem

theorem IsMarked.append {line : List Char} (marked : IsMarked line) (more : List Char) :
    IsMarked (line ++ more) := by
  obtain ⟨mark, isMark, starts⟩ := marked
  exact ⟨mark, isMark, starts.trans (List.prefix_append line more)⟩

namespace Tree

/-! ## Margins -/

theorem isMarked_hang {first others : String} (isFirst : first ∈ marks) (isOther : others ∈ marks)
    {rows : List Row} {row : Row} (mem : row ∈ hang first others rows) :
    IsMarked row.margin.toList := by
  have behind (mark : String) (isMark : mark ∈ marks) (row : Row) :
      IsMarked (row.behind mark).margin.toList := by
    rw [Row.behind, String.toList_append]
    exact ⟨mark, isMark, List.prefix_append _ _⟩
  cases rows with
  | nil => cases mem
  | cons top rows =>
    rcases List.mem_cons.1 mem with rfl | mem
    · exact behind first isFirst top
    · obtain ⟨inner, _, rfl⟩ := List.mem_map.1 mem
      exact behind others isOther inner

/-- Below the title of a node, every row has a mark in its margin. -/
theorem isMarked_margin {children : List Tree} {row : Row} (mem : row ∈ childRows children) :
    IsMarked row.margin.toList := by
  induction children with
  | nil => cases mem
  | cons child children ih =>
    cases children with
    | nil => exact isMarked_hang (by decide) (by decide) mem
    | cons next children =>
      rcases List.mem_append.1 mem with own | later
      · exact isMarked_hang (by decide) (by decide) own
      · exact ih later

theorem newline_notMem_hang {first others : String} (isFirst : first ∈ marks)
    (isOther : others ∈ marks) {rows : List Row} (each : ∀ row ∈ rows, '\n' ∉ row.margin.toList) :
    ∀ row ∈ hang first others rows, '\n' ∉ row.margin.toList := by
  have noNewline : ∀ mark ∈ marks, '\n' ∉ mark.toList := by decide
  have behind {mark : String} (isMark : mark ∈ marks) {row : Row}
      (own : '\n' ∉ row.margin.toList) : '\n' ∉ (row.behind mark).margin.toList := by
    rw [Row.behind, String.toList_append, List.mem_append, not_or]
    exact ⟨noNewline mark isMark, own⟩
  cases rows with
  | nil => exact each
  | cons top rows =>
    rw [List.forall_mem_cons] at each
    rw [hang, List.forall_mem_cons, List.forall_mem_map]
    exact ⟨behind isFirst each.1, fun row mem => behind isOther (each.2 row mem)⟩

theorem newline_notMem_childRows {children : List Tree}
    (each : ∀ child ∈ children, ∀ row ∈ child.rows, '\n' ∉ row.margin.toList) :
    ∀ row ∈ childRows children, '\n' ∉ row.margin.toList := by
  induction children with
  | nil => exact fun _ mem => nomatch mem
  | cons child children ih =>
    rw [List.forall_mem_cons] at each
    cases children with
    | nil => exact newline_notMem_hang (by decide) (by decide) each.1
    | cons next children =>
      rw [childRows, List.forall_mem_append]
      exact ⟨newline_notMem_hang (by decide) (by decide) each.1, ih each.2⟩

/-- Margins are made of marks only, whatever the texts are. -/
theorem newline_notMem_margin {tree : Tree} (filled : tree.Filled) :
    ∀ row ∈ tree.rows, '\n' ∉ row.margin.toList := by
  have empty : '\n' ∉ "".toList := by decide
  induction filled with
  | node _ ih =>
    rw [rows, List.forall_mem_cons]
    exact ⟨empty, newline_notMem_childRows ih⟩
  | leaf =>
    rw [rows, List.forall_mem_map]
    exact fun _ _ => empty

/-! ## Lines of a drawing -/

/-- The lines of rows as they are printed. -/
theorem lines_write {rows : List Row} (some : rows ≠ []) :
    lines (write rows).toList =
      rows.flatMap fun row => splitLines (row.margin.toList ++ row.text.toList) := by
  have printed : (write rows).toList =
      (rows.map fun row => row.margin.toList ++ row.text.toList).flatMap (· ++ ['\n']) := by
    rw [write, String.toList_join, List.flatMap_map, List.flatMap_map]
    congr 1
    funext row
    rw [Row.line, String.toList_append, String.toList_append]
    rfl
  rw [printed, lines_flatMap (by rwa [Ne, List.map_eq_nil_iff]), List.flatMap_map]

/-- A row behind a mark has its first line marked, and the lines that its text starts are as they
are. -/
theorem forall_isMarked_row_iff {row : Row} (marked : IsMarked row.margin.toList)
    (oneLine : '\n' ∉ row.margin.toList) :
    (∀ line ∈ splitLines (row.margin.toList ++ row.text.toList), IsMarked line) ↔
      StaysIn row.text := by
  cases split : splitLines row.text.toList with
  | nil => exact absurd split (splitLines_ne_nil _)
  | cons first later =>
    have lines : splitLines (row.margin.toList ++ row.text.toList) =
        (row.margin.toList ++ first) :: later := splitLines_append_of_notMem oneLine split
    rw [lines, List.forall_mem_cons, and_iff_right (marked.append first), StaysIn, split,
      List.tail_cons]

/-- The titles and the lines of a tree, from the top down. -/
def texts (tree : Tree) : List String := tree.rows.map Row.text

theorem map_text_hang (first others : String) (rows : List Row) :
    (hang first others rows).map Row.text = rows.map Row.text := by
  cases rows with
  | nil => rfl
  | cons top rows =>
    rw [hang, List.map_cons, List.map_cons, List.map_map]
    rfl

theorem map_text_childRows (children : List Tree) :
    (childRows children).map Row.text = children.flatMap texts := by
  induction children with
  | nil => rfl
  | cons child children ih =>
    cases children with
    | nil => simp [childRows, map_text_hang, texts]
    | cons next children =>
      rw [childRows, List.map_append, map_text_hang, ih, List.flatMap_cons]
      rfl

theorem texts_leaf (lines : List String) : (leaf lines).texts = lines := by
  rw [texts, rows, List.map_map]
  exact List.map_id lines

theorem texts_node (title : String) (children : List Tree) :
    (node title children).texts = title :: children.flatMap texts := by
  rw [texts, rows, List.map_cons, map_text_childRows]

/-- The lines of a drawing: those of its title, and those of each row behind its margin. -/
theorem lines_draw {title : String} {children : List Tree}
    (filled : (node title children).Filled) :
    lines (node title children).draw.toList = splitLines title.toList ++
      (childRows children).flatMap fun row =>
        splitLines (row.margin.toList ++ row.text.toList) := by
  rw [draw_eq_write filled, rows, lines_write (List.cons_ne_nil _ _), List.flatMap_cons]
  rfl

/-- **Lines of a drawing.** Below the title they are marked exactly if the lines are that the
title and the texts below it start themselves. -/
theorem forall_isMarked_lines_iff {title : String} {children : List Tree}
    (filled : (node title children).Filled) :
    (∀ line ∈ (lines (node title children).draw.toList).tail, IsMarked line) ↔
      StaysIn title ∧ ∀ child ∈ children, ∀ text ∈ child.texts, StaysIn text := by
  have whole := newline_notMem_margin filled
  rw [rows, List.forall_mem_cons] at whole
  have own : (∀ child ∈ children, ∀ text ∈ child.texts, StaysIn text) ↔
      ∀ row ∈ childRows children, StaysIn row.text := by
    rw [← List.forall_mem_flatMap, ← map_text_childRows, List.forall_mem_map]
  have below : (∀ row ∈ childRows children,
      ∀ line ∈ splitLines (row.margin.toList ++ row.text.toList), IsMarked line) ↔
      ∀ row ∈ childRows children, StaysIn row.text :=
    forall₂_congr fun row mem => forall_isMarked_row_iff (isMarked_margin mem) (whole.2 row mem)
  rw [lines_draw filled, List.tail_append_of_ne_nil (splitLines_ne_nil _), List.forall_mem_append,
    List.forall_mem_flatMap, below, own]
  rfl

end Tree

/-! ## Lines of a report -/

theorem newline_notMem_label {c : TestCase} (name : '\n' ∉ c.name.toList)
    (description : ∀ d ∈ c.description, '\n' ∉ d.toList) : '\n' ∉ c.label.toList := by
  rw [TestCase.label]
  cases described : c.description with
  | none => exact name
  | some d =>
    simp only [String.toList_append, List.mem_append, not_or]
    exact ⟨⟨name, by decide⟩, description d described⟩

namespace Report

/-- What stands in a leaf as lines starts none. -/
theorem staysIn_framedLeaf {heading s text : String} (mem : text ∈ (framedLeaf heading s).texts) :
    StaysIn text := by
  rw [framedLeaf, Tree.texts_leaf] at mem
  exact staysIn_of_newline_notMem (newline_notMem_of_mem_displayLines mem)

theorem newline_notMem_toString_int (code : Int) : '\n' ∉ (toString code).toList := by
  cases code with
  | ofNat n => exact Summary.newline_notMem_toString n
  | negSucc n =>
    change '\n' ∉ ("-" ++ toString (n + 1)).toList
    rw [String.toList_append, List.mem_append, not_or]
    exact ⟨by decide, Summary.newline_notMem_toString (n + 1)⟩

theorem texts_node_leaf (title line : String) :
    (Tree.node title [.leaf [line]]).texts = [title, line] := rfl

theorem forall_texts_node_leaf_iff {title : String} (oneLine : '\n' ∉ title.toList)
    (line : String) :
    (∀ text ∈ (Tree.node title [.leaf [line]]).texts, StaysIn text) ↔ StaysIn line := by
  rw [texts_node_leaf, List.forall_mem_cons, and_iff_right (staysIn_of_newline_notMem oneLine),
    List.forall_mem_singleton]

theorem forall_texts_failureTree_iff (failure : Failure) :
    (∀ text ∈ (failureTree failure).texts, StaysIn text) ↔
      ∀ error, failure = .notRun error → StaysIn error.message := by
  cases failure with
  | notRun error =>
    rw [failureTree, forall_texts_node_leaf_iff (by decide)]
    simp
  | mismatch expected got =>
    have texts : (failureTree (.mismatch expected got)).texts = "Expected output not found" ::
        [framedLeaf "Expected to contain" expected, framedLeaf "Got" got].flatMap Tree.texts := by
      rw [failureTree, Tree.texts_node]
    rw [texts]
    simp only [reduceCtorEq, false_implies, implies_true, iff_true]
    intro text mem
    simp only [List.mem_cons, List.flatMap_cons, List.mem_append, List.flatMap_nil,
      List.not_mem_nil, or_false] at mem
    rcases mem with rfl | shown | shown
    · exact staysIn_of_newline_notMem (by decide)
    · exact staysIn_framedLeaf shown
    · exact staysIn_framedLeaf shown

/-- Of the texts in a report, the command line can start lines, and the error of a command that
could not be run. -/
theorem forall_texts_outcomeTrees_iff (c : TestCase) (execution : Execution) :
    (∀ tree ∈ outcomeTrees (judge c execution), ∀ text ∈ tree.texts, StaysIn text) ↔
      StaysIn c.commandLine ∧ ∀ error, execution.error = some error → StaysIn error.message := by
  have code (code : Int) :
      ∀ text ∈ (Tree.node "Exit code (not checked)" [.leaf [toString code]]).texts,
        StaysIn text :=
    (forall_texts_node_leaf_iff (by decide) _).2
      (staysIn_of_newline_notMem (newline_notMem_toString_int code))
  rw [outcomeTrees, List.forall_mem_cons, forall_texts_node_leaf_iff (by decide)]
  refine and_congr Iff.rfl ?_
  simp only [← judge_notRun_iff (c := c)]
  cases (judge c execution).failure with
  | none => simp
  | some failure =>
    dsimp only
    rw [failureTrees, List.forall_mem_cons, forall_texts_failureTree_iff, List.forall_mem_map,
      and_iff_left fun code' _ => code code']
    simp

/-- **Lines of a report.** Below the first they are marked with their section, unless the label of
the case, its command line or the error of a command that could not be run starts a line that is
not; what is expected and what is put out never does. Texts without line feeds start no lines. -/
theorem report_isMarked_iff (c : TestCase) (execution : Execution) :
    let report := Tree.node c.label (outcomeTrees (judge c execution))
    ((∀ line ∈ (lines report.draw.toList).tail, IsMarked line) ↔
      StaysIn c.label ∧ StaysIn c.commandLine ∧
        ∀ error, execution.error = some error → StaysIn error.message) ∧
    ((∀ text ∈ c.name :: (c.description.toList ++ c.invocation.words), '\n' ∉ text.toList) →
      (∀ error, execution.error = some error → '\n' ∉ error.message.toList) →
      ∀ line ∈ (lines report.draw.toList).tail, IsMarked line) := by
  intro report
  have filled : report.Filled := .node fun _ => filled_of_mem_outcomeTrees
  have exactly : (∀ line ∈ (lines report.draw.toList).tail, IsMarked line) ↔
      StaysIn c.label ∧ StaysIn c.commandLine ∧
        ∀ error, execution.error = some error → StaysIn error.message := by
    rw [Tree.forall_isMarked_lines_iff filled, forall_texts_outcomeTrees_iff]
  refine ⟨exactly, fun own foreign => exactly.2 ⟨?_, ?_, fun error failed => ?_⟩⟩
  · exact staysIn_of_newline_notMem (newline_notMem_label (own _ List.mem_cons_self)
      fun description given => own description (by simp [Option.mem_def.1 given]))
  · exact staysIn_of_newline_notMem
      (newline_notMem_commandLine fun word isWord => own word (by simp [isWord]))
  · exact staysIn_of_newline_notMem (foreign error failed)

/-- A script of two lines: the second is drawn in column 0. -/
theorem not_isMarked_of_twoLines :
    let c : TestCase :=
      { name := "c", description := none, invocation := .script "echo a\necho b" [],
        expected := "c" }
    let execution : Execution := { output := "a\nb\n", exitCode := some 0, error := none }
    let report := Tree.node c.label (outcomeTrees (judge c execution))
    "echo b'".toList ∈ (lines report.draw.toList).tail ∧ ¬ IsMarked "echo b'".toList := by
  intro c execution report
  have filled : report.Filled := .node fun _ => filled_of_mem_outcomeTrees
  refine ⟨?_, by decide⟩
  rw [Tree.lines_draw filled, List.tail_append_of_ne_nil (splitLines_ne_nil _)]
  exact List.mem_append_right _ (by decide +kernel)

end Report

end CommandSuite
