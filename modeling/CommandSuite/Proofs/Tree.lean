import CommandSuite.Report.Summary
import CommandSuite.Suite

/-!
# The rows of a drawing

A tree is drawn row by row, and the margin of each row is made from all levels above it.
`Tree.rows` says what the drawing is from the inside out: the rows of a child are those of the
child by itself, set behind the marks of one level.

* `Tree.drawBelow_eq` carries the margins through the tree. What it adds to the statement on whole
  trees are the levels: the first row of an element stands behind the margin of a branch, and
  every other row behind that of a pass.
* `Tree.draw_eq_rows` is the statement on whole trees, with the trees that reports are made of:
  none of them has a leaf without lines, for which no row would be ended.
-/

namespace CommandSuite

namespace Tree

/-! ## Rows -/

/-- A row: what stands left of its text, and the text. -/
structure Row where
  margin : String
  text : String
  deriving Repr, DecidableEq

namespace Row

/-- The row as it is printed. -/
def line (row : Row) : String := row.margin ++ row.text ++ "\n"

/-- The row set behind a mark. -/
def behind (mark : String) (row : Row) : Row := { row with margin := mark ++ row.margin }

theorem behind_append (outer inner : String) (row : Row) :
    row.behind (outer ++ inner) = (row.behind inner).behind outer := by
  simp only [behind, String.append_assoc]

end Row

/-- Rows set behind marks: the first row behind one, the others behind the other. -/
def hang (first others : String) : List Row → List Row
  | [] => []
  | row :: rows => row.behind first :: rows.map (Row.behind others)

mutual

/-- The rows of a tree. -/
def rows : Tree → List Row
  | node title children => ⟨"", title⟩ :: childRows children
  | leaf lines => lines.map fun line => ⟨"", line⟩

/-- The rows of the children of a node, one child after the other. -/
def childRows : List Tree → List Row
  | [] => []
  | [child] => hang "└─ " "   " (rows child)
  | child :: next :: children => hang "├─ " "│  " (rows child) ++ childRows (next :: children)

end

/-- Rows as they are printed, one below the other. -/
def write (rows : List Row) : String := String.join (rows.map Row.line)

theorem write_cons (row : Row) (rows : List Row) : write (row :: rows) = row.line ++ write rows :=
  String.join_cons

theorem write_append (above below : List Row) :
    write (above ++ below) = write above ++ write below := by
  rw [write, List.map_append, String.join_append]
  rfl

theorem hang_append (outer first others : String) (rows : List Row) :
    hang (outer ++ first) (outer ++ others) rows =
      (hang first others rows).map (Row.behind outer) := by
  cases rows with
  | nil => rfl
  | cons row rows =>
    rw [hang, hang, List.map_cons, List.map_map, Row.behind_append]
    congr 1
    exact List.map_congr_left fun row _ => Row.behind_append outer others row

theorem hang_empty (rows : List Row) : hang "" "" rows = rows := by
  have same : Row.behind "" = id := by
    funext row
    rw [Row.behind, String.empty_append]
    rfl
  cases rows with
  | nil => rfl
  | cons row rows => rw [hang, same, List.map_id, id]

/-! ## Margins -/

theorem branchMargin_concat (levels : List Nat) (remaining : Nat) :
    branchMargin (levels ++ [remaining]) = passMargin levels ++ branchMark (remaining == 1) := by
  induction levels with
  | nil => exact String.empty_append.symm
  | cons level levels ih =>
    -- the margin looks one level ahead to see which level is the innermost
    obtain ⟨next, others, split⟩ : ∃ next others, levels ++ [remaining] = next :: others :=
      List.exists_cons_of_ne_nil (by simp)
    rw [List.cons_append, split, branchMargin, ← split, ih, ← String.append_assoc]
    congr 1
    exact String.join_cons.symm

theorem passMargin_concat (levels : List Nat) (remaining : Nat) :
    passMargin (levels ++ [remaining]) = passMargin levels ++ passMark (remaining == 1) := by
  unfold passMargin
  rw [List.map_append, String.join_append]
  rfl

theorem drawLines_eq (first margin line : String) (lines : List String) :
    first ++ drawLines margin (line :: lines) =
      write (hang first margin ((line :: lines).map fun line => ⟨"", line⟩)) := by
  induction lines generalizing first line with
  | nil => simp [drawLines, hang, write, Row.line, Row.behind, String.append_assoc]
  | cons next lines ih =>
    have later := ih margin next
    rw [List.map_cons, hang, write_cons] at later ⊢
    rw [drawLines, String.append_assoc, later]
    simp [write, Row.line, Row.behind, String.append_assoc]

/-! ## Drawings -/

/-- Every leaf of the tree has a line. -/
inductive Filled : Tree → Prop
  | node {title : String} {children : List Tree} (each : ∀ child ∈ children, Filled child) :
    Filled (node title children)
  | leaf {line : String} {lines : List String} : Filled (leaf (line :: lines))

/-- Children are drawn as their rows, behind what passes by their parent, if each by itself is. -/
theorem drawChildren_eq {children : List Tree} (levels : List Nat)
    (each : ∀ child ∈ children, ∀ levels,
      child.drawBelow levels =
        write (hang (branchMargin levels) (passMargin levels) child.rows)) :
    drawChildren levels children =
      write ((childRows children).map (Row.behind (passMargin levels))) := by
  induction children with
  | nil => rfl
  | cons child children ih =>
    rw [List.forall_mem_cons] at each
    have own := each.1 (levels ++ [(child :: children).length])
    rw [branchMargin_concat, passMargin_concat, hang_append] at own
    rw [drawChildren, own, ih each.2, ← write_append, ← List.map_append]
    cases children with
    | nil => simp [childRows, branchMark, passMark]
    | cons next children => simp [childRows, branchMark, passMark]

/-- An element below some levels is drawn as its rows, the first behind a branch of the innermost
level and the others behind what passes by. -/
theorem drawBelow_eq {tree : Tree} (filled : tree.Filled) (levels : List Nat) :
    tree.drawBelow levels = write (hang (branchMargin levels) (passMargin levels) tree.rows) := by
  induction filled generalizing levels with
  | @node title children _ ih =>
    rw [drawBelow, drawChildren_eq levels ih, rows, hang, write_cons]
    simp [Row.line, Row.behind]
  | leaf => exact drawLines_eq _ _ _ _

theorem draw_eq_write {tree : Tree} (filled : tree.Filled) : tree.draw = write tree.rows := by
  have drawn := drawBelow_eq filled []
  rw [branchMargin, passMargin, List.map_nil, String.join_nil, hang_empty] at drawn
  exact drawn

/-! ## Trees of reports -/

theorem filled_leaf {lines : List String} (some : lines ≠ []) : (leaf lines).Filled := by
  obtain ⟨line, rest, rfl⟩ := List.exists_cons_of_ne_nil some
  exact .leaf

theorem filled_line (title line : String) : (node title [leaf [line]]).Filled :=
  .node (List.forall_mem_singleton.2 .leaf)

end Tree

/-- A text that is not empty has a line to be displayed. -/
theorem Text.displayLines_ne_nil {s : String} (some : s ≠ "") : displayLines s ≠ [] := by
  unfold displayLines
  rw [ne_eq, List.map_eq_nil_iff]
  intro none
  cases split : splitLines s.toList with
  | nil => exact splitOn_ne_nil _ _ split
  | cons piece pieces =>
    rw [split] at none
    cases pieces with
    | nil =>
      -- the only piece would be empty, and so would be the text
      have empty : piece = [] := by simpa [displayPieces] using none
      have joined := joinLines_splitLines s.toList
      rw [split, empty] at joined
      exact some (String.toList_inj.1 joined.symm)
    | cons next pieces => cases none

theorem Suite.FaultCause.message_ne_empty (cause : FaultCause) : cause.message ≠ "" := by
  cases cause with
  | grammar kind =>
    unfold message Toml.ErrorKind.message
    cases kind <;> simp
  | shape error =>
    unfold message ShapeError.message
    cases error <;> simp

theorem Suite.Fault.message_ne_empty (fault : Fault) : fault.message ≠ "" := by
  unfold message
  simp [fault.cause.message_ne_empty]

theorem SuiteError.filled_of_mem_trees {error : SuiteError} {tree : Tree}
    (mem : tree ∈ error.trees) : tree.Filled := by
  cases error with
  | unreadable cause =>
    obtain rfl := List.mem_singleton.1 mem
    exact .leaf
  | malformed fault =>
    obtain rfl := List.mem_singleton.1 mem
    have lines := Text.displayLines_ne_nil fault.message_ne_empty
    exact .node (List.forall_mem_singleton.2 (Tree.filled_leaf lines))
  | invalid problems =>
    obtain rfl := List.mem_singleton.1 mem
    refine .node fun entry mem => ?_
    obtain ⟨⟨name, problems⟩, _, rfl⟩ := List.mem_map.1 mem
    refine .node fun problem mem => ?_
    obtain ⟨problem, _, rfl⟩ := List.mem_map.1 mem
    exact .leaf

namespace Report

theorem filled_framedLeaf (heading s : String) : (framedLeaf heading s).Filled := by
  have some : heading ++ "\n" ++ frame s ≠ "" := by simp
  exact Tree.filled_leaf (Text.displayLines_ne_nil some)

theorem filled_failureTree (failure : Failure) : (failureTree failure).Filled := by
  cases failure with
  | notRun error => exact Tree.filled_line _ _
  | mismatch expected got =>
    refine .node fun leaf mem => ?_
    simp only [List.mem_cons, List.not_mem_nil, or_false] at mem
    rcases mem with rfl | rfl
    · exact filled_framedLeaf _ expected
    · exact filled_framedLeaf _ got

theorem filled_of_mem_outcomeTrees {outcome : Outcome} {tree : Tree}
    (mem : tree ∈ outcomeTrees outcome) : tree.Filled := by
  rcases List.mem_cons.1 mem with rfl | mem
  · exact Tree.filled_line _ _
  · cases failed : outcome.failure with
    | none =>
      rw [failed] at mem
      cases mem
    | some failure =>
      rw [failed] at mem
      rcases List.mem_cons.1 mem with rfl | mem
      · exact filled_failureTree failure
      · obtain ⟨code, _, rfl⟩ := List.mem_map.1 mem
        exact Tree.filled_line _ _

end Report

/-- **A drawing is the rows of the tree, one below the other.** The margins that are made anew for
each row are those that the rows of a child get when they are set behind the marks of one level.
This holds of every tree whose leaves have lines, and so of the trees of all reports. -/
theorem Tree.draw_eq_rows :
    (∀ tree : Tree, tree.Filled →
      tree.draw = String.join (tree.rows.map fun row => row.margin ++ row.text ++ "\n")) ∧
    (∀ title outcome, (node title (Report.outcomeTrees outcome)).Filled) ∧
    (∀ title (error : SuiteError), (node title error.trees).Filled) ∧
    ∀ title message, (node title [leaf [message]]).Filled := by
  exact ⟨fun tree filled => draw_eq_write filled,
    fun _ _ => .node fun _ => Report.filled_of_mem_outcomeTrees,
    fun _ _ => .node fun _ => SuiteError.filled_of_mem_trees, filled_line⟩

/-- Later lines of a leaf stand as far to the right as the first. -/
example :
    (Tree.node "suite"
      [.node "help" [.leaf ["ok"]], .leaf ["first", "second"]]).draw =
    "suite\n├─ help\n│  └─ ok\n└─ first\n   second\n" := by decide +kernel

end CommandSuite
