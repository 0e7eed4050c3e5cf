/-!
# Text trees

A tree of titled nodes and leaves of lines, drawn with branches on the left. What stands left of a
row is made anew for each row from the levels above it. A level is given by the number of siblings
that remain at it, the one that leads to the row among them, so that 1 tells the last one.
-/

namespace CommandSuite

/-- Titled nodes, and leaves that hold lines. -/
inductive Tree where
  | node (title : String) (children : List Tree)
  | leaf (lines : List String)
  deriving Repr, Inhabited

namespace Tree

/-- The mark of a child's first row. -/
def branchMark (last : Bool) : String := if last then "└─ " else "├─ "

/-- The mark of a child's other rows. -/
def passMark (last : Bool) : String := if last then "   " else "│  "

/-- What stands left of the row that begins an element below these levels: its own branch, and
before it whatever passes by. -/
def branchMargin : List Nat → String
  | [] => ""
  | [remaining] => branchMark (remaining == 1)
  | remaining :: next :: levels => passMark (remaining == 1) ++ branchMargin (next :: levels)

/-- What stands left of every other row of the element. -/
def passMargin (levels : List Nat) : String :=
  String.join (levels.map fun remaining => passMark (remaining == 1))

/-- Lines, one to a row; the first row is already begun. -/
def drawLines (margin : String) : List String → String
  | [] => ""
  | [line] => line ++ "\n"
  | line :: next :: lines => line ++ "\n" ++ margin ++ drawLines margin (next :: lines)

mutual

/-- The drawing of an element below these levels. -/
def drawBelow (levels : List Nat) : Tree → String
  | node title children => branchMargin levels ++ title ++ "\n" ++ drawChildren levels children
  | leaf lines => branchMargin levels ++ drawLines (passMargin levels) lines

/-- The drawings of the children of an element below these levels. -/
def drawChildren (levels : List Nat) : List Tree → String
  | [] => ""
  | child :: children =>
    drawBelow (levels ++ [(child :: children).length]) child ++ drawChildren levels children

end

/-- The drawing of a tree. -/
def draw (tree : Tree) : String := drawBelow [] tree

end Tree

end CommandSuite
