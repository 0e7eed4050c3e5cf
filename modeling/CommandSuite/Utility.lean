import CommandSuite.Utility.Files
import CommandSuite.Utility.Filter
import CommandSuite.Utility.Output
import CommandSuite.Utility.Search

/-!
# The utilities of the machine

The compiled programs by their names. `Utility.start` runs one by its name; the programs that
start others, `sh` and `env`, are no utilities.
-/

namespace CommandSuite.Utility

/-- The utilities by name. -/
def all : List (String × Utility) :=
  [("[", bracket), ("basename", basename), ("cat", cat), ("chmod", chmod), ("cp", cp),
   ("cut", cut), ("dirname", dirname), ("echo", echo),
   ("egrep", fun process arguments => grep process ("-E" :: arguments)), ("expr", expr),
   ("false", fun _ _ => return 1),
   ("fgrep", fun process arguments => grep process ("-F" :: arguments)), ("grep", grep),
   ("head", head), ("ls", ls), ("mkdir", mkdir), ("mv", mv), ("nl", nl), ("printenv", printenv),
   ("printf", printf), ("pwd", pwd), ("rev", rev), ("rm", rm), ("rmdir", rmdir), ("sed", sed),
   ("seq", seq), ("sleep", sleep), ("sort", sort), ("tac", tac), ("tail", tail), ("tee", tee),
   ("test", testCondition), ("touch", touch), ("tr", tr), ("true", fun _ _ => return 0),
   ("uniq", uniq), ("wc", wc), ("yes", yes)]

/-- Runs a utility by its name. -/
def start (name : String) (process : Process) (arguments : List String) : Act Nat :=
  match all.lookup name with
  | some utility => utility process arguments
  | none => return 127

/-- The programs that start others. -/
def starters : List String := ["env", "sh"]

/-- A file tree in which every program lies in one of two directories, beside the devices. -/
def installAll (tree : FileTree) : FileTree :=
  let home := { tree with workingDir := [] }
  let installed := (all.map Prod.fst ++ starters).foldl
    (fun tree name =>
      ["usr/bin/", "bin/"].foldl (fun tree directory =>
        tree.install (.program name) (directory ++ name)) tree) home
  let devices := (installed.install (.device .null) "dev/null").install (.device .zero) "dev/zero"
  { devices with workingDir := tree.workingDir }

end CommandSuite.Utility
