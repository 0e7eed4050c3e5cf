import CommandSuite.Host
import CommandSuite.Program

/-!
# Command line

The program on a copy of the files: the working directory and the directory of built files are
read into a file tree, and the cases run on the machine. Nothing outside the copy is changed.
-/

namespace CommandSuite.CommandLine

/-- The deepest directories that are read. -/
def depth : Nat := 32

/-- A file as a node. A file is taken for one that may be executed if it names an interpreter. -/
def fileNode (bytes : ByteArray) : FileNode :=
  let bytes := bytes.data.toList
  .file bytes (bytes.take 2 = [35, 33])

/-- A directory entry as a node. What cannot be read is taken for empty. -/
def entryNode : Nat → IO.FS.DirEntry → IO FileNode
  | 0, _ => return .directory []
  | depth + 1, entry => do
    if ← entry.path.isDir then
      let inner ← try entry.path.readDir catch _ => pure #[]
      let nodes ← inner.toList.mapM fun e => do return (e.fileName, ← entryNode depth e)
      return .directory nodes
    else
      try return fileNode (← IO.FS.readBinFile entry.path)
      catch _ => return .file [] false

/-- The tree with what a directory holds. -/
def addDirectory (tree : FileTree) (path : String) : IO FileTree := do
  let here ← IO.currentDir
  let entries ← try (here / path).readDir catch _ => pure #[]
  entries.toList.foldlM (fun tree entry => do
    return tree.install (← entryNode depth entry) (Path.join path entry.fileName)) tree

/-- The files that a run with these arguments needs. -/
def readTree (arguments : Arguments) : IO FileTree := do
  let here ← try pure (← IO.currentDir).toString catch _ => pure ""
  let names (path : String) : List String := (Text.pieces '/' path).filter (· ≠ "")
  let home := (← IO.getEnv "HOME").map names
  let start : FileTree :=
    { root := .directory [], workingDir := names here, home := home.getD ["root"] }
  let start := Utility.installAll start
  if here.isEmpty then return start
  let tree ← addDirectory (start.ensureDirectory start.workingDir) ""
  addDirectory tree (Path.join arguments.projectRoot arguments.outputDir)

/-- What is printed when help is asked for or arguments are not understood. -/
def usage : String :=
  "Usage: command-suite [--project-root DIR] [--output-dir DIR] [--binary-name NAME]\n"
    ++ "  [--compiler PROGRAM] [--interpreter PROGRAM] [--suite PATTERN]...\n"
    ++ "  [--output-format summary|tap] [--show-all-tests] [--run-tests-in-parallel]\n"
    ++ "  [--no-color]\n"

/-- The variables of the environment that processes see. -/
def environment : IO (List (String × String)) := do
  let names := ["HOME", "LC_ALL", Host.searchPathVariable]
  return (← names.mapM fun name => do return (name, ← IO.getEnv name)).filterMap
    fun (name, value) => value.map fun value => (name, value)

/-- Runs the program and gives its exit code. -/
def run (arguments : Arguments) : IO UInt32 := do
  let tree ← readTree arguments
  let environment ← environment
  let colored := (← (← IO.getStdout).isTty) && (← IO.getEnv "NO_COLOR").isNone
  let host : Host := { workingDir := tree.workingDir, environment }
  let (ending, _) :=
    (Program.run arguments tree (environment.lookup Host.searchPathVariable) colored
      host.execute).run
      { root := tree.root }
  for s in ending.stdout do IO.print s
  for s in ending.stderr do IO.eprint s
  return ending.exitCode.number.toUInt32

end CommandSuite.CommandLine

/-- The program: 0 if all cases pass, 1 if some fail, 2 if nothing was run. -/
def main (arguments : List String) : IO UInt32 := do
  match CommandSuite.Arguments.ofCommandLine arguments with
  | .ok arguments => CommandSuite.CommandLine.run arguments
  | .error .help =>
    IO.print CommandSuite.CommandLine.usage
    return 0
  | .error _ =>
    IO.eprint CommandSuite.CommandLine.usage
    return 2
