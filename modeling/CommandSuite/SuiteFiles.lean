import CommandSuite.Glob.Search
import CommandSuite.Path.Relative

/-!
# Finding suite files

Suite files are named by patterns. A file that matches is taken whatever its name; a directory
that matches is searched for files with the suffix of suite files. A pattern that leads to no file
is taken as the path of a file itself, so that the attempt to read it tells what is wrong.
-/

namespace CommandSuite.SuiteFiles

/-- The end of the names of suite files. -/
def suffix : String := ".suite.toml"

/-- The pattern of the suite files below a directory. -/
def searchPattern (directory : String) : String := Path.join directory ("**/*" ++ suffix)

/-- The files that a pattern leads to. What matches is looked at by its path, and the path of a
directory is put into a pattern of its own; `fuel` bounds how often that happens on the way to a
file. -/
def locateWithin (tree : FileTree) : Nat → String → Except Glob.PatternError (List String)
  | 0, _ => .ok []
  | fuel + 1, pattern => do
    let found ← Glob.find tree pattern
    let files ← found.mapM fun f =>
      if tree.isRegular f.path then .ok [f.path]
      else if tree.isDirectory f.path then locateWithin tree fuel (searchPattern f.path)
      else .ok []
    return files.flatten

/-- No path that the system follows has more components with the suffix of suite files: it follows
none of 4096 bytes. -/
def suffixesInPath : Nat := 4096 / (suffix.length + 1)

/-- The files that a pattern leads to. A directory that a search has found has more components
with the suffix of suite files in its path than the one that was searched. If a name in the tree
means a parent when it is read as a pattern, then searches may go round in the tree; they end
where the system no longer follows the paths.

A search fails only for a pattern that is none. Left out is that a directory cannot be read: every
directory of a tree may be, also where its path has grown too long for the system. -/
def locate (tree : FileTree) (pattern : String) : Except Glob.PatternError (List String) :=
  locateWithin tree (suffixesInPath + 2) pattern

/-- The paths that a pattern stands for: those of the files that it leads to, or its own. -/
def ofPattern (tree : FileTree) (currentDir pattern : String) :
    Except Glob.PatternError (List RelativePath) := do
  let files ← locate tree pattern
  return (if files.isEmpty then [pattern] else files).filterMap (relativeTo · currentDir)

/-- The suite files that patterns stand for, as seen from a directory, in the order of their
paths. -/
def expand (tree : FileTree) (currentDir : String) (patterns : List String) :
    Except Glob.PatternError (List RelativePath) := do
  let paths ← patterns.mapM (ofPattern tree currentDir)
  return paths.flatten.foldr insertPath []

/-- The text that reports a pattern that is none. -/
def patternReport (e : Glob.PatternError) : String := "Invalid suite pattern: " ++ e.message

end CommandSuite.SuiteFiles
