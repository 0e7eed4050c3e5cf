import CommandSuite.FileTree
import CommandSuite.Glob.Pattern

/-!
# Paths that match a pattern

`find tree pattern` lists the paths of a file tree that match, each with the place that it names.
A component without wildcards is followed like a component of a path; a wildcard is tried on the
entries of a directory, in the order of their names. A recursive component stands for the way down
to anything below a directory.
-/

namespace CommandSuite.Glob

/-- A path that was found, and the names from the root to what it names. -/
structure Found where
  path : String
  place : List String
  deriving Repr, DecidableEq

namespace Found

/-- Whether the path is the working directory, named by nothing but a dot. -/
def isHere (found : Found) : Bool := Path.components found.path = [.here]

/-- The path one component on. The working directory itself is left out of it. -/
def pathTo (found : Found) (name : String) : String :=
  if found.isHere then name else Path.join found.path name

/-- An entry of the directory that was found. -/
def entry (found : Found) (name : String) : Found :=
  ⟨found.pathTo name, found.place ++ [name]⟩

/-- The parent of the directory that was found, as `path`. -/
def parent (found : Found) (path : String) : Found := ⟨path, found.place.dropLast⟩

def node? (root : FileNode) (found : Found) : Option FileNode := root.find? found.place

def isDirectory (root : FileNode) (found : Found) : Bool :=
  (found.node? root).any FileNode.isDirectory

/-- What a component without wildcards leads to. An empty one leads to the directory itself, but
not from the bare working directory. -/
def follow (root : FileNode) (found : Found) (name : String) : Option Found :=
  if !found.isDirectory root then none
  else if name = "." then some ⟨found.pathTo name, found.place⟩
  else if name = ".." then some (found.parent (found.pathTo name))
  else if name = "" then
    if found.isHere then none else some ⟨Path.join found.path "", found.place⟩
  else if ((found.node? root).bind (·.child? name)).isSome then some (found.entry name)
  else none

mutual

/-- All that is below a node. -/
def below (found : Found) : FileNode → List Found
  | .directory entries => belowEntries found entries
  | _ => []

/-- Entries of a directory, each with all that is below it. -/
def belowEntries (found : Found) : List (String × FileNode) → List Found
  | [] => []
  | (name, node) :: entries =>
    found.entry name :: (below (found.entry name) node ++ belowEntries found entries)

end

/-- All that is below what was found. -/
def descendants (root : FileNode) (found : Found) : List Found :=
  match found.node? root with
  | some node => found.below node
  | none => []

/-- The last name of what was found. -/
def name (found : Found) : String := found.place.getLast?.getD ""

/-- The parent of a directory and the directory itself, where a wildcard means them. -/
def dotEntries (found : Found) (p : ComponentPattern) : List Found :=
  if p.startsWithDot then
    (if p.accepts ".." then [found.parent (Path.join found.path "..")] else [])
      ++ if p.accepts "." then [⟨Path.join found.path ".", found.place⟩] else []
  else []

/-- The entries of a directory that a wildcard means. -/
def matching (root : FileNode) (found : Found) (p : ComponentPattern) : List Found :=
  match found.node? root with
  | some (.directory entries) =>
    found.dotEntries p ++ (entries.filter fun e => p.accepts e.1).map fun e => found.entry e.1
  | _ => []

end Found

/-- What the components lead to from a place. -/
def findFrom (root : FileNode) : List ComponentPattern → Found → List Found
  | [], found => [found]
  | .literal name :: ps, found => (found.follow root name).toList.flatMap (findFrom root ps)
  | .wild ts :: ps, found => (found.matching root (.wild ts)).flatMap (findFrom root ps)
  | [.recursive], found => (found.descendants root).filter (·.isDirectory root)
  | .recursive :: p :: ps, found =>
    ((found.descendants root).filter fun d => p.accepts d.name).flatMap (findFrom root ps)

/-- The paths that match a pattern. -/
def PathPattern.find (tree : FileTree) (pattern : PathPattern) : List Found :=
  let start : Found := if pattern.absolute then ⟨"/", []⟩ else ⟨".", tree.workingDir⟩
  (findFrom tree.root pattern.components start).filter fun found =>
    !pattern.directoriesOnly || found.isDirectory tree.root

/-- The paths that match the pattern of a text. -/
def find (tree : FileTree) (pattern : String) : Except PatternError (List Found) := do
  return (← PathPattern.ofText pattern).find tree

end CommandSuite.Glob
