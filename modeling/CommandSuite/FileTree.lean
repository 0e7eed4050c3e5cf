import CommandSuite.Path
import CommandSuite.Text.Utf8

/-!
# File trees

A file tree is a tree of directories and files, without links, and the directory from which
relative paths are seen. `FileTree.locate` follows a path component by component, as an operating
system does: each must be an entry of a directory, and `..` leads to the parent of where it is
met. The system follows no path that is too long. Every directory of a tree may be read.
-/

namespace CommandSuite

/-- Why a file operation fails. -/
inductive IoError where
  | notFound
  | argumentsTooLong
  | execFormat
  | badDescriptor
  | permissionDenied
  | alreadyExists
  | notDirectory
  | isDirectory
  | nameTooLong
  | notEmpty
  | nulInName
  | nulInArgument
  | invalidUtf8
  deriving Repr, DecidableEq

namespace IoError

/-- What went wrong, in the words of the operating system. -/
def description : IoError → String
  | notFound => "No such file or directory"
  | argumentsTooLong => "Argument list too long"
  | execFormat => "Exec format error"
  | badDescriptor => "Bad file descriptor"
  | permissionDenied => "Permission denied"
  | alreadyExists => "File exists"
  | notDirectory => "Not a directory"
  | isDirectory => "Is a directory"
  | nameTooLong => "File name too long"
  | notEmpty => "Directory not empty"
  | nulInName => "file name contained an unexpected NUL byte"
  | nulInArgument => "nul byte found in provided data"
  | invalidUtf8 => "stream did not contain valid UTF-8"

/-- The number by which the operating system knows the error. -/
def number? : IoError → Option Nat
  | notFound => some 2
  | argumentsTooLong => some 7
  | execFormat => some 8
  | badDescriptor => some 9
  | permissionDenied => some 13
  | alreadyExists => some 17
  | notDirectory => some 20
  | isDirectory => some 21
  | nameTooLong => some 36
  | notEmpty => some 39
  | nulInName | nulInArgument | invalidUtf8 => none

/-- The text that reports the error. -/
def message (e : IoError) : String :=
  match e.number? with
  | some n => e.description ++ " (os error " ++ toString n ++ ")"
  | none => e.description

end IoError

/-- Files that hold nothing of their own. -/
inductive Device where
  /-- Takes everything and gives nothing. -/
  | null
  /-- Gives zero bytes without end. -/
  | zero
  deriving Repr, DecidableEq

/-- What stands under a name in a directory. -/
inductive FileNode where
  | file (bytes : List UInt8) (executable : Bool)
  /-- A compiled program, known by its name. -/
  | program (name : String)
  | device (device : Device)
  | directory (entries : List (String × FileNode))
  deriving Repr, Inhabited

namespace FileNode

def isDirectory : FileNode → Bool
  | directory _ => true
  | _ => false

/-- Whether this is a file with contents. -/
def isRegular : FileNode → Bool
  | file _ _ | program _ => true
  | _ => false

/-- Whether this is a file that may be executed. -/
def isExecutable : FileNode → Bool
  | file _ executable => executable
  | program _ => true
  | _ => false

/-- The entries of a directory. -/
def entries : FileNode → List (String × FileNode)
  | directory entries => entries
  | _ => []

/-- What stands under a name. -/
def child? (node : FileNode) (name : String) : Option FileNode := node.entries.lookup name

/-- What stands at the end of a chain of names. -/
def find? : FileNode → List String → Option FileNode
  | node, [] => some node
  | node, name :: names => (node.child? name).bind fun child => child.find? names

/-- Entries in the order of their names, with one more or with one exchanged. -/
def putEntry (name : String) (node : FileNode) :
    List (String × FileNode) → List (String × FileNode)
  | [] => [(name, node)]
  | (n, e) :: rest =>
    if name < n then (name, node) :: (n, e) :: rest
    else if name = n then (name, node) :: rest
    else (n, e) :: putEntry name node rest

/-- The tree with `new` at the end of a chain of names, and directories on the way to it. -/
def put (new : FileNode) : List String → FileNode → FileNode
  | [], _ => new
  | name :: names, node =>
    directory (putEntry name (put new names ((node.child? name).getD (directory [])))
      node.entries)

/-- The tree without what stands at the end of a chain of names. -/
def remove : List String → FileNode → FileNode
  | [], node => node
  | [name], node => directory (node.entries.filter (·.1 ≠ name))
  | name :: names, node =>
    match node.child? name with
    | some child => directory (putEntry name (child.remove names) node.entries)
    | none => node

end FileNode

/-- A tree of files, and the directories of it that a program is given. -/
structure FileTree where
  root : FileNode
  /-- The names that lead from the root to the directory from which relative paths are seen. -/
  workingDir : List String
  /-- The names that lead from the root to the home directory. -/
  home : List String := ["root"]
  deriving Repr, Inhabited

namespace FileTree

/-- The names that lead from the root to where a piece of a path leads from `here`. -/
def enter (root : FileNode) (here : List String) (piece : String) :
    Except IoError (List String) :=
  match root.find? here with
  | some (.directory entries) =>
    if piece = "" || piece = "." then .ok here
    else if piece = ".." then .ok here.dropLast
    else if 255 < piece.utf8ByteSize then .error .nameTooLong
    else if (entries.lookup piece).isSome then .ok (here ++ [piece])
    else .error .notFound
  | some _ => .error .notDirectory
  | none => .error .notFound

/-- The names from the root to what a path names. -/
def locate (tree : FileTree) (path : String) : Except IoError (List String) :=
  if path.toList.contains '\x00' then .error .nulInName
  else if path.isEmpty then .error .notFound
  else if 4096 ≤ path.utf8ByteSize then .error .nameTooLong
  else
    (Text.pieces '/' path).foldlM (enter tree.root)
      (if Path.isAbsolute path then [] else tree.workingDir)

/-- What a path names. -/
def node (tree : FileTree) (path : String) : Except IoError FileNode := do
  match tree.root.find? (← tree.locate path) with
  | some node => return node
  | none => throw .notFound

/-- What a path names, if it names anything. -/
def node? (tree : FileTree) (path : String) : Option FileNode := (tree.node path).toOption

/-- Whether the path names a regular file. -/
def isRegular (tree : FileTree) (path : String) : Bool := (tree.node? path).any FileNode.isRegular

/-- Whether the path names a directory. -/
def isDirectory (tree : FileTree) (path : String) : Bool :=
  (tree.node? path).any FileNode.isDirectory

/-- Whether the path names a file that may be executed. -/
def isExecutable (tree : FileTree) (path : String) : Bool :=
  (tree.node? path).any FileNode.isExecutable

/-- The path of the working directory, if it is still there. -/
def currentDir (tree : FileTree) : Except IoError String :=
  if (tree.root.find? tree.workingDir).any FileNode.isDirectory then
    .ok ("/" ++ "/".intercalate tree.workingDir)
  else .error .notFound

/-- The path of the home directory, whether it is there or not. -/
def homeDir (tree : FileTree) : String := "/" ++ "/".intercalate tree.home

/-- The tree with a directory at a place, unless there is one. -/
def ensureDirectory (tree : FileTree) (place : List String) : FileTree :=
  if (tree.root.find? place).any FileNode.isDirectory then tree
  else { tree with root := (FileNode.directory []).put place tree.root }

/-- The tree with a node at a path from the working directory, and with the directories that the
path goes through. -/
def install (tree : FileTree) (node : FileNode) (path : String) : FileTree :=
  let enter : FileTree × List String → String → FileTree × List String
    | (tree, here), piece =>
      if piece = ".." then (tree, here.dropLast)
      else (tree.ensureDirectory (here ++ [piece]), here ++ [piece])
  let pieces := (Text.pieces '/' path).filter fun piece => piece != "" && piece != "."
  let (tree, here) := pieces.dropLast.foldl enter (tree, tree.workingDir)
  match node, pieces.getLast? with
  | _, none => tree
  | .directory [], some name => (enter (tree, here) name).1
  | node, some name => { tree with root := node.put (here ++ [name]) tree.root }

/-- The text of a file. -/
def readText (tree : FileTree) (path : String) : Except IoError String := do
  match ← tree.node path with
  | .file bytes _ =>
    match Text.Utf8.decode? bytes with
    | some s => return s
    | none => throw .invalidUtf8
  | .program _ => throw .invalidUtf8
  | .device _ => return ""
  | .directory _ => throw .isDirectory

end FileTree

end CommandSuite
