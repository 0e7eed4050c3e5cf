import CommandSuite.Machine.Channel

/-!
# Processes

A process owns descriptors, a working directory and an environment. Everything it is given and
gives is byte text. `Process.image` says what starting a file comes to: a file may name the
program that interprets it in its first line.
-/

namespace CommandSuite

namespace FileTree

/-- The place that a path names in a directory that is there, whether or not something stands at
it. -/
def placeFor (tree : FileTree) (path : String) : Except IoError (List String) :=
  match tree.locate path with
  | .ok place => .ok place
  | .error .notFound =>
    let pieces := Text.pieces '/' path
    match pieces.getLast? with
    | none | some "" => .error .notFound
    | some name => do
      let above := "/".intercalate pieces.dropLast
      let place ← if pieces.length = 1 then .ok tree.workingDir
        else tree.locate (if above.isEmpty then "/" else above)
      match tree.root.find? place with
      | some (.directory _) =>
        if 255 < name.utf8ByteSize then .error .nameTooLong else .ok (place ++ [name])
      | some _ => .error .notDirectory
      | none => .error .notFound
  | .error e => .error e

end FileTree

/-- What a process has of its own. -/
structure Process where
  id : Nat
  /-- The name by which its program was called. -/
  name : String := ""
  /-- The channel of each descriptor. -/
  descriptors : List (Nat × Nat)
  /-- The names that lead from the root to the working directory. -/
  directory : List String
  environment : List (String × String)
  deriving Repr, Inhabited

/-- What a file is opened for. -/
inductive OpenMode where
  | read
  /-- Writing to what is then an empty file. -/
  | truncate
  | append
  | readWrite
  deriving Repr, DecidableEq

namespace Process

/-- The files as the process sees them. -/
def tree (process : Process) : Act FileTree :=
  return { root := (← get).root, workingDir := process.directory }

/-- What a path names. -/
def node (process : Process) (path : String) : Act (Except IoError FileNode) :=
  return (← process.tree).node (Text.ofByteText path)

/-- The place of what a path names, or could name. -/
def placeFor (process : Process) (path : String) : Act (Except IoError (List String)) :=
  return (← process.tree).placeFor (Text.ofByteText path)

/-- A variable of the environment. -/
def setting? (process : Process) (name : String) : Option String :=
  process.environment.lookup name

/-- Writes to a descriptor. -/
def write (process : Process) (descriptor : Nat) (s : String) : Act (Except IoError Unit) := do
  match process.descriptors.lookup descriptor with
  | some channel => Machine.write channel s
  | none => return .error .badDescriptor

/-- Writes to standard error, if there is one. -/
def complain (process : Process) (s : String) : Act Unit := do
  let _ ← process.write 2 s

/-- What can be read from a descriptor. -/
def unread (process : Process) (descriptor : Nat) : Act (Except IoError String) := do
  match process.descriptors.lookup descriptor with
  | some channel => Machine.unread channel
  | none => return .error .badDescriptor

/-- Takes so many bytes of a descriptor as read. -/
def skip (process : Process) (descriptor count : Nat) : Act Unit := do
  if let some channel := process.descriptors.lookup descriptor then Machine.skip channel count

/-- What is left to read from a descriptor. -/
def readAll (process : Process) (descriptor : Nat) : Act (Except IoError String) := do
  match ← process.unread descriptor with
  | .ok s =>
    process.skip descriptor s.length
    return .ok s
  | .error e => return .error e

/-- The descriptors with one more, or with one that leads elsewhere. -/
def setDescriptor (process : Process) (descriptor channel : Nat) : Process :=
  { process with
    descriptors := (descriptor, channel) :: process.descriptors.filter (·.1 ≠ descriptor) }

def closeDescriptor (process : Process) (descriptor : Nat) : Process :=
  { process with descriptors := process.descriptors.filter (·.1 ≠ descriptor) }

/-- The channel that opening a node in a mode gives; a file loses its contents if the mode says
so. -/
def channelOf (mode : OpenMode) (place : List String) :
    FileNode → Act (Except IoError Channel)
  | .device device => return .ok (.device device)
  | .directory _ => return if mode = .read then .ok .directory else .error .isDirectory
  | .program _ => return .error .permissionDenied
  | .file _ executable => do
    if mode = .truncate then Machine.putNode place (.file [] executable)
    return .ok (.file
      { place
        appends := mode = .append
        readable := mode = .read || mode = .readWrite
        writable := mode ≠ .read })

/-- Opens a path; a file that is to be written is made if there is none. -/
def openPath (process : Process) (mode : OpenMode) (path : String) :
    Act (Except IoError Nat) := do
  let tree ← process.tree
  match tree.node (Text.ofByteText path), tree.placeFor (Text.ofByteText path) with
  | .ok node, .ok place =>
    match ← channelOf mode place node with
    | .ok channel => return .ok (← Machine.openChannel channel)
    | .error e => return .error e
  | .error .notFound, .ok place =>
    if mode = .read then return .error .notFound
    Machine.putNode place (.file [] false)
    match ← channelOf mode place (.file [] false) with
    | .ok channel => return .ok (← Machine.openChannel channel)
    | .error e => return .error e
  | .error e, _ => return .error e
  | _, .error e => return .error e

/-! ## What a file runs -/

/-- A compiled program, the name it is called by and its arguments. -/
structure Image where
  program : String
  name : String
  arguments : List String
  deriving Repr

def isSpace (c : Char) : Bool := c = ' ' || c = '\t'

/-- The interpreter that a file names in its first line, and the argument that it is to get. -/
def interpreter? (contents : String) : Option (String × Option String) :=
  match contents.toList with
  | '#' :: '!' :: rest =>
    let line := (rest.takeWhile (· ≠ '\n')).dropWhile isSpace
    let line := (line.reverse.dropWhile isSpace).reverse
    let argument := (line.dropWhile fun c => !isSpace c).dropWhile isSpace
    some (String.ofList (line.takeWhile fun c => !isSpace c),
      if argument.isEmpty then none else some (String.ofList argument))
  | _ => none

/-- What starting the file at a path comes to. An interpreter may be interpreted itself, but not
without end. -/
def imageOf (tree : FileTree) (name : String) (arguments : List String) :
    Nat → String → Except IoError Image
  | 0, _ => .error .execFormat
  | depth + 1, path => do
    match ← tree.node (Text.ofByteText path) with
    | .program program => return { program, name, arguments }
    | .file bytes true =>
      match interpreter? (Text.ofBytes bytes) with
      | some (interpreter, argument) =>
        imageOf tree interpreter (argument.toList ++ path :: arguments) depth interpreter
      | none => throw .execFormat
    | _ => throw .permissionDenied

/-- What starting one of several paths comes to: the first that there is. That one may not be
started is told only if there is no other. -/
def firstImage (tree : FileTree) (name : String) (arguments : List String) (denied : Bool) :
    List String → Except IoError Image
  | [] => .error (if denied then .permissionDenied else .notFound)
  | path :: paths =>
    match imageOf tree name arguments 5 path with
    | .ok image => .ok image
    | .error .notFound | .error .notDirectory => firstImage tree name arguments denied paths
    | .error .permissionDenied => firstImage tree name arguments true paths
    | .error e => .error e

/-- The paths at which a program may lie: the one it is named by, or those that the search path
gives. -/
def candidates (searchPath name : String) : List String :=
  if Path.isPathLike name then [name]
  else (Text.pieces ':' searchPath).map fun dir =>
    if dir.isEmpty then name else Path.join dir name

/-- What starting a program comes to in a file tree. -/
def imageIn (tree : FileTree) (searchPath name : String) (arguments : List String) :
    Except IoError Image :=
  if Path.isPathLike name then imageOf tree name arguments 5 name
  else firstImage tree name arguments false (candidates searchPath name)

/-- What starting a program comes to. -/
def image (process : Process) (searchPath name : String) (arguments : List String) :
    Act (Except IoError Image) :=
  return imageIn (← process.tree) searchPath name arguments

end Process

end CommandSuite
