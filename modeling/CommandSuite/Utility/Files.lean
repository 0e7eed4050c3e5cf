import CommandSuite.Utility.Basic

/-!
# Utilities on files

`ls`, `rm`, `rmdir`, `mkdir`, `touch`, `cp`, `mv`, `chmod`. They take their operands one by one,
and one that fails is no reason to leave out the next.
-/

namespace CommandSuite.Utility

open CommandSuite.Text (namedAlways)

/-- Does something with each operand; what is wrong with one is complained of, and gives the
status. -/
def forEachOperand (process : Process) (status : Nat)
    (act : String → Act (Option String)) : List String → Act Nat
  | [] => return status
  | operand :: operands => do
    match ← act operand with
    | none => forEachOperand process status act operands
    | some what =>
      process.complain (complaint process what)
      forEachOperand process 1 act operands

/-! ## Listing -/

/-- The names in a directory that are listed, in their order. -/
def listedNames (given : Given) (node : FileNode) : List String :=
  let names := (node.entries.map fun entry => Text.byteText entry.1).mergeSort (· ≤ ·)
  if given.has 'a' then "." :: ".." :: names
  else if given.has 'A' then names
  else names.filter fun name => !name.startsWith "."

/-- The mark behind a name that tells what it is. -/
def kindMark (given : Given) (node : Option FileNode) : String :=
  match node with
  | some node =>
    if node.isDirectory then (if given.has 'F' || given.has 'p' then "/" else "")
    else if given.has 'F' && node.isExecutable then "*" else ""
  | none => ""

/-- The lines of a directory. -/
def listDirectory (given : Given) (node : FileNode) : String :=
  let names := listedNames given node
  let names := if given.has 'r' then names.reverse else names
  unlines (names.map fun name =>
    if name = "." || name = ".." then name ++ (if given.has 'F' || given.has 'p' then "/" else "")
    else name ++ kindMark given (node.child? (Text.ofByteText name)))

/-- A directory and those below it, each with its path. -/
def directoriesBelow : Nat → String → FileNode → List (String × FileNode)
  | 0, _, _ => []
  | depth + 1, path, node =>
    let inner := node.entries.filterMap fun (name, child) =>
      if child.isDirectory && !name.startsWith "." then some (Text.byteText name, child) else none
    (path, node) :: (inner.mergeSort fun a b => a.1 ≤ b.1).flatMap fun (name, child) =>
      directoriesBelow depth (path ++ "/" ++ name) child

/-- What is there of some operands; what is not is complained of. -/
def lookUpAll (process : Process) (complain : String → IoError → String) :
    List String → Act (List (String × FileNode) × Bool)
  | [] => return ([], true)
  | path :: paths => do
    match ← process.node path with
    | .ok node =>
      let (rest, complete) ← lookUpAll process complain paths
      return ((path, node) :: rest, complete)
    | .error e =>
      process.complain (complain path e)
      let (rest, _) ← lookUpAll process complain paths
      return (rest, false)

def ls : Utility :=
  withOptions 2 { flags := "1aACdFlpRrU", long := [("all", 'a'), ("almost-all", 'A')] }
    fun process given => do
      let operands := if given.operands.isEmpty then ["."] else given.operands
      let (found, complete) ← lookUpAll process
        (fun path e =>
          complaint process ("cannot access " ++ namedAlways path ++ ": " ++ e.description))
        operands
      let found := found.mergeSort fun a b => a.1 ≤ b.1
      let isFile := fun (entry : String × FileNode) => given.has 'd' || !entry.2.isDirectory
      let files := found.filter isFile
      let directories := found.filter fun entry => !isFile entry
      let directories := if given.has 'R' then
          directories.flatMap fun (path, node) => directoriesBelow 64 path node
        else directories
      let fileLines := unlines (files.map fun (path, node) => path ++ kindMark given (some node))
      let headed := 1 < operands.length || given.has 'R'
      let blocks := directories.map fun (path, node) =>
        (if headed then path ++ ":\n" else "") ++ listDirectory given node
      let blocks := if files.isEmpty then blocks else fileLines :: blocks
      finishWith 2 process ("\n".intercalate blocks) (if complete then 0 else 2)

/-! ## Making and removing -/

/-- Removes what a path names. -/
def removeOne (process : Process) (given : Given) (path : String) : Act (Option String) := do
  let cannot (what : String) : Option String :=
    some ("cannot remove " ++ namedAlways path ++ ": " ++ what)
  let forced := given.has 'f'
  match ← process.node path, ← process.placeFor path with
  | .ok node, .ok place =>
    if node.isDirectory && !(given.has 'r' || given.has 'R') then
      if given.has 'd' && node.entries.isEmpty then
        Machine.removeNode place
        return none
      return cannot IoError.isDirectory.description
    Machine.removeNode place
    return none
  | .error .notFound, _ => return if forced then none else cannot IoError.notFound.description
  | .error e, _ | _, .error e => return cannot e.description

def rm : Utility :=
  withOptions 1 { flags := "dfirRv", long := [("force", 'f'), ("recursive", 'r')] }
    fun process given =>
      if given.operands.isEmpty then
        if given.has 'f' then return 0 else misused process "missing operand"
      else forEachOperand process 0 (removeOne process given) given.operands

def rmdir : Utility :=
  withOptions 1 { flags := "pv" } fun process given =>
    if given.operands.isEmpty then misused process "missing operand"
    else
      forEachOperand process 0 (fun path => do
        let cannot (e : IoError) : Option String :=
          some ("failed to remove " ++ namedAlways path ++ ": " ++ e.description)
        match ← process.node path, ← process.placeFor path with
        | .ok node, .ok place =>
          if !node.isDirectory then return cannot .notDirectory
          if !node.entries.isEmpty then return cannot .notEmpty
          Machine.removeNode place
          return none
        | .error e, _ | _, .error e => return cannot e) given.operands

/-- The directories that a path goes through, from the first on. -/
def leadingPaths (path : String) : List String :=
  let pieces := Text.pieces '/' path
  (List.range pieces.length).filterMap fun i =>
    let s := "/".intercalate (pieces.take (i + 1))
    if s.isEmpty then none else some s

/-- A path without slashes at its end. -/
def trimSlashes (path : String) : String :=
  match path.toList.reverse.dropWhile (· = '/') with
  | [] => if path.isEmpty then "" else "/"
  | cs => String.ofList cs.reverse

/-- Makes a directory; with `among` those that it lies in are made too. -/
def makeDirectory (process : Process) (among : Bool) (path : String) : Act (Option String) := do
  let path' := trimSlashes path
  let cannot (e : IoError) : Option String :=
    some ("cannot create directory " ++ namedAlways path ++ ": " ++ e.description)
  match ← process.node path' with
  | .ok node =>
    return if among && node.isDirectory then none else cannot .alreadyExists
  | .error _ =>
    match ← process.placeFor path' with
    | .ok place =>
      Machine.putNode place (.directory [])
      return none
    | .error e => return cannot e

def mkdir : Utility :=
  withOptions 1 { flags := "pv", valued := "m", long := [("parents", 'p')] } fun process given =>
    if given.operands.isEmpty then misused process "missing operand"
    else
      forEachOperand process 0 (fun path => do
        if given.has 'p' then
          let results ← (leadingPaths (trimSlashes path)).mapM (makeDirectory process true)
          return results.findSome? id
        else makeDirectory process false path) given.operands

def touch : Utility :=
  withOptions 1 { flags := "acm" } fun process given =>
    if given.operands.isEmpty then misused process "missing file operand"
    else
      forEachOperand process 0 (fun path => do
        match ← process.node path with
        | .ok _ => return none
        | .error _ =>
          if given.has 'c' then return none
          match ← process.openPath .append path with
          | .ok _ => return none
          | .error e =>
            return some ("cannot touch " ++ namedAlways path ++ ": " ++ e.description))
        given.operands

/-! ## Copying and moving -/

/-- The last component of a path. -/
def lastName (path : String) : String := ((Text.pieces '/' (trimSlashes path)).getLast?).getD path

/-- The path at which something arrives that is brought to a target. -/
def arrival (process : Process) (target source : String) : Act String := do
  match ← process.node target with
  | .ok (.directory _) => return Path.join target (lastName source)
  | _ => return target

def cp : Utility :=
  withOptions 1 { flags := "rRafpv", long := [("recursive", 'r')] } fun process given =>
    match given.operands.reverse with
    | [] => misused process "missing file operand"
    | [source] =>
      misused process ("missing destination file operand after " ++ namedAlways source)
    | target :: sources =>
      forEachOperand process 0 (fun source => do
        match ← process.node source with
        | .error e => return some ("cannot stat " ++ namedAlways source ++ ": " ++ e.description)
        | .ok node =>
          if node.isDirectory && !(given.has 'r' || given.has 'R' || given.has 'a') then
            return some ("-r not specified; omitting directory " ++ namedAlways source)
          let path ← arrival process target source
          match ← process.placeFor path with
          | .error e =>
            return some
              ("cannot create regular file " ++ namedAlways path ++ ": " ++ e.description)
          | .ok place =>
            match node, (← get).root.find? place with
            | .file bytes _, some (.file _ executable) =>
              Machine.putNode place (.file bytes executable)
            | node, _ => Machine.putNode place node
            return none) sources.reverse

def mv : Utility :=
  withOptions 1 { flags := "fnv" } fun process given =>
    match given.operands.reverse with
    | [] => misused process "missing file operand"
    | [source] =>
      misused process ("missing destination file operand after " ++ namedAlways source)
    | target :: sources =>
      forEachOperand process 0 (fun source => do
        match ← process.node source, ← process.placeFor source with
        | .ok node, .ok origin =>
          let path ← arrival process target source
          match ← process.placeFor path with
          | .error e =>
            return some
              ("cannot move " ++ namedAlways source ++ " to " ++ namedAlways path ++ ": " ++
                e.description)
          | .ok place =>
            if place ≠ origin then
              Machine.removeNode origin
              Machine.putNode place node
            return none
        | .error e, _ | _, .error e =>
          return some ("cannot stat " ++ namedAlways source ++ ": " ++ e.description))
        sources.reverse

/-- Whether a mode makes a file executable, given whether it is. -/
def modeExecutable? (mode : String) (executable : Bool) : Option Bool :=
  match mode.toList.reverse with
  | [] => none
  | cs =>
    if cs.all (Text.isDigitOf 8) then some (Text.ofDigits 8 cs.reverse % 128 / 64 = 1)
    else if mode.toList.contains '+' then some (executable || mode.toList.contains 'x')
    else if mode.toList.contains '-' then some (executable && !mode.toList.contains 'x')
    else if mode.toList.contains '=' then some (mode.toList.contains 'x')
    else none

def chmod : Utility := fun process arguments =>
  match arguments with
  | [] => misused process "missing operand"
  | [mode] => misused process ("missing operand after " ++ namedAlways mode)
  | mode :: paths =>
    if (modeExecutable? mode false).isNone then
      misused process ("invalid mode: " ++ namedAlways mode)
    else
      forEachOperand process 0 (fun path => do
        match ← process.node path, ← process.placeFor path with
        | .ok (.file bytes executable), .ok place =>
          Machine.putNode place (.file bytes ((modeExecutable? mode executable).getD executable))
          return none
        | .ok _, .ok _ => return none
        | .error e, _ | _, .error e =>
          return some ("cannot access " ++ namedAlways path ++ ": " ++ e.description)) paths

end CommandSuite.Utility
