import CommandSuite.FileTree
import CommandSuite.Machine.ExitStatus
import CommandSuite.Text.Bytes

/-!
# The machine

The machine holds what processes share: the files, the channels that their descriptors lead to,
what they have printed so far, and a clock. Processes run one after the other. One that another
starts and does not wait for runs first, but what it prints carries the time of its own clock, and
the output of a run is put in the order of time (`Machine.output`).

A pipe is written by one process and then read by the next. A writer that puts more into a pipe
than `Machine.pipeCapacity` is taken for one whose reader has gone, and a signal ends it.
-/

namespace CommandSuite

/-- A file as a process has opened it. -/
structure OpenFile where
  /-- The names that lead from the root to the file. -/
  place : List String
  /-- The number of bytes before the next one. -/
  offset : Nat := 0
  /-- Whether everything is written to the end. -/
  appends : Bool := false
  readable : Bool := false
  writable : Bool := false
  deriving Repr

/-- What a descriptor leads to. -/
inductive Channel where
  /-- The output of the run. -/
  | output
  | device (device : Device)
  | directory
  | file (file : OpenFile)
  /-- What was written and not read, latest first, and how much room that takes. -/
  | pipe (unread : List String) (size : Nat)
  deriving Repr, Inhabited

/-- What processes share. -/
structure Machine where
  root : FileNode
  channels : Array Channel := #[]
  /-- What was printed to the output of the run, latest first, with the time. -/
  printed : List (Nat × String) := []
  /-- The time in microseconds. -/
  clock : Nat := 0
  /-- The number of the process that was started last. -/
  lastProcess : Nat := 1
  deriving Inhabited

/-- A step of a process, which may be its last. -/
abbrev Act := ExceptT ExitStatus (StateM Machine)

namespace Machine

/-- The room in a pipe, in bytes, and the most bytes that are read from an endless device at
once. -/
def pipeCapacity : Nat := 2097152

/-- The room that a text takes in a pipe. A short one takes more than its bytes. -/
def roomFor (s : String) : Nat := max s.length 16

/-- What was printed, in the order of time. -/
def output (machine : Machine) : String :=
  String.join ((machine.printed.reverse.mergeSort fun a b => a.1 ≤ b.1).map Prod.snd)

/-- A new channel; its number is given. -/
def openChannel (channel : Channel) : Act Nat :=
  modifyGet fun machine =>
    (machine.channels.size, { machine with channels := machine.channels.push channel })

def setChannel (id : Nat) (channel : Channel) : Act Unit :=
  modify fun machine => { machine with channels := machine.channels.setIfInBounds id channel }

/-- The contents of a file, if it is still there. -/
def contents? (place : List String) : Act (Option (String × Bool)) := do
  match (← get).root.find? place with
  | some (.file bytes executable) => return some (Text.ofBytes bytes, executable)
  | _ => return none

def putNode (place : List String) (node : FileNode) : Act Unit :=
  modify fun machine => { machine with root := node.put place machine.root }

def removeNode (place : List String) : Act Unit :=
  modify fun machine => { machine with root := machine.root.remove place }

/-- A text with another written over it from an offset on. A gap is filled with zero bytes. -/
def overwrite (old new : String) (offset : Nat) : String :=
  let old := old.toList
  String.ofList (old.take offset ++ List.replicate (offset - old.length) '\x00')
    ++ new ++ String.ofList (old.drop (offset + new.length))

/-- Writes to an open file. -/
def writeFile (id : Nat) (file : OpenFile) (s : String) : Act Unit := do
  if let some (old, executable) ← contents? file.place then
    let offset := if file.appends then old.length else file.offset
    putNode file.place (.file (Text.toBytes (overwrite old s offset)) executable)
    setChannel id (.file { file with offset := offset + s.length })

/-- Writes to a channel. -/
def write (id : Nat) (s : String) : Act (Except IoError Unit) := do
  match (← get).channels[id]? with
  | some .output =>
    modify fun machine => { machine with printed := (machine.clock, s) :: machine.printed }
    return .ok ()
  | some (.device _) => return .ok ()
  | some (.pipe unread size) =>
    if pipeCapacity < size + roomFor s then
      setChannel id (.pipe ((s.take (pipeCapacity - size)).toString :: unread) pipeCapacity)
      throw (.signal 13)
    setChannel id (.pipe (s :: unread) (size + roomFor s))
    return .ok ()
  | some (.file file) =>
    if file.writable then
      writeFile id file s
      return .ok ()
    else return .error .badDescriptor
  | some .directory | none => return .error .badDescriptor

/-- What there is to read from a channel. Of an endless device it is a part. -/
def unread (id : Nat) : Act (Except IoError String) := do
  match (← get).channels[id]? with
  | some (.device .null) => return .ok ""
  | some (.device .zero) => return .ok (String.ofList (List.replicate (pipeCapacity + 1) '\x00'))
  | some (.pipe unread _) => return .ok (String.join unread.reverse)
  | some (.file file) =>
    if file.readable then
      let contents := ((← contents? file.place).map Prod.fst).getD ""
      return .ok (String.ofList (contents.toList.drop file.offset))
    else return .error .badDescriptor
  | some .directory => return .error .isDirectory
  | some .output | none => return .error .badDescriptor

/-- Takes so many bytes as read. -/
def skip (id count : Nat) : Act Unit := do
  match (← get).channels[id]? with
  | some (.pipe unread _) =>
    let rest := (String.join unread.reverse).toList.drop count
    setChannel id (.pipe [String.ofList rest] rest.length)
  | some (.file file) => setChannel id (.file { file with offset := file.offset + count })
  | _ => return ()

end Machine

end CommandSuite
