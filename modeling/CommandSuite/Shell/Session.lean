import CommandSuite.Shell.Syntax
import CommandSuite.Shell.Field

/-!
# Sessions

A session is what one shell has of its own: its process, its variables and functions, and what it
remembers of commands that have run. A step of a shell (`Eval`) works on a session and the
machine, and may end by a jump: out of a loop, a function or the shell itself.
-/

namespace CommandSuite.Shell

/-- A variable, which may have no value yet. -/
structure Variable where
  value : Option String
  exported : Bool := false
  readOnly : Bool := false
  deriving Repr, Inhabited

/-- A process that runs beside the shell: its number, when it ends, and how. -/
structure Job where
  process : Nat
  ends : Nat
  status : ExitStatus
  deriving Repr

/-- What a shell has of its own. -/
structure Session where
  process : Process
  /-- The number that `$$` stands for, also in subshells. -/
  shellProcess : Nat
  name : String
  arguments : List String
  /-- The variables by name, those set last first. -/
  bound : List (String × Variable) := []
  functions : List (String × Command) := []
  /-- The options that are on, by their letters. -/
  flags : List Char := []
  /-- The status of the last command. -/
  status : Nat := 0
  jobs : List Job := []
  /-- The line of the command that runs. -/
  line : Nat := 0
  /-- The builtin that runs. -/
  builtin : Option String := none
  /-- What is to run at a signal; the end of the shell has number 0. -/
  traps : List (Nat × String) := []
  /-- The signals that have come and not been answered. -/
  pending : List Nat := []
  loops : Nat := 0
  /-- For each function that runs, the variables it has made its own, as they were before. -/
  scopes : List (List (String × Option Variable)) := []
  /-- The programs that were looked up in the search path. -/
  hashed : List String := []
  /-- The index and the offset at which `getopts` goes on. -/
  optionPlace : Option (Nat × Nat) := none
  /-- The status of the last command whose output was substituted. -/
  substituted : Option Nat := none
  deriving Inhabited

/-- A session and what it shares with others. -/
structure State where
  session : Session
  machine : Machine

/-- Why the commands that follow are not run. -/
inductive Jump where
  /-- The shell ends. -/
  | exit (status : Nat)
  /-- Something was wrong that ends a shell, unless a builtin was to blame. -/
  | failure (status : Nat)
  /-- A signal has ended a process. -/
  | killed (process signal : Nat)
  | endLoops (count : Nat)
  | nextRound (count : Nat)
  | return (status : Nat)
  /-- There was no more fuel. -/
  | exhausted
  deriving Repr

/-- A step of a shell. -/
abbrev Eval := ExceptT Jump (StateM State)

namespace Session

def has (session : Session) (flag : Char) : Bool := session.flags.contains flag

def find? (session : Session) (name : String) : Option Variable := session.bound.lookup name

/-- The value of a variable. -/
def value? (session : Session) (name : String) : Option String :=
  (session.find? name).bind Variable.value

def putVariable (session : Session) (name : String) (v : Variable) : Session :=
  { session with bound := (name, v) :: session.bound.filter (·.1 ≠ name) }

def removeVariable (session : Session) (name : String) : Session :=
  { session with bound := session.bound.filter (·.1 ≠ name) }

/-- The separators of fields. -/
def separators (session : Session) : String := (session.value? "IFS").getD defaultSeparators

def searchPath (session : Session) : String := (session.value? "PATH").getD ""

/-- The environment of processes that the shell starts. -/
def environment (session : Session) : List (String × String) :=
  session.bound.reverse.filterMap fun (name, v) =>
    if v.exported then v.value.map fun value => (name, value) else none

end Session

/-! ## Steps -/

def session : Eval Session := return (← get).session

def modifySession (f : Session → Session) : Eval Unit :=
  modify fun state => { state with session := f state.session }

def setStatus (status : Nat) : Eval Unit := modifySession fun s => { s with status }

/-- A step of the machine that the shell takes itself; a signal ends the shell. -/
def act {α : Type} (a : Act α) : Eval α := do
  let state ← get
  let (result, machine) := a.run state.machine
  set { state with machine }
  match result with
  | .ok a => return a
  | .error (.signal n) => throw (.killed state.session.process.id n)
  | .error (.code n) => throw (.exit n)

/-- A program that ends by itself or by a signal. -/
def program (a : Act Nat) : Eval ExitStatus :=
  modifyGet fun state =>
    let (result, machine) := a.run state.machine
    let status := match result with
      | .ok n => .ofNat n
      | .error status => status
    (status, { state with machine })

/-- A text to standard error. -/
def complainPlain (s : String) : Eval Unit := do act ((← session).process.complain s)

/-- A message with the name of the shell, the line, and the builtin that runs. -/
def complain (what : String) : Eval Unit := do
  let s ← session
  let builtin := match s.builtin with
    | some name => name ++ ": "
    | none => ""
  complainPlain (s.name ++ ": " ++ toString s.line ++ ": " ++ builtin ++ what ++ "\n")

/-- Ends what runs with a message. -/
def fail {α : Type} (what : String) : Eval α := do
  complain what
  setStatus 2
  throw (.failure 2)

/-- A text to standard output; tells whether it could be written. -/
def print (s : String) : Eval Bool := do
  if s.isEmpty then return true
  match ← act ((← session).process.write 1 s) with
  | .ok () => return true
  | .error _ => return false

/-- The number of a new process. -/
def newProcess : Eval Nat :=
  modifyGet fun state =>
    let n := state.machine.lastProcess + 1
    (n, { state with machine := { state.machine with lastProcess := n } })

def setClock (time : Nat) : Eval Unit :=
  modify fun state => { state with machine := { state.machine with clock := time } }

/-- Sets a variable. -/
def setVariable (name value : String) : Eval Unit := do
  let s ← session
  let old := (s.find? name).getD { value := none }
  if old.readOnly then fail (name ++ ": is read only")
  let exported := old.exported || s.has 'a'
  modifySession fun s => s.putVariable name { old with value := some value, exported }
  if name = "PATH" then modifySession fun s => { s with hashed := [] }

/-- Removes a variable. -/
def unsetVariable (name : String) : Eval Unit := do
  if ((← session).find? name).any Variable.readOnly then fail (name ++ ": is read only")
  modifySession fun s => s.removeVariable name

/-- Runs a step and gives its jump, if it ends by one. -/
def catching {α : Type} (e : Eval α) : Eval (Except Jump α) := do
  let state ← get
  let (result, state) := e.run state
  set state
  return result

end CommandSuite.Shell
