import CommandSuite.Outcome
import CommandSuite.Shell.Evaluation
import CommandSuite.Text.Blank

/-!
# Hosts

A host executes invocations on the machine. Standard input is empty, standard output and standard
error are one, and the output is complete when every process that could still write to it has
ended. What one invocation does to the files the next one finds.
-/

namespace CommandSuite

/-- What processes are given that the host starts. -/
structure Host where
  /-- The names that lead from the root to the working directory. -/
  workingDir : List String
  environment : List (String × String)

namespace Host

/-- The variable that holds the search path. -/
def searchPathVariable : String := "PATH"

/-- The search path where none is set. -/
def defaultSearchPath : String := "/bin:/usr/bin"

/-- The most bytes in one argument or variable, with the byte that ends it. -/
def argumentLimit : Nat := 131072

/-- The fuel of an execution. -/
def fuel : Nat := 1000000

/-- Whether there is nothing to be run. -/
def isEmpty : Invocation → Bool
  | .direct program _ => program.isEmpty
  | .script text _ => Text.isBlank text

/-- The argument vector of the process that an invocation starts. -/
def command (invocation : Invocation) : Except RunError (List String) :=
  if isEmpty invocation then .error .emptyCommand else .ok invocation.words

/-- The variables that an invocation adds. -/
def additions : Invocation → List (String × String)
  | .direct _ _ => []
  | .script _ environment => environment

/-- What the system objects to, whatever the program. -/
def objection? (words : List String) (additions : List (String × String)) : Option IoError :=
  let settings := additions.map fun (name, value) => name ++ "=" ++ value
  let texts := words ++ settings
  if texts.any fun s => s.toList.contains '\x00' then some .nulInArgument
  else if texts.any fun s => argumentLimit ≤ s.utf8ByteSize then some .argumentsTooLong
  else none

/-- Runs an image and gives the output and the exit code. -/
def runImage (image : Process.Image) (process : Process) (machine : Machine) :
    Execution × Machine :=
  let channels := #[.device .null, .output]
  let process := { process with
    id := machine.lastProcess + 1
    descriptors := [(0, 0), (1, 1), (2, 1)] }
  let machine := { machine with channels, printed := [], lastProcess := machine.lastProcess + 1 }
  let (result, state) := (Shell.runImage fuel process image).run { session := default, machine }
  let status := match result with
    | .ok status => status
    | .error _ => .signal 9
  ({ output := Text.ofByteText state.machine.output
     exitCode := status.code?
     error := none }, { state.machine with printed := [], channels := #[] })

/-- Executes an invocation on the machine. -/
def execute (host : Host) : Executor (StateM Machine) := fun invocation => do
  match command invocation with
  | .error e => return .failed e
  | .ok words =>
    match objection? words (additions invocation) with
    | some e => return .failed (.spawn e.message)
    | none =>
      let bytes (settings : List (String × String)) : List (String × String) :=
        settings.map fun (name, value) => (Text.byteText name, Text.byteText value)
      let environment :=
        Shell.overlay (bytes host.environment) (bytes (additions invocation))
      let searchPath := (environment.lookup searchPathVariable).getD defaultSearchPath
      let process : Process :=
        { id := 0, descriptors := [], directory := host.workingDir, environment }
      let machine ← get
      let tree : FileTree := { root := machine.root, workingDir := host.workingDir }
      let words := words.map Text.byteText
      match Process.imageIn tree searchPath (words.headD "") words.tail with
      | .error e => return .failed (.spawn e.message)
      | .ok image => modifyGet (runImage image process)

end Host

end CommandSuite
