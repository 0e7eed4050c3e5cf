import CommandSuite.Machine.Process
import CommandSuite.Text.Named
import CommandSuite.Text.Numeral

/-!
# Utilities

A utility is a compiled program of the machine. It gets its arguments, prints what it makes of
them and complains of what is wrong, and ends with a number. Options are single letters behind
`-`, or words behind `--` that stand for such letters; they may stand among the operands.
-/

namespace CommandSuite

/-- A compiled program. -/
abbrev Utility := Process → List String → Act Nat

namespace Utility

/-! ## Options -/

/-- The options of a utility. -/
structure Options where
  /-- The options that stand for themselves. -/
  flags : String := ""
  /-- The options that take a value. -/
  valued : String := ""
  /-- The words that stand for options. -/
  long : List (String × Char) := []

/-- What a utility is given. -/
structure Given where
  /-- The options in their order, each with its value. -/
  options : List (Char × String) := []
  operands : List String := []

namespace Given

def has (given : Given) (option : Char) : Bool := given.options.any (·.1 = option)

/-- The last value of an option. -/
def value? (given : Given) (option : Char) : Option String := given.options.reverse.lookup option

def addOperand (operand : String) (given : Given) : Given :=
  { given with operands := operand :: given.operands }

def addOption (option : Char) (value : String) (given : Given) : Given :=
  { given with options := (option, value) :: given.options }

end Given

/-- The options in an argument of letters. The last may be one that lacks its value. -/
def Options.readLetters (options : Options) :
    List Char → Except String (List (Char × String) × Option Char)
  | [] => .ok ([], none)
  | c :: cs =>
    if options.flags.toList.contains c then do
      let (given, open?) ← options.readLetters cs
      return ((c, "") :: given, open?)
    else if options.valued.toList.contains c then
      .ok (if cs.isEmpty then ([], some c) else ([(c, String.ofList cs)], none))
    else .error ("invalid option -- '" ++ c.toString ++ "'")

/-- Options and operands of an argument list. An option may await its value, and is called by a
name until it has one. -/
def Options.readFrom (options : Options) :
    Option (Char × String) → List String → Except String Given
  | none, [] => .ok {}
  | some (_, name), [] => .error name
  | some (letter, _), value :: rest =>
    return (← options.readFrom none rest).addOption letter value
  | none, argument :: rest =>
    match argument.toList with
    | ['-', '-'] => .ok { operands := rest }
    | '-' :: '-' :: word =>
      match options.long.lookup (String.ofList (word.takeWhile (· ≠ '='))) with
      | none => .error ("unrecognized option '" ++ argument ++ "'")
      | some letter =>
        if word.contains '=' then
          let value := String.ofList ((word.dropWhile (· ≠ '=')).drop 1)
          return (← options.readFrom none rest).addOption letter value
        else if options.flags.toList.contains letter then
          return (← options.readFrom none rest).addOption letter ""
        else options.readFrom (some (letter, "option '" ++ argument ++ "' requires an argument"))
          rest
    | '-' :: c :: cs => do
      let (given, open?) ← options.readLetters (c :: cs)
      let awaited := open?.map fun letter =>
        (letter, "option requires an argument -- '" ++ letter.toString ++ "'")
      let more ← options.readFrom awaited rest
      return { more with options := given ++ more.options }
    | _ => return (← options.readFrom none rest).addOperand argument

/-- Options and operands of an argument list. -/
def Options.read (options : Options) (arguments : List String) : Except String Given :=
  options.readFrom none arguments

/-! ## Printing -/

/-- The line by which a utility tells what is wrong. -/
def complaint (process : Process) (what : String) : String := process.name ++ ": " ++ what ++ "\n"

/-- The hint that follows a complaint about the arguments. -/
def hint (process : Process) : String :=
  "Try '" ++ process.name ++ " --help' for more information.\n"

/-- Ends a utility that printed this; `trouble` is its status if that could not be written. -/
def finishWith (trouble : Nat) (process : Process) (stdout : String) (status : Nat) :
    Act Nat := do
  if stdout.isEmpty then return status
  match ← process.write 1 stdout with
  | .ok () => return status
  | .error e =>
    process.complain (complaint process ("write error: " ++ e.description))
    return trouble

/-- Ends a utility that printed this. -/
def finish : Process → String → Nat → Act Nat := finishWith 1

/-- What a utility puts out. -/
inductive Output where
  | text (s : String)
  /-- A text to standard error, which makes the utility fail. -/
  | complaint (what : String)

/-- Ends a utility that puts this out, each thing in its turn. A complaint gives the status
`trouble`; texts between complaints are written together behind `pending`. -/
def putOut (trouble : Nat) (process : Process) (status : Nat) (pending : String) :
    List Output → Act Nat
  | [] => finishWith trouble process pending status
  | .text s :: rest => putOut trouble process status (pending ++ s) rest
  | .complaint what :: rest => do
    let _ ← finishWith trouble process pending status
    process.complain (complaint process what)
    putOut trouble process trouble "" rest

/-- A utility with these options. Arguments that do not fit end it with the status `misuse`. -/
def withOptions (misuse : Nat) (options : Options)
    (body : Process → Given → Act Nat) : Utility :=
  fun process arguments => do
    match options.read arguments with
    | .ok given => body process given
    | .error what =>
      process.complain (complaint process what ++ hint process)
      return misuse

/-- A utility that ends with a complaint about its operands. -/
def misused (process : Process) (what : String) : Act Nat := do
  process.complain (complaint process what ++ hint process)
  return 1

/-! ## Input -/

/-- The contents of a file, or of standard input for `-`. -/
def contentsOf (process : Process) (path : String) : Act (Except IoError String) := do
  if path = "-" then process.readAll 0
  else
    match ← process.openPath .read path with
    | .ok channel => Machine.unread channel
    | .error e => return .error e

/-- An input of a filter: its name, and its contents or why it cannot be read. -/
abbrev Input := String × Except IoError String

/-- The inputs of some names. -/
def inputsOf (process : Process) (paths : List String) : Act (List Input) :=
  paths.mapM fun path => return (path, ← contentsOf process path)

/-- The texts that could be read, once it is complained of all others. The flag tells whether
there are none of these. -/
def readable (process : Process) (complain : String → IoError → String) :
    List Input → Act (List (String × String) × Bool)
  | [] => return ([], true)
  | (path, .ok s) :: rest => do
    let (texts, complete) ← readable process complain rest
    return ((path, s) :: texts, complete)
  | (path, .error e) :: rest => do
    process.complain (complaint process (complain path e))
    let (texts, _) ← readable process complain rest
    return (texts, false)

/-- What a filter makes of each input, or how it complains of it. -/
def outputs (make : String → String) (complain : String → IoError → String)
    (inputs : List Input) :
    List Output :=
  inputs.map fun (path, result) =>
    match result with
    | .ok s => .text (make s)
    | .error e => .complaint (complain path e)

/-- The operands of a filter; without any it reads standard input. -/
def orStandardInput (operands : List String) : List String :=
  if operands.isEmpty then ["-"] else operands

/-- What standard input is called in complaints. -/
def inputName (path : String) : String := if path = "-" then "standard input" else path

/-- The complaint that names the file first. -/
def fileFirst (path : String) (e : IoError) : String := Text.named path ++ ": " ++ e.description

/-- The lines of a text, each with its end; the last may have none. -/
def linesOf (s : String) : List String :=
  let pieces := Text.pieces '\n' s
  let last := pieces.getLast?.getD ""
  pieces.dropLast.map (· ++ "\n") ++ if last.isEmpty then [] else [last]

/-- A line without its end. -/
def bare (line : String) : String :=
  if line.endsWith "\n" then (line.dropEnd 1).toString else line

/-- The lines of a text without their ends. -/
def bareLinesOf (s : String) : List String := (linesOf s).map bare

/-- Lines as they are printed. -/
def unlines (lines : List String) : String := String.join (lines.map (· ++ "\n"))

end Utility

end CommandSuite
