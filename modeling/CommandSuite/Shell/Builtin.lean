import CommandSuite.Shell.Session
import CommandSuite.Utility.Condition
import CommandSuite.Utility.Format

/-!
# Builtins

The commands that a shell runs itself, as far as they run no other command. Each gets its
arguments and gives a status; `fail` ends it with a message and status 2. An error in a special
builtin ends the shell.
-/

namespace CommandSuite.Shell

/-- A command that the shell runs itself. -/
abbrev Builtin := List String → Eval Nat

namespace Builtin

/-- The builtins whose arguments may be assignments, which are read as such. -/
def assigning : List String := ["export", "local", "readonly"]

/-- The builtins whose errors end the shell, and whose assignments stay. -/
def specialNames : List String :=
  [".", ":", "break", "continue", "eval", "exec", "exit", "export", "local", "readonly",
   "return", "set", "shift", "times", "trap", "unset"]

def isSpecial (name : String) : Bool := specialNames.contains name

/-- A number that an argument must be. -/
def number (s : String) : Eval Nat :=
  match Text.natural? s with
  | some n => return n
  | none => fail ("Illegal number: " ++ s)

/-- Prints, and tells of it if that cannot be. -/
def output (s : String) : Eval Nat := do
  if ← print s then return 0
  complain ((((← session).builtin).getD "") ++ ": I/O error")
  return 1

/-- The options at the start of the arguments and what follows them, or the first letter that is
none of those allowed. -/
def readOptions (allowed : String) : List String → Except Char (List Char × List String)
  | [] => .ok ([], [])
  | argument :: rest =>
    match argument.toList with
    | ['-', '-'] => .ok ([], rest)
    | '-' :: letter :: letters =>
      match (letter :: letters).find? fun c => !allowed.toList.contains c with
      | some c => .error c
      | none => do
        let (more, operands) ← readOptions allowed rest
        return (letter :: letters ++ more, operands)
    | _ => .ok ([], argument :: rest)

/-- The options at the start of the arguments, which must be among some letters, and what follows
them. -/
def takeOptions (allowed : String) (arguments : List String) : Eval (List Char × List String) :=
  match readOptions allowed arguments with
  | .ok found => return found
  | .error c => fail ("Illegal option -" ++ c.toString)

/-! ## Printing -/

def echo : Builtin := fun arguments =>
  let (newline, words) := match arguments with
    | "-n" :: rest => (false, rest)
    | rest => (true, rest)
  let (text, ended) := unescape .shellText (" ".intercalate words)
  output (if newline && !ended then text ++ "\n" else text)

/-- What the builtin `printf` says. -/
def printfStyle : FormatStyle where
  escapes := .shellFormat
  argumentEscapes := .shellText
  noNumber s := s ++ ": expected numeric value"
  restOfNumber s := s ++ ": not completely converted"
  badDirective s := s ++ ": invalid directive"
  openDirective _ := "missing format character"
  badDirectiveStatus := 2

def printf : Builtin := fun arguments => do
  match (if arguments.head? = some "--" then arguments.tail else arguments) with
  | [] => fail "usage: printf format [arg ...]"
  | format :: arguments =>
    let (out, complaints, status) := Format.print printfStyle format arguments
    complaints.forM complain
    let written ← output out
    return if status = 0 then written else status

/-! ## Conditions -/

def test : Builtin := fun arguments => do
  let tree ← act (← session).process.tree
  match Condition.holds tree arguments with
  | .ok b => return if b then 0 else 1
  | .error fault => fail fault.message

def bracket : Builtin := fun arguments =>
  if arguments.getLast? = some "]" then test arguments.dropLast else fail "missing ]"

/-! ## Directories -/

/-- The path of the working directory. -/
def workingPath : Eval String := do
  return "/" ++ "/".intercalate ((← session).process.directory.map Text.byteText)

def pwd : Builtin := fun arguments => do
  let _ ← takeOptions "LP" arguments
  output ((← workingPath) ++ "\n")

def cd : Builtin := fun arguments => do
  let s ← session
  let (_, arguments) ← takeOptions "LP" arguments
  let target := match arguments with
    | [] => (s.value? "HOME").getD ""
    | "-" :: _ => (s.value? "OLDPWD").getD ""
    | path :: _ => path
  let tree ← act s.process.tree
  let place := if target.isEmpty then .ok s.process.directory
    else tree.locate (Text.ofByteText target)
  match place with
  | .ok place =>
    if (tree.root.find? place).any FileNode.isDirectory then
      let old ← workingPath
      modifySession fun s => { s with process := { s.process with directory := place } }
      let new ← workingPath
      for (name, value) in [("OLDPWD", old), ("PWD", new)] do
        setVariable name value
        modifySession fun s => s.putVariable name { value := some value, exported := true }
      if arguments.head? = some "-" then output (new ++ "\n") else return 0
    else fail ("can't cd to " ++ target)
  | .error _ => fail ("can't cd to " ++ target)

/-! ## Jumps -/

def exit : Builtin := fun arguments => do
  let status ← match arguments with
    | [] => pure (← session).status
    | a :: _ => number a
  throw (.exit status)

def returnNow : Builtin := fun arguments => do
  let status ← match arguments with
    | [] => pure (← session).status
    | a :: _ => number a
  throw (.return status)

/-- The number of loops that `break` or `continue` is about. -/
def loopCount (arguments : List String) : Eval Nat := do
  let n ← match arguments with
    | [] => pure 1
    | a :: _ => number a
  if n = 0 then fail ("Illegal number: " ++ (arguments.headD ""))
  return min n (← session).loops

def breakLoops : Builtin := fun arguments => do
  match ← loopCount arguments with
  | 0 => return 0
  | n => throw (.endLoops n)

def continueLoops : Builtin := fun arguments => do
  match ← loopCount arguments with
  | 0 => return 0
  | n => throw (.nextRound n)

/-! ## Arguments and options -/

def shift : Builtin := fun arguments => do
  let n ← match arguments with
    | [] => pure 1
    | a :: _ => number a
  let s ← session
  if s.arguments.length < n then fail "can't shift that many"
  modifySession fun s => { s with arguments := s.arguments.drop n }
  return 0

/-- The options by their names. -/
def optionNames : List (String × Char) :=
  [("errexit", 'e'), ("noglob", 'f'), ("ignoreeof", 'I'), ("interactive", 'i'), ("monitor", 'm'),
   ("noexec", 'n'), ("stdin", 's'), ("xtrace", 'x'), ("verbose", 'v'), ("vi", 'V'),
   ("emacs", 'E'), ("noclobber", 'C'), ("allexport", 'a'), ("notify", 'b'), ("nounset", 'u')]

def setFlag (on : Bool) (flag : Char) : Eval Unit :=
  modifySession fun s =>
    let others := s.flags.filter (· ≠ flag)
    { s with flags := if on then flag :: others else others }

/-- Turns the options of letters on or off; gives whether one asks for a name. -/
def setLetters (on : Bool) : List Char → Eval Bool
  | [] => return false
  | c :: cs => do
    if c = 'o' then
      let _ ← setLetters on cs
      return true
    if (optionNames.map Prod.snd).contains c then setFlag on c
    else fail ("Illegal option -" ++ c.toString)
    setLetters on cs

/-- Reads options; gives the arguments behind them, if there are some to be set. -/
def setOptions : List String → Eval (Option (List String))
  | [] => return none
  | "--" :: rest => return some rest
  | "-" :: rest => return if rest.isEmpty then none else some rest
  | a :: rest => do
    match a.toList with
    | sign :: c :: cs =>
      if sign = '-' || sign = '+' then
        let named ← setLetters (sign = '-') (c :: cs)
        if named then
          match rest with
          | name :: more =>
            match optionNames.lookup name with
            | some flag =>
              setFlag (sign = '-') flag
              setOptions more
            | none => fail ("Illegal option " ++ sign.toString ++ "o " ++ name)
          | [] => return none
        else setOptions rest
      else return some (a :: rest)
    | _ => return some (a :: rest)

/-- A text in quotes, as a shell reads it: runs of single quotes stand in double quotes, all else
in single quotes. Fuel is the number of characters. -/
def quoteFrom : Nat → List Char → List Char
  | 0, _ => []
  | fuel + 1, cs =>
    let plain := cs.takeWhile (· ≠ '\'')
    let behind := cs.drop plain.length
    let quotes := behind.takeWhile (· = '\'')
    let rest := behind.drop quotes.length
    let shown := ['\''] ++ plain ++ ['\'']
    if quotes.isEmpty then shown
    else
      let more := if rest.isEmpty then [] else quoteFrom fuel rest
      shown ++ ['"'] ++ quotes ++ ['"'] ++ more

def singleQuoted (s : String) : String := String.ofList (quoteFrom (s.length + 1) s.toList)

def set : Builtin := fun arguments => do
  if arguments.isEmpty then
    let rows := (← session).bound.filterMap fun (name, v) =>
      v.value.map fun value => name ++ "=" ++ singleQuoted value ++ "\n"
    return ← output (String.join (rows.mergeSort (· ≤ ·)))
  match ← setOptions arguments with
  | some new => modifySession fun s => { s with arguments := new }
  | none => pure ()
  return 0

/-! ## Variables -/

/-- The name and the value in an argument such as `name=value`. -/
def splitAssignment (a : String) : String × Option String :=
  let name := a.toList.takeWhile (· ≠ '=')
  match a.toList.drop name.length with
  | '=' :: value => (String.ofList name, some (String.ofList value))
  | _ => (String.ofList name, none)

/-- Marks variables, and sets those that come with a value. -/
def markVariables (mark : Variable → Variable) (arguments : List String) : Eval Nat := do
  for a in arguments do
    let (name, value) := splitAssignment a
    if !isName name then fail (name ++ ": bad variable name")
    match value with
    | some value => setVariable name value
    | none => pure ()
    modifySession fun s => s.putVariable name (mark ((s.find? name).getD { value := none }))
  return 0

/-- Prints the variables that are marked so. -/
def printMarked (name : String) (marked : Variable → Bool) : Eval Nat := do
  let rows := (← session).bound.filterMap fun (key, v) =>
    if marked v then
      some (name ++ " " ++ key ++ (match v.value with
        | some value => "=" ++ singleQuoted value
        | none => "") ++ "\n")
    else none
  output (String.join (rows.mergeSort (· ≤ ·)))

def exportNames : Builtin := fun arguments => do
  match (← takeOptions "p" arguments).2 with
  | [] => printMarked "export" Variable.exported
  | arguments => markVariables (fun v => { v with exported := true }) arguments

def readonly : Builtin := fun arguments => do
  match (← takeOptions "p" arguments).2 with
  | [] => printMarked "readonly" Variable.readOnly
  | arguments => markVariables (fun v => { v with readOnly := true }) arguments

def unset : Builtin := fun arguments => do
  let (letters, names) ← takeOptions "fv" arguments
  for name in names do
    if letters.contains 'f' then
      modifySession fun s => { s with functions := s.functions.filter (·.1 ≠ name) }
    else if isName name then unsetVariable name
    else fail (name ++ ": bad variable name")
  return 0

/-- Makes variables the function's own. A bad name with a value shows only when the function
ends. -/
def makeLocal : Builtin := fun arguments => do
  if (← session).scopes.isEmpty then fail "not in a function"
  for a in arguments do
    let (name, value) := splitAssignment a
    if !isName name && value.isNone then fail (name ++ ": bad variable name")
    modifySession fun s =>
      { s with scopes := match s.scopes with
        | [] => []
        | scope :: outer => ((name, s.find? name) :: scope) :: outer }
    match value with
    | some value => setVariable name value
    | none => pure ()
  return 0

/-! ## Reading -/

/-- A line of an input: its characters, those behind a backslash quoted; how many characters were
taken; and whether a newline ended it. With `raw` a backslash is a character like any other. -/
def readLine (raw : Bool) : List Char → List FieldChar × Nat × Bool
  | [] => ([], 0, false)
  | '\n' :: _ => ([], 1, true)
  | '\\' :: c :: cs =>
    if raw then
      let (line, count, ended) := readLine raw (c :: cs)
      (('\\', false) :: line, count + 1, ended)
    else
      let (line, count, ended) := readLine raw cs
      (if c = '\n' then line else (c, true) :: line, count + 2, ended)
  | c :: cs =>
    let (line, count, ended) := readLine raw cs
    ((c, false) :: line, count + 1, ended)

/-- Cuts a line into as many fields as there are names; the last takes what is left. -/
def readFields (separators : List Char) : List String → List FieldChar → List (String × String)
  | [], _ => []
  | name :: names, line =>
    let isSpace := fun (c : FieldChar) => !c.2 && separators.contains c.1 && isSeparatorSpace c.1
    let isSeparator := fun (c : FieldChar) => !c.2 && separators.contains c.1
    let line := line.dropWhile isSpace
    if names.isEmpty then
      [(name, fieldText ((line.reverse.dropWhile isSpace).reverse))]
    else
      let field := line.takeWhile fun c => !isSeparator c
      let rest := (line.drop field.length).dropWhile isSpace
      let rest := match rest with
        | c :: cs => if isSeparator c then cs else c :: cs
        | [] => []
      (name, fieldText field) :: readFields separators names rest

def read : Builtin := fun arguments => do
  let (letters, names) ← takeOptions "r" arguments
  let raw := letters.contains 'r'
  if names.isEmpty then fail "arg count"
  match names.find? fun name => !isName name with
  | some name => fail (name ++ ": bad variable name")
  | none => pure ()
  let s ← session
  match ← act (s.process.unread 0) with
  | .error _ =>
    for name in names do setVariable name ""
    return 1
  | .ok input =>
    let (line, count, ended) := readLine raw input.toList
    act (s.process.skip 0 count)
    for (name, value) in readFields s.separators.toList names line do setVariable name value
    return if ended then 0 else 1

/-! ## Signals and processes -/

/-- The number of a signal that is given by number or name; the end of a shell has number 0. -/
def signalNumber? (s : String) : Option Nat :=
  if s.toUpper = "EXIT" then some 0
  else
    match Text.natural? s with
    | some n => if n ≤ 64 then some n else none
    | none => (Signal.ofName? s.toUpper).map Signal.number

/-- Sends a signal to a process. -/
def sendSignal (signal : Nat) (target : String) : Eval Nat := do
  let s ← session
  match Text.integer? 10 target with
  | none =>
    complain ("Illegal number: " ++ target)
    return 2
  | some n =>
    let toSelf := n = s.process.id || n = s.shellProcess || n = 0
    let now := (← get).machine.clock
    if toSelf then
      let isHarmless := (Signal.ofNumber? signal).any Signal.isHarmless
      if signal = 0 || (isHarmless && (s.traps.lookup signal).isNone) then return 0
      match s.traps.lookup signal with
      | some action =>
        if signal = 9 then throw (.killed s.process.id signal)
        if !action.isEmpty then modifySession fun s => { s with pending := s.pending ++ [signal] }
        return 0
      | none => throw (.killed (if n = s.process.id then s.process.id else s.shellProcess) signal)
    else
      match s.jobs.find? fun job => job.process = n.toNat && now < job.ends with
      | some _ =>
        if signal ≠ 0 then
          modifySession fun s =>
            { s with jobs := s.jobs.map fun job =>
                if job.process = n.toNat then { job with ends := now, status := .signal signal }
                else job }
        return 0
      | none =>
        complain "No such process\n"
        return 1

def kill : Builtin := fun arguments => do
  let (signal, targets) ← match arguments with
    | "-l" :: rest =>
      let rows := match rest with
        | [] => Signal.all.map Signal.name
        | a :: _ =>
          (((Text.natural? a).map (· % 128)).bind Signal.ofNumber?).toList.map Signal.name
      return ← output (String.join (rows.map (· ++ "\n")))
    | "-s" :: name :: rest =>
      match signalNumber? name with
      | some n => pure (n, rest)
      | none => fail ("invalid signal number or name: " ++ name)
    | "--" :: rest => pure (15, rest)
    | a :: rest =>
      match a.toList with
      | '-' :: name =>
        match signalNumber? (String.ofList name) with
        | some n => pure (n, rest)
        | none => fail ("Illegal option -" ++ String.ofList (name.take 1))
      | _ => pure (15, a :: rest)
    | [] => pure (15, [])
  if targets.isEmpty then
    fail "Usage: kill [-s sigspec | -signum | -sigspec] [pid | job]... or\nkill -l [exitstatus]"
  let mut status := 0
  for target in targets do
    let one ← sendSignal signal target
    if one ≠ 0 then status := one
  return status

/-- Waits for jobs: time goes on to the end of the last. -/
def wait : Builtin := fun arguments => do
  match (← takeOptions "" arguments).2 with
  | [] =>
    let s ← session
    let clock := (← get).machine.clock
    setClock (s.jobs.foldl (fun time job => max time job.ends) clock)
    modifySession fun s => { s with jobs := [] }
    return 0
  | names =>
    let mut status := 0
    for name in names do
      match (← session).jobs.find? fun job => some job.process = Text.natural? name with
      | some job =>
        setClock (max (← get).machine.clock job.ends)
        match job.status.notice? with
        | some notice => complainPlain (notice ++ "\n")
        | none => pure ()
        modifySession fun s => { s with jobs := s.jobs.filter (·.process ≠ job.process) }
        status := job.status.number
      | none => status := 127
    return status

/-- The name of a signal that a trap answers. -/
def trapName (signal : Nat) : String :=
  if signal = 0 then "EXIT"
  else ((Signal.ofNumber? signal).map Signal.name).getD (toString signal)

/-- Sets what is to run at signals, up to one that is none. -/
def setTraps (action : Option String) : List String → Eval Nat
  | [] => return 0
  | name :: names => do
    match signalNumber? name with
    | none =>
      complainPlain ("trap: " ++ name ++ ": bad trap\n")
      return 1
    | some n =>
      modifySession fun s =>
        { s with traps := match action with
          | some action => (n, action) :: s.traps.filter (·.1 ≠ n)
          | none => s.traps.filter (·.1 ≠ n) }
      setTraps action names

def trap : Builtin := fun arguments => do
  let (_, arguments) ← takeOptions "" arguments
  match arguments with
  | [] =>
    let rows := ((← session).traps.mergeSort fun a b => a.1 ≤ b.1).map fun (n, action) =>
      "trap -- " ++ singleQuoted action ++ " " ++ trapName n ++ "\n"
    output (String.join rows)
  | [a] => setTraps none [a]
  | action :: signals =>
    if action = "-" then setTraps none signals
    else if (Text.natural? action).isSome then setTraps none (action :: signals)
    else setTraps (some action) signals

/-! ## The rest -/

/-- What `getopts` finds: the value of its variable, that of `OPTARG`, the index and the offset of
the next option, and whether there was an option at all. -/
structure FoundOption where
  letter : String
  argument : Option String := none
  index : Nat
  offset : Nat := 0
  found : Bool := true
  complaint : Option String := none

/-- The option at an index of the arguments, counted from 1, and at an offset in the argument. -/
def nextOption (letters : List Char) (arguments : List String) (index offset : Nat) :
    FoundOption :=
  let silent := letters.head? = some ':'
  let current := ((arguments[index - 1]?).getD "").toList
  let none' : FoundOption := { letter := "?", index, found := false }
  if offset = 0 && (current.head? ≠ some '-' || current = ['-']) then none'
  else if offset = 0 && current = ['-', '-'] then { none' with index := index + 1 }
  else
    let offset := max offset 1
    match current[offset]? with
    | none => none'
    | some c =>
      let rest := current.drop (offset + 1)
      let next : FoundOption :=
        if rest.isEmpty then { letter := c.toString, index := index + 1 }
        else { letter := c.toString, index, offset := offset + 1 }
      match letters.dropWhile (· ≠ c), c == ':' with
      | [], _ | _, true =>
        { next with
          letter := "?"
          argument := if silent then some c.toString else none
          complaint := if silent then none else some ("Illegal option -" ++ c.toString) }
      | _ :: ':' :: _, _ =>
        if !rest.isEmpty then
          { letter := c.toString, argument := some (String.ofList rest), index := index + 1 }
        else
          match arguments[index]? with
          | some a => { letter := c.toString, argument := some a, index := index + 2 }
          | none =>
            { letter := if silent then ":" else "?"
              argument := if silent then some c.toString else none
              index := index + 1
              complaint :=
                if silent then none else some ("No arg for -" ++ c.toString ++ " option") }
      | _, _ => next

def getopts : Builtin := fun arguments => do
  match arguments with
  | letters :: name :: given =>
    let s ← session
    let index := max (((s.value? "OPTIND").bind Text.natural?).getD 1) 1
    let offset := match s.optionPlace with
      | some (place, offset) => if place = index then offset else 0
      | none => 0
    let found :=
      nextOption letters.toList (if given.isEmpty then s.arguments else given) index offset
    match found.complaint with
    | some what => complainPlain (what ++ "\n")
    | none => pure ()
    if !isName name then fail (name ++ ": bad variable name")
    setVariable name found.letter
    match found.argument with
    | some a => setVariable "OPTARG" a
    | none => if found.found then unsetVariable "OPTARG"
    setVariable "OPTIND" (toString found.index)
    modifySession fun s => { s with optionPlace := some (found.index, found.offset) }
    return if found.found then 0 else 1
  | _ => fail "Usage: getopts optstring var [arg...]"

/-- The files of the machine have no modes that a mask could change. -/
def umask : Builtin := fun arguments => if arguments.isEmpty then output "0022\n" else return 0

/-- A builtin that does nothing. -/
def nothing : Builtin := fun _ => return 0

/-- The builtins that run no other command, by name. -/
def all : List (String × Builtin) :=
  [(":", nothing), ("[", bracket), ("alias", nothing), ("break", breakLoops), ("cd", cd),
   ("chdir", cd), ("continue", continueLoops), ("echo", echo), ("exit", exit),
   ("export", exportNames), ("false", fun _ => return 1), ("getopts", getopts), ("hash", nothing),
   ("kill", kill), ("local", makeLocal), ("printf", printf), ("pwd", pwd), ("read", read),
   ("readonly", readonly), ("return", returnNow), ("set", set), ("shift", shift), ("test", test),
   ("trap", trap), ("true", nothing), ("umask", umask), ("unalias", nothing), ("unset", unset),
   ("wait", wait)]

/-- The builtins that run other commands, or look at them. -/
def evaluating : List String := [".", "command", "eval", "exec", "type"]

def isBuiltin (name : String) : Bool := (all.lookup name).isSome || evaluating.contains name

end Builtin

end CommandSuite.Shell
