import CommandSuite.Shell.Arithmetic
import CommandSuite.Shell.Builtin
import CommandSuite.Shell.Parameter
import CommandSuite.Shell.Parser
import CommandSuite.Utility

/-!
# Running scripts

Words are expanded and commands run by steps that call each other, since a word may hold commands.
A step takes fuel; a script that uses up the fuel is one that would not end.

A command that is the last of a subshell takes its place, so that a signal that ends it ends the
subshell; of any other command the shell sees a status and prints a notice.
-/

namespace CommandSuite.Shell

/-- Where a command stands. -/
structure Context where
  /-- Whether its status is looked at, so that a failure is none. -/
  tested : Bool := false
  /-- Whether it is the last of its process. -/
  last : Bool := false

/-- A command whose status is looked at. -/
def Context.condition : Context := { tested := true }

/-- The context of what comes before the end. -/
def Context.inner (context : Context) : Context := { context with last := false }

/-- What a command's name stands for. -/
inductive Meaning where
  | special
  | function (body : Command)
  | builtin
  | file

def meaningOf (s : Session) (functions : Bool) (name : String) : Meaning :=
  if Builtin.isSpecial name then .special
  else
    match (if functions then s.functions.lookup name else none) with
    | some body => .function body
    | none => if Builtin.isBuiltin name then .builtin else .file

/-- A session of a new shell. -/
def Session.start (process : Process) (name : String) : Session :=
  let imported := process.environment.filter fun (name, _) => isName name
  let inherited := imported.map fun (name, value) =>
    (name, ({ value := some value, exported := true } : Variable))
  let known := fun (name : String) => inherited.any (·.1 = name)
  let fresh := [("IFS", defaultSeparators), ("OPTIND", "1"), ("PPID", toString (process.id - 1))]
  let given := [("PS1", "# "), ("PS2", "> "), ("PS4", "+ "),
    ("PATH", "/usr/local/sbin:/usr/local/bin:/usr/sbin:/usr/bin:/sbin:/bin")]
  let own := fresh ++ given.filter fun (name, _) => !known name
  let workingPath := "/" ++ "/".intercalate (process.directory.map Text.byteText)
  { process, shellProcess := process.id, name, arguments := []
    bound := own.map (fun (name, value) => (name, ({ value := some value } : Variable)))
      ++ (if known "PWD" then []
        else [("PWD", ({ value := some workingPath, exported := true } : Variable))])
      ++ inherited.reverse.filter fun (name, _) => !(fresh.map Prod.fst).contains name }

/-- Prints what a shell says of a process that it has waited for. -/
def notice (status : ExitStatus) : Eval Unit := do
  match status.notice? with
  | some text => complainPlain (text ++ "\n")
  | none => return ()

/-- Ends the process as another one that took its place. -/
def endAs (status : ExitStatus) : Eval Unit := do
  match status with
  | .code n => throw (.exit n)
  | .signal n => throw (.killed (← session).process.id n)

/-- What is seen of a process that has ended: its end, if it is the last of the shell's own
process, or else its status. -/
def conclude (context : Context) (status : ExitStatus) : Eval Unit := do
  if context.last && (← session).traps.isEmpty then endAs status
  else
    notice status
    setStatus status.number

/-- Ends the shell if a failure is to do that and this is one. -/
def checkFailure (context : Context) : Eval Unit := do
  let s ← session
  if s.status ≠ 0 && s.has 'e' && !context.tested then throw (.exit s.status)

/-- One round of a loop; the flag tells whether another may follow. -/
def oneRound (round : Eval Bool) : Eval Bool := do
  match ← catching round with
  | .ok goes => return goes
  | .error (.endLoops n) => if n ≤ 1 then return false else throw (.endLoops (n - 1))
  | .error (.nextRound n) => if n ≤ 1 then return true else throw (.nextRound (n - 1))
  | .error jump => throw jump

/-- The value of an arithmetic expression, whose assignments are done. -/
def arithmetic (source : String) : Eval String := do
  let s ← session
  match Arithmetic.evaluate (fun name => (parameterValues s name).bind List.head?) source with
  | .ok (n, assigned) =>
    for (name, value) in assigned.reverse do setVariable name (toString value)
    return toString n
  | .error fault => fail (fault.message source)

/-- The options of a shell that is called, and its operands. Among the letters is `c` if it is to
run a text. -/
def callOptions : List String → Eval (List String)
  | [] => return []
  | a :: rest =>
    if a = "-" || a = "--" then return rest
    else
      match a.toList with
      | '-' :: c :: cs => do
        for letter in c :: cs do
          if letter = 'c' || letter = 'l' then Builtin.setFlag true letter
          else
            let _ ← Builtin.setLetters true [letter]
        callOptions rest
      | _ => return a :: rest

/-- Variables with others set over them. -/
def overlay (settings : List (String × String)) (added : List (String × String)) :
    List (String × String) :=
  added.foldl (fun all (name, value) => all.filter (·.1 ≠ name) ++ [(name, value)]) settings

/-- The arguments of `env`: the environment of the command, and the command. -/
def envArguments (environment : List (String × String)) :
    List String → List (String × String) × List String
  | [] => (environment, [])
  | "-i" :: rest | "-" :: rest => envArguments [] rest
  | "-u" :: name :: rest => envArguments (environment.filter (·.1 ≠ name)) rest
  | a :: rest =>
    match Builtin.splitAssignment a with
    | (name, some value) => envArguments (overlay environment [(name, value)]) rest
    | (_, none) => (environment, a :: rest)

/-- Notes that a program was looked up in the search path. -/
def remember (name : String) : Eval Unit :=
  if Path.isPathLike name then return ()
  else modifySession fun s => { s with hashed := name :: s.hashed }

/-- What a name stands for, as `command -v` and `type` tell it. -/
def describe (verbose : Bool) (name : String) : Eval Nat := do
  let s ← session
  let say (brief long : String) : Eval Nat :=
    Builtin.output ((if verbose then name ++ long else brief) ++ "\n")
  if Reader.keywords.contains name then say name " is a shell keyword"
  else
    match meaningOf s true name with
    | .special => say name " is a special shell builtin"
    | .function _ => say name " is a shell function"
    | .builtin => say name " is a shell builtin"
    | .file =>
      let tree ← act s.process.tree
      let isProgram := fun path =>
        tree.isRegular (Text.ofByteText path) && tree.isExecutable (Text.ofByteText path)
      match (Process.candidates s.searchPath name).find? isProgram with
      | some path =>
        let known := if s.hashed.contains name then " is a tracked alias for " else " is "
        remember name
        say path (known ++ path)
      | none =>
        if verbose then
          let _ ← Builtin.output (name ++ ": not found\n")
        return 127

/-- Describes names; the status is that of the last. -/
def describeAll (verbose : Bool) (names : List String) : Eval Nat :=
  names.foldlM (fun _ name => describe verbose name) 0

/-- The text of a file that is run in the shell: one with a slash in its name, or one of the
search path. -/
def sourceText (name : String) : Eval String := do
  let s ← session
  let tree ← act s.process.tree
  let paths := if Path.isPathLike name then [name] else Process.candidates s.searchPath name
  match paths.find? fun path => tree.isRegular (Text.ofByteText path) with
  | some path =>
    match ← act (s.process.openPath .read path) with
    | .ok channel => return ((← act (Machine.unread channel)).toOption).getD ""
    | .error e => fail ("cannot open " ++ path ++ ": " ++ openReason e false)
  | none =>
    if Path.isPathLike name then fail ("cannot open " ++ name ++ ": No such file")
    else fail (name ++ ": not found")

/-- Sets a variable, for one command if `forNow` says so: then it is in the command's environment.
Gives the variable as it was. -/
def assign (forNow : Bool) (name value : String) : Eval (String × Option Variable) := do
  let old := (← session).find? name
  setVariable name value
  if forNow then
    modifySession fun s =>
      s.putVariable name { ((s.find? name).getD { value := none }) with exported := true }
  return (name, old)

/-- Puts variables back as they were. -/
def restore (old : List (String × Option Variable)) : Eval Unit :=
  old.forM fun (name, v) => do
    if !isName name then fail (name ++ ": bad variable name")
    modifySession fun s =>
      match v with
      | some v => s.putVariable name v
      | none => s.removeVariable name

mutual

/-- The glyphs of a part of a word. -/
def expandPart : Nat → Part → Eval (List Glyph)
  | 0, _ => throw .exhausted
  | fuel + 1, part => do
    match part with
    | .plain text => return text.toList.map fun c => .char c false false
    | .quoted text => return Glyph.ofValue true text
    | .commands quoted body => return Glyph.ofValue quoted (trimNewlines (← capture fuel body))
    | .arithmetic quoted expression =>
      let source := Glyph.text (← expandParts fuel expression)
      return Glyph.ofValue quoted (← arithmetic source)
    | .parameter quoted name change word =>
      if change = .bad then fail "Bad substitution"
      let s ← session
      let values := parameterValues s name
      let text := (joint s).intercalate (values.getD [])
      let other : Eval (List Glyph) := do
        match ← expandParts fuel word with
        | [] => return missingGlyphs quoted ""
        | glyphs => return if quoted then glyphs else glyphs.map Glyph.split
      let missing (orNull : Bool) : Bool := values.isNone || (orNull && text.isEmpty)
      let kept : Eval (List Glyph) := do
        match values with
        | some values => return parameterGlyphs s quoted name values
        | none =>
          if s.has 'u' && !isList name then fail (name ++ ": parameter not set")
          return missingGlyphs quoted name
      match change with
      | .keep | .bad => kept
      | .length =>
        if values.isNone && s.has 'u' && !isList name then fail (name ++ ": parameter not set")
        return Glyph.ofValue quoted (toString text.length)
      | .default orNull => if missing orNull then other else kept
      | .alternative orNull => if missing orNull then return missingGlyphs quoted name else other
      | .assign orNull =>
        if missing orNull then
          let value := Glyph.text (← expandParts fuel word)
          if !isName name then fail (name ++ ": bad variable name")
          setVariable name value
          return Glyph.ofValue quoted value
        else kept
      | .require orNull =>
        if missing orNull then
          let what := Glyph.text (← expandParts fuel word)
          let standard := if orNull then "parameter not set or null" else "parameter not set"
          fail (name ++ ": " ++ (if what.isEmpty then standard else what))
        else kept
      | .cut atEnd longest =>
        let tokens := pattern (Glyph.chars (← expandParts fuel word))
        match values with
        | some values =>
          return parameterGlyphs s quoted name (values.map (cutMatch atEnd longest tokens))
        | none => kept

/-- The glyphs of a word. -/
def expandParts : Nat → Word → Eval (List Glyph)
  | 0, _ => throw .exhausted
  | _, [] => return []
  | fuel + 1, part :: rest => do
    let glyphs ← expandPart fuel part
    return glyphs ++ (← expandParts fuel rest)

/-- The text of a word that is not cut into fields. -/
def expandText : Nat → Word → Eval String
  | 0, _ => throw .exhausted
  | fuel + 1, w => do
    let s ← session
    return Glyph.text (← expandParts fuel (expandTilde s w))

/-- The fields of words. -/
def expandFields : Nat → List Word → Eval (List String)
  | 0, _ => throw .exhausted
  | _, [] => return []
  | fuel + 1, w :: rest => do
    let s ← session
    let glyphs ← expandParts fuel (expandTilde s w)
    let s ← session
    let cut := fields s.separators glyphs
    let tree ← act s.process.tree
    let names := if s.has 'f' then cut.map fieldText else cut.flatMap (pathnames tree)
    return names ++ (← expandFields fuel rest)

/-- The fields of a command. Behind some builtins an assignment is one field. -/
def expandCommand : Nat → List Word → Eval (List String)
  | 0, _ => throw .exhausted
  | fuel + 1, words => do
    match words with
    | first :: rest =>
      if (literal? first).any Builtin.assigning.contains then
        return (← expandFields fuel [first]) ++ (← expandOperands fuel rest)
      else expandFields fuel words
    | [] => return []

/-- The fields of words of which some are assignments. -/
def expandOperands : Nat → List Word → Eval (List String)
  | 0, _ => throw .exhausted
  | _, [] => return []
  | fuel + 1, w :: rest => do
    match Reader.assignment? w with
    | some (name, value) =>
      let text ← expandText fuel value
      return (name ++ "=" ++ text) :: (← expandOperands fuel rest)
    | none =>
      let fields ← expandFields fuel [w]
      return fields ++ (← expandOperands fuel rest)

/-- Does assignments one after the other; gives the variables as they were, the last first, after
those that are given. -/
def assignAll : Nat → Bool → List (String × Option Variable) → List (String × Word) →
    Eval (List (String × Option Variable))
  | 0, _, _, _ => throw .exhausted
  | _, _, old, [] => return old
  | fuel + 1, forNow, old, (name, w) :: rest => do
    let value ← expandText fuel w
    let before ← assign forNow name value
    assignAll fuel forNow (before :: old) rest

/-- The output of commands that run in a process of their own. -/
def capture : Nat → List Command → Eval String
  | 0, _ => throw .exhausted
  | fuel + 1, body => do
    match body with
    | [] =>
      modifySession fun s => { s with substituted := some 0 }
      return ""
    | first :: rest =>
      let pipe ← act (Machine.openChannel (.pipe [] 0))
      let whole := rest.foldl Command.seq first
      let status ← inSubshell fuel (·.setDescriptor 1 pipe) { last := true } whole
      notice status
      modifySession fun s => { s with substituted := some status.number }
      return ((← act (Machine.unread pipe)).toOption).getD ""

/-- The targets of redirections. -/
def expandRedirects : Nat → List Redirect → Eval (List (Nat × Target))
  | 0, _ => throw .exhausted
  | _, [] => return []
  | fuel + 1, one :: rest => do
    let target ← match one with
      | .path descriptor direction w => do
        let word ← expandText fuel w
        pure (descriptor, ← targetOf direction word)
      | .here descriptor body => do
        let glyphs ← expandParts fuel body
        pure (descriptor, .text (Glyph.text glyphs))
    return target :: (← expandRedirects fuel rest)

/-- Runs a command. -/
def run : Nat → Context → Command → Eval Unit
  | 0, _, _ => throw .exhausted
  | fuel + 1, context, command => do
    if (← session).has 'n' then return
    match command with
    | .simple line assignments words redirects =>
      modifySession fun s => { s with line, substituted := none }
      runSimple fuel context assignments words redirects
      answerSignals fuel
      checkFailure context
    | .pipeline commands =>
      runPipeline fuel context commands none
      checkFailure context
    | .negated inner =>
      run fuel .condition inner
      setStatus (if (← session).status = 0 then 1 else 0)
    | .and a b =>
      run fuel .condition a
      if (← session).status = 0 then run fuel context b
    | .or a b =>
      run fuel .condition a
      if (← session).status ≠ 0 then run fuel context b
    | .seq a b =>
      run fuel context.inner a
      run fuel context b
    | .background inner =>
      let start := (← get).machine.clock
      setClock (start + 1000)
      let null ← act (Machine.openChannel (.device .null))
      let status ← inSubshell fuel (·.setDescriptor 0 null) { context with last := true } inner
      let ends := (← get).machine.clock
      setClock start
      let job : Job := { process := (← get).machine.lastProcess, ends, status }
      modifySession fun s => { s with jobs := job :: s.jobs, status := 0 }
    | .subshell line body =>
      modifySession fun s => { s with line }
      let status ← inSubshell fuel id { context with last := true } body
      conclude context status
      checkFailure context
    | .redirected line inner redirects =>
      modifySession fun s => { s with line }
      let saved := (← session).process.descriptors
      let targets ← expandRedirects fuel redirects
      if ← redirectAll targets then
        let result ← catching (run fuel context.inner inner)
        setDescriptors saved
        match result with
        | .ok () => return ()
        | .error jump => throw jump
      else setDescriptors saved
    | .ifThen condition body otherwise =>
      run fuel .condition condition
      if (← session).status = 0 then run fuel context body
      else
        match otherwise with
        | some otherwise => run fuel context otherwise
        | none => setStatus 0
    | .loop negated condition body =>
      modifySession fun s => { s with loops := s.loops + 1 }
      runLoop fuel context.inner negated condition body 0
      modifySession fun s => { s with loops := s.loops - 1 }
    | .forEach line name words body =>
      modifySession fun s => { s with line }
      let values ← expandFields fuel words
      setStatus 0
      modifySession fun s => { s with loops := s.loops + 1 }
      runEach fuel context.inner name body values
      modifySession fun s => { s with loops := s.loops - 1 }
    | .caseOf line w clauses =>
      modifySession fun s => { s with line }
      let text ← expandText fuel w
      runCase fuel context text clauses
    | .define _ name body =>
      modifySession fun s =>
        { s with functions := (name, body) :: s.functions.filter (·.1 ≠ name), status := 0 }

/-- Runs a loop on from the round at hand; the status is that of the last body. -/
def runLoop : Nat → Context → Bool → Command → Command → Nat → Eval Unit
  | 0, _, _, _, _, _ => throw .exhausted
  | fuel + 1, context, negated, condition, body, status => do
    let goes ← oneRound do
      run fuel .condition condition
      if ((← session).status = 0) != negated then
        run fuel context body
        return true
      else
        setStatus status
        return false
    if goes then runLoop fuel context negated condition body (← session).status

/-- Runs commands with a variable set to each of several values. -/
def runEach : Nat → Context → String → Command → List String → Eval Unit
  | 0, _, _, _, _ => throw .exhausted
  | _, _, _, _, [] => return ()
  | fuel + 1, context, name, body, value :: values => do
    setVariable name value
    let goes ← oneRound do
      run fuel context body
      return true
    if goes then runEach fuel context name body values

/-- Runs the first clause of which a pattern matches. -/
def runCase : Nat → Context → String → List (List Word × Option Command) → Eval Unit
  | 0, _, _, _ => throw .exhausted
  | _, _, _, [] => setStatus 0
  | fuel + 1, context, text, (patterns, body) :: clauses => do
    if ← matchesAny fuel text patterns then
      match body with
      | some body => run fuel context body
      | none => setStatus 0
    else runCase fuel context text clauses

/-- Whether one of several patterns matches a text. -/
def matchesAny : Nat → String → List Word → Eval Bool
  | 0, _, _ => throw .exhausted
  | _, _, [] => return false
  | fuel + 1, text, w :: rest => do
    let s ← session
    let tokens := pattern (Glyph.chars (← expandParts fuel (expandTilde s w)))
    if Glob.acceptsName tokens text.toList then return true
    matchesAny fuel text rest

/-- Runs commands that each read what the one before has written. -/
def runPipeline : Nat → Context → List Command → Option Nat → Eval Unit
  | 0, _, _, _ => throw .exhausted
  | _, _, [], _ => return ()
  | fuel + 1, context, command :: rest, input => do
    let withInput (process : Process) : Process :=
      match input with
      | some channel => process.setDescriptor 0 channel
      | none => process
    let inside : Context := { context with last := true }
    if rest.isEmpty then
      let status ← inSubshell fuel withInput inside command
      notice status
      setStatus status.number
    else
      let pipe ← act (Machine.openChannel (.pipe [] 0))
      let status ← inSubshell fuel (fun p => (withInput p).setDescriptor 1 pipe) inside command
      notice status
      runPipeline fuel context rest (some pipe)

/-- Runs a command in a process of its own. -/
def inSubshell : Nat → (Process → Process) → Context → Command → Eval ExitStatus
  | 0, _, _, _ => throw .exhausted
  | fuel + 1, adjust, context, body => do
    let outer ← session
    let id ← newProcess
    modifySession fun s =>
      { s with
        process := { adjust s.process with id }
        traps := s.traps.filter (·.2.isEmpty)
        jobs := []
        pending := []
        loops := 0 }
    let result ← catching (run fuel context body)
    let settled ← catching (settle fuel result)
    modifySession fun _ => outer
    match settled with
    | .ok status => return status
    | .error jump => throw jump

/-- How a shell ends that stopped so. What it has set for its end runs first. -/
def settle : Nat → Except Jump Unit → Eval ExitStatus
  | 0, _ => throw .exhausted
  | fuel + 1, result => do
    let s ← session
    let status ← match result with
      | .ok () => pure s.status
      | .error (.exit status) | .error (.failure status) | .error (.return status) => pure status
      | .error (.endLoops _) | .error (.nextRound _) => pure s.status
      | .error (.killed process signal) =>
        if process = s.process.id then return .signal signal else throw (.killed process signal)
      | .error .exhausted => throw .exhausted
    match s.traps.lookup 0 with
    | none => return .ofNat status
    | some action =>
      modifySession fun s => { s with traps := s.traps.filter (·.1 ≠ 0), status }
      match ← catching (runText fuel {} action) with
      | .ok () => return .ofNat status
      | .error (.exit status) | .error (.failure status) => return .ofNat status
      | .error (.killed process signal) =>
        if process = s.process.id then return .signal signal else throw (.killed process signal)
      | .error _ => return .ofNat status

/-- Runs what is set for the signals that have come. -/
def answerSignals : Nat → Eval Unit
  | 0 => throw .exhausted
  | fuel + 1 => do
    let s ← session
    match s.pending with
    | [] => return ()
    | signal :: rest =>
      modifySession fun s => { s with pending := rest }
      match s.traps.lookup signal with
      | some action =>
        runText fuel {} action
        setStatus s.status
      | none => return ()
      answerSignals fuel

/-- Runs a simple command. -/
def runSimple : Nat → Context → List (String × Word) → List Word → List Redirect → Eval Unit
  | 0, _, _, _, _ => throw .exhausted
  | fuel + 1, context, assignments, words, redirects => do
    let words ← expandCommand fuel words
    let s ← session
    let saved := s.process.descriptors
    let special := (words.head?).any Builtin.isSpecial
    let targets ← expandRedirects fuel redirects
    if !(← redirectAll targets) then
      setDescriptors saved
      if special then throw (.failure (← session).status)
    else
      let forNow := !(words.isEmpty || special)
      let old ← assignAll fuel forNow [] assignments
      if s.has 'x' then
        let now ← session
        let texts := assignments.map fun (name, _) => name ++ "=" ++ (now.value? name).getD ""
        act ({ s.process with descriptors := saved }.complain
          (((s.value? "PS4").getD "") ++ " ".intercalate (texts ++ words) ++ "\n"))
      match words with
      | [] =>
        setDescriptors saved
        setStatus ((← session).substituted.getD 0)
      | name :: arguments =>
        let result ← catching (runNamed fuel context true name arguments)
        if !(name = "exec" && arguments.isEmpty) then setDescriptors saved
        if forNow then restore old
        match result with
        | .ok () => return ()
        | .error jump => throw jump

/-- Runs a command by its name, which may be that of a function. -/
def runNamed : Nat → Context → Bool → String → List String → Eval Unit
  | 0, _, _, _, _ => throw .exhausted
  | fuel + 1, context, functions, name, arguments => do
    match meaningOf (← session) functions name with
    | .special => runBuiltin fuel context functions name arguments
    | .function body => callFunction fuel context body arguments
    | .builtin =>
      if name = "command" then runCommand fuel context arguments
      else runBuiltin fuel context false name arguments
    | .file => runFile fuel context name arguments

/-- Runs what `command` is to run: anything but a function. -/
def runCommand : Nat → Context → List String → Eval Unit
  | 0, _, _ => throw .exhausted
  | fuel + 1, context, arguments => do
    match Builtin.readOptions "pvV" arguments with
    | .ok ([], name :: rest) | .ok (['p'], name :: rest) => runNamed fuel context false name rest
    | _ => runBuiltin fuel context false "command" arguments

/-- Runs a function. -/
def callFunction : Nat → Context → Command → List String → Eval Unit
  | 0, _, _, _ => throw .exhausted
  | fuel + 1, context, body, arguments => do
    let outer ← session
    modifySession fun s => { s with arguments, loops := 0, scopes := [] :: s.scopes }
    let result ← catching (run fuel context.inner body)
    let own := (← session).scopes.headD []
    modifySession fun s =>
      { s with arguments := outer.arguments, loops := outer.loops, scopes := s.scopes.drop 1 }
    restore own
    match result with
    | .ok () => return ()
    | .error (.return status) => setStatus status
    | .error jump => throw jump

/-- Runs a builtin. An error in a special one is passed on. -/
def runBuiltin : Nat → Context → Bool → String → List String → Eval Unit
  | 0, _, _, _, _ => throw .exhausted
  | fuel + 1, context, special, name, arguments => do
    let before := (← session).builtin
    modifySession fun s => { s with builtin := some name }
    let result ← catching (startBuiltin fuel context name arguments)
    modifySession fun s => { s with builtin := before }
    match result with
    | .ok status => setStatus status
    | .error (.failure status) =>
      setStatus status
      if special then throw (.failure status)
    | .error jump => throw jump

/-- The status of a builtin. -/
def startBuiltin : Nat → Context → String → List String → Eval Nat
  | 0, _, _, _ => throw .exhausted
  | fuel + 1, context, name, arguments => do
    match Builtin.all.lookup name with
    | some builtin => builtin arguments
    | none =>
      match name, arguments with
      | "eval", arguments =>
        setStatus 0
        runText fuel context.inner (" ".intercalate arguments)
        return (← session).status
      | ".", file :: _ =>
        let text ← sourceText file
        setStatus 0
        match ← catching (runText fuel context.inner text) with
        | .ok () => return (← session).status
        | .error (.return status) => return status
        | .error jump => throw jump
      | "command", arguments =>
        let (letters, names) ← Builtin.takeOptions "pvV" arguments
        if letters.isEmpty then return 0 else describeAll (letters.contains 'V') (names.take 1)
      | "type", names => describeAll true names
      | "exec", name :: arguments =>
        let s ← session
        match ← act (s.process.image s.searchPath name arguments) with
        | .ok image =>
          endAs (← runImage fuel { s.process with environment := s.environment } image)
          return 0
        | .error e =>
          complain (name ++ ": " ++ startReason e)
          throw (.exit (startStatus false name e))
      | _, _ => return 0

/-- Runs a file. One that the system does not know how to start is taken for a script. -/
def runFile : Nat → Context → String → List String → Eval Unit
  | 0, _, _, _ => throw .exhausted
  | fuel + 1, context, name, arguments => do
    let s ← session
    let id ← if context.last then pure s.process.id else newProcess
    let process := { s.process with id, environment := s.environment }
    match ← act (process.image s.searchPath name arguments) with
    | .ok image =>
      remember name
      conclude context (← runImage fuel process image)
    | .error .execFormat =>
      let tree ← act s.process.tree
      let isStartable := fun path => tree.isExecutable (Text.ofByteText path)
      let path := ((Process.candidates s.searchPath name).find? isStartable).getD name
      conclude context (← runShell fuel process "sh" (path :: arguments))
    | .error e =>
      complain (name ++ ": " ++ startReason e)
      setStatus (startStatus true name e)

/-- Runs a compiled program in a process. -/
def runImage : Nat → Process → Process.Image → Eval ExitStatus
  | 0, _, _ => throw .exhausted
  | fuel + 1, process, image => do
    match image.program with
    | "sh" => runShell fuel process image.name image.arguments
    | "env" =>
      let (environment, command) := envArguments process.environment image.arguments
      match command with
      | [] =>
        let rows := environment.map fun (name, value) => name ++ "=" ++ value
        program (Utility.finish { process with name := image.name } (Utility.unlines rows) 0)
      | name :: arguments =>
        let process := { process with environment }
        let searchPath := (environment.lookup "PATH").getD "/bin:/usr/bin"
        match ← act (process.image searchPath name arguments) with
        | .ok image => runImage fuel process image
        | .error e =>
          act (process.complain ("env: '" ++ name ++ "': " ++ e.description ++ "\n"))
          return .code (startStatus false name e)
    | program' =>
      program (Utility.start program' { process with name := image.name } image.arguments)

/-- Runs what is left of a script. -/
def runSource : Nat → Context → Source → Eval Unit
  | 0, _, _ => throw .exhausted
  | fuel + 1, context, source => do
    match Reader.nextCommand.run source with
    | .error e =>
      modifySession fun s => { s with line := e.line }
      fail e.what
    | .ok (none, _) => return ()
    | .ok (some (command, atEnd), source) =>
      run fuel { context with last := context.last && atEnd } command
      runSource fuel context source

/-- Runs a text as a script. -/
def runText : Nat → Context → String → Eval Unit
  | 0, _, _ => throw .exhausted
  | fuel + 1, context, text => runSource fuel context { rest := text.toList }

/-- Runs a shell in a process of its own. -/
def runShell : Nat → Process → String → List String → Eval ExitStatus
  | 0, _, _, _ => throw .exhausted
  | fuel + 1, process, name, arguments => do
    let outer ← session
    modifySession fun _ => .start process name
    let result ← catching (runArguments fuel arguments)
    let settled ← catching (settle fuel result)
    modifySession fun _ => outer
    match settled with
    | .ok status => return status
    | .error jump => throw jump

/-- Runs the script that the arguments of a shell name: a text, a file, or what standard input
holds. -/
def runArguments : Nat → List String → Eval Unit
  | 0, _ => throw .exhausted
  | fuel + 1, arguments => do
    let operands ← callOptions arguments
    let flags := (← session).flags
    Builtin.setFlag false 'c'
    match flags.contains 'c', operands with
    | true, [] => fail "-c requires an argument"
    | true, text :: rest =>
      modifySession fun s => { s with name := rest.headD s.name, arguments := rest.tail }
      runText fuel {} text
    | false, file :: rest =>
      let s ← session
      if flags.contains 's' then
        modifySession fun s => { s with arguments := operands }
        return ← runText fuel {} (((← act (s.process.readAll 0)).toOption).getD "")
      match ← act (s.process.openPath .read file) with
      | .error e => fail ("cannot open " ++ file ++ ": " ++ openReason e false)
      | .ok channel =>
        modifySession fun s => { s with name := file, arguments := rest }
        match ← act (Machine.unread channel) with
        | .ok text => runText fuel {} text
        | .error _ => return ()
    | false, [] =>
      match ← act ((← session).process.readAll 0) with
      | .ok text => runText fuel {} text
      | .error _ => return ()

end

end CommandSuite.Shell
