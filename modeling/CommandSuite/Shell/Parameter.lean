import CommandSuite.Shell.Session

/-!
# Parameters and descriptors

What a parameter stands for, how its glyphs are made, and what a redirection does once its word is
known.
-/

namespace CommandSuite.Shell

/-! ## Parameters -/

/-- The values of a parameter: none if it is not set, as many as there are arguments for `@` and
`*`. -/
def parameterValues (s : Session) (name : String) : Option (List String) :=
  match name with
  | "@" | "*" => if s.arguments.isEmpty then none else some s.arguments
  | "#" => some [toString s.arguments.length]
  | "?" => some [toString s.status]
  | "$" => some [toString s.shellProcess]
  | "!" => s.jobs.head?.map fun job => [toString job.process]
  | "-" => some [String.ofList s.flags]
  | "0" => some [s.name]
  | _ =>
    match Text.natural? name with
    | some n => s.arguments[n - 1]?.map fun a => [a]
    | none => (s.value? name).map fun v => [v]

/-- Whether the parameter stands for all arguments. -/
def isList (name : String) : Bool := name = "@" || name = "*"

/-- The text that comes between arguments that are taken as one. -/
def joint (s : Session) : String :=
  match s.value? "IFS" with
  | none => " "
  | some separators => (separators.take 1).toString

/-- The glyphs of the values of a parameter. -/
def parameterGlyphs (s : Session) (quoted : Bool) (name : String) (values : List String) :
    List Glyph :=
  if name = "*" && quoted then Glyph.ofValue true ((joint s).intercalate values)
  else Glyph.ofValues quoted values

/-- The glyphs of a parameter that is not set. -/
def missingGlyphs (quoted : Bool) (name : String) : List Glyph :=
  if quoted && name ≠ "@" then [.mark] else []

/-- A text without the newlines at its end. -/
def trimNewlines (s : String) : String :=
  String.ofList (s.toList.reverse.dropWhile (· = '\n')).reverse

/-- The home directory of a user; nobody is the user at work. -/
def homeOf (s : Session) (user : String) : Option String :=
  if user.isEmpty then s.value? "HOME" else if user = "root" then some "/root" else none

/-- A word whose leading `~` is a home directory. -/
def expandTilde (s : Session) (w : Word) : Word :=
  match w with
  | .plain text :: rest =>
    match text.toList with
    | '~' :: cs =>
      let user := cs.takeWhile (· ≠ '/')
      match homeOf s (String.ofList user) with
      | some home =>
        if user.length < cs.length || rest.isEmpty then
          .quoted home :: .plain (String.ofList (cs.drop user.length)) :: rest
        else w
      | none => w
    | _ => w
  | _ => w

/-! ## Redirections -/

/-- Why a file cannot be opened, in a shell's words. -/
def openReason (e : IoError) (creates : Bool) : String :=
  match e with
  | .notFound | .notDirectory => if creates then "Directory nonexistent" else "No such file"
  | e => e.description

/-- Why a command cannot be started, in a shell's words. -/
def startReason (e : IoError) : String :=
  match e with
  | .notFound | .notDirectory => "not found"
  | e => e.description

/-- The status of a command that cannot be started. One that is found at all is named by a path,
if it is to run beside the shell (`beside`) and not in its place. -/
def startStatus (beside : Bool) (name : String) (e : IoError) : Nat :=
  match e with
  | .notFound | .notDirectory => 127
  | _ => if beside && !Path.isPathLike name then 127 else 126

def setDescriptor (descriptor channel : Nat) : Eval Unit :=
  modifySession fun s => { s with process := s.process.setDescriptor descriptor channel }

def setDescriptors (descriptors : List (Nat × Nat)) : Eval Unit :=
  modifySession fun s => { s with process := { s.process with descriptors } }

/-- Opens a path for a descriptor. -/
def openFor (descriptor : Nat) (mode : OpenMode) (path : String) : Eval Unit := do
  match ← act ((← session).process.openPath mode path) with
  | .ok channel => setDescriptor descriptor channel
  | .error e =>
    if mode = .read then fail ("cannot open " ++ path ++ ": " ++ openReason e false)
    else fail ("cannot create " ++ path ++ ": " ++ openReason e true)

/-- What a redirection leads to, once its word is known. -/
inductive Target where
  | path (mode : OpenMode) (path : String)
  /-- A path that must not be that of a file. -/
  | newPath (path : String)
  | descriptor (source : Nat)
  | closed
  | text (s : String)

/-- The target that a word names. A word that names no descriptor where one must be named ends the
shell. -/
def targetOf (direction : Direction) (word : String) : Eval Target := do
  match direction with
  | .input => return .path .read word
  | .append => return .path .append word
  | .both => return .path .readWrite word
  | .clobber => return .path .truncate word
  | .output => return if (← session).has 'C' then .newPath word else .path .truncate word
  | .duplicate =>
    match word.toList with
    | ['-'] => return .closed
    | [c] =>
      if c.isDigit then return .descriptor (c.toNat - '0'.toNat)
      else fail "Syntax error: Bad fd number"
    | _ => fail "Syntax error: Bad fd number"

/-- Redirects a descriptor. -/
def redirectTo (descriptor : Nat) (target : Target) : Eval Unit := do
  let s ← session
  match target with
  | .path mode path => openFor descriptor mode path
  | .newPath path =>
    let tree ← act s.process.tree
    if tree.isRegular (Text.ofByteText path) then
      fail ("cannot create " ++ path ++ ": " ++ IoError.alreadyExists.description)
    openFor descriptor .truncate path
  | .descriptor source =>
    match s.process.descriptors.lookup source with
    | some channel => setDescriptor descriptor channel
    | none => fail (toString source ++ ": " ++ IoError.badDescriptor.description)
  | .closed => modifySession fun s => { s with process := s.process.closeDescriptor descriptor }
  | .text text =>
    setDescriptor descriptor (← act (Machine.openChannel (.pipe [text] text.length)))

/-- Redirects descriptors one after the other; tells whether that went well. If it did not, the
status says so and what was done before stands. -/
def redirectAll (targets : List (Nat × Target)) : Eval Bool := do
  let attempt : Eval Unit := targets.forM fun (descriptor, target) => redirectTo descriptor target
  match ← catching attempt with
  | .ok () => return true
  | .error (.failure status) =>
    setStatus status
    return false
  | .error jump => throw jump

end CommandSuite.Shell
