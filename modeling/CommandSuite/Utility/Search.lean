import CommandSuite.Utility.Basic
import CommandSuite.Utility.Regex

/-!
# Searching and editing lines

`grep` prints the lines in which an expression matches, `sed` edits lines by a script of the
commands `s`, `y`, `p`, `d`, `q`, `=`, each for the lines that its addresses choose.
-/

namespace CommandSuite.Utility

/-! ## Searching -/

/-- The expression of several patterns, one a line. -/
def readPatterns (given : Given) (patterns : List String) : Option Regex := do
  let one (s : String) : Option Regex :=
    if given.has 'F' then some (Regex.literal s) else Regex.ofText? (given.has 'E') s
  let all ← (patterns.flatMap (Text.pieces '\n')).mapM one
  let r := match all with
    | r :: rest => rest.foldl Regex.alt r
    | [] => Regex.empty
  let r := if given.has 'i' || given.has 'y' then r.foldCase else r
  return if given.has 'x' then .seq .lineStart (.seq r .lineEnd) else r

def isWordChar (c : Char) : Bool := c.isAlphanum || c = '_'

/-- The matches in a line, from the left, none empty. Fuel is the number of characters. -/
def matchesIn (r : Regex) (words : Bool) : Nat → Bool → List Char → List Char → List (List Char)
  | 0, _, _, _ => []
  | fuel + 1, atStart, before, cs =>
    match r.searchFrom atStart [] cs with
    | none => []
    | some m =>
      let behind := m.place.rest
      let last := (m.before.getLast?) <|> before.getLast?
      let whole := !(last.any isWordChar) && !(behind.head?.any isWordChar)
      if m.matched.isEmpty || (words && !whole) then
        let skip := m.before.length + 1
        matchesIn r words fuel false (before ++ cs.take skip) (cs.drop skip)
      else m.matched :: matchesIn r words fuel false (before ++ m.before ++ m.matched) behind

/-- Whether an expression is found in a line. -/
def isFound (given : Given) (r : Regex) (line : String) : Bool :=
  if given.has 'w' then !(matchesIn r true (line.length + 1) true [] line.toList).isEmpty
  else (r.search? line.toList).isSome

/-- What is printed of the lines of one file, and how many were found. -/
def searchText (given : Given) (r : Regex) (label s : String) : String × Nat :=
  let found := ((bareLinesOf s).zipIdx 1).filter fun (line, _) =>
      isFound given r line != given.has 'v'
  let found := match (given.value? 'm').bind Text.natural? with
    | some n => found.take n
    | none => found
  let mark := fun (n : Nat) => label ++ (if given.has 'n' then toString n ++ ":" else "")
  let rows := found.flatMap fun (line, n) =>
    if given.has 'o' then
      (matchesIn r (given.has 'w') (line.length + 1) true [] line.toList).map fun m =>
        mark n ++ String.ofList m ++ "\n"
    else [mark n ++ line ++ "\n"]
  (String.join rows, found.length)

def grep : Utility :=
  withOptions 2
    { flags := "EFGHLchilnoqrsvwxy", valued := "em"
      long := [("ignore-case", 'i'), ("invert-match", 'v'), ("count", 'c'), ("quiet", 'q'),
        ("extended-regexp", 'E'), ("fixed-strings", 'F'), ("line-number", 'n'),
        ("only-matching", 'o'), ("word-regexp", 'w'), ("line-regexp", 'x')] }
    fun process given => do
      let patterns := (given.options.filter (·.1 = 'e')).map Prod.snd
      let (patterns, operands) := match patterns, given.operands with
        | [], p :: rest => ([p], rest)
        | ps, rest => (ps, rest)
      if patterns.isEmpty then
        process.complain ("Usage: grep [OPTION]... PATTERNS [FILE]...\n" ++ hint process)
        return 2
      match readPatterns given patterns with
      | none =>
        process.complain (complaint process "Unmatched [, [^, [:, [., or [=")
        return 2
      | some r =>
        let inputs ← inputsOf process (orStandardInput operands)
        let named := (1 < operands.length && !given.has 'h') || given.has 'H'
        let name := fun path => if path = "-" then "(standard input)" else path
        let search (path s : String) :=
          searchText given r (if named then name path ++ ":" else "") s
        let isHit (input : Input) : Bool := input.2.toOption.any fun s => 0 < (search input.1 s).2
        let shown (path s : String) : Output :=
          let (rows, count) := search path s
          .text <|
            if given.has 'q' then ""
            else if given.has 'c' then
              (if named then name path ++ ":" else "") ++ toString count ++ "\n"
            else if given.has 'l' then (if 0 < count then name path ++ "\n" else "")
            else if given.has 'L' then (if 0 < count then "" else name path ++ "\n")
            else rows
        let out := inputs.flatMap fun (path, result) =>
          match result with
          | .ok s => [shown path s]
          | .error e =>
            (if given.has 's' then [] else [.complaint (path ++ ": " ++ e.description)])
              ++ if e = .isDirectory then [shown path ""] else []
        let status ← putOut 2 process (if inputs.any isHit then 0 else 1) "" out
        if given.has 'q' && inputs.any isHit then return 0
        return if inputs.all (·.2.toOption.isSome) then status else 2

/-! ## Editing -/

/-- Which lines a command is for. -/
inductive Address where
  | line (n : Nat)
  | lastLine
  | matching (r : Regex)

/-- What is done with a line. -/
inductive EditAction where
  | substitute (r : Regex) (new : String) (every : Bool) (nth : Nat) (prints : Bool)
  | transliterate (old new : List Char)
  | print
  | delete
  | quit
  | printNumber

/-- A command of a script. -/
structure Edit where
  first : Option Address := none
  last : Option Address := none
  negated : Bool := false
  action : EditAction

/-- A text up to a separator that no backslash stands before, and what follows. A separator behind
a backslash is a plain character. -/
def readUpTo (separator : Char) : List Char → Option (List Char × List Char)
  | [] => none
  | '\\' :: c :: cs => do
    let (part, rest) ← readUpTo separator cs
    return (if c = separator then c :: part else '\\' :: c :: part, rest)
  | c :: cs =>
    if c = separator then some ([], cs)
    else do
      let (part, rest) ← readUpTo separator cs
      return (c :: part, rest)

def readAddress (extended : Bool) : List Char → Option (Option Address × List Char)
  | '$' :: cs => some (some .lastLine, cs)
  | '/' :: cs => do
    let (text, rest) ← readUpTo '/' cs
    return (some (.matching (← Regex.ofText? extended (String.ofList text))), rest)
  | cs =>
    let digits := cs.takeWhile (Text.isDigitOf 10)
    if digits.isEmpty then some (none, cs)
    else some (some (.line (Text.ofDigits 10 digits)), cs.drop digits.length)

def isEditSeparator (c : Char) : Bool := c = ';' || c = '\n' || c = ' ' || c = '\t'

def readAction (extended : Bool) : List Char → Option (EditAction × List Char)
  | 's' :: separator :: cs => do
    let (old, rest) ← readUpTo separator cs
    let (new, rest) ← readUpTo separator rest
    let flags := rest.takeWhile fun c => !isEditSeparator c && c ≠ '\x7d'
    let r ← Regex.ofText? extended (String.ofList old)
    let r := if flags.contains 'I' || flags.contains 'i' then r.foldCase else r
    let nth := flags.filter (Text.isDigitOf 10)
    return (.substitute r (String.ofList new) (flags.contains 'g')
      (if nth.isEmpty then 1 else Text.ofDigits 10 nth) (flags.contains 'p'),
      rest.drop flags.length)
  | 'y' :: separator :: cs => do
    let (old, rest) ← readUpTo separator cs
    let (new, rest) ← readUpTo separator rest
    return (.transliterate old new, rest)
  | 'p' :: cs => some (.print, cs)
  | 'd' :: cs => some (.delete, cs)
  | 'q' :: cs => some (.quit, cs)
  | '=' :: cs => some (.printNumber, cs)
  | _ => none

/-- The commands of a script. Fuel is the number of characters. -/
def readEdits (extended : Bool) : Nat → List Char → Option (List Edit)
  | 0, cs => if cs.all isEditSeparator then some [] else none
  | fuel + 1, cs =>
    match cs.dropWhile isEditSeparator with
    | [] => some []
    | cs => do
      let (first, cs) ← readAddress extended cs
      let (last, cs) ← match first, cs with
        | some _, ',' :: cs => readAddress extended cs
        | _, cs => some (none, cs)
      let cs := cs.dropWhile (· = ' ')
      let (negated, cs) := match cs with
        | '!' :: cs => (true, cs)
        | cs => (false, cs)
      let (action, rest) ← readAction extended cs
      return { first, last, negated, action } :: (← readEdits extended fuel rest)

/-- What is put for a match: `&` is the whole of it, a number behind a backslash a group. -/
def replacement (m : Regex.Match) : List Char → List Char
  | '\\' :: c :: cs =>
    let part := if Text.isDigitOf 10 c && c ≠ '0' then
        (m.place.groups.lookup (c.toNat - '0'.toNat)).getD []
      else if c = '0' then m.matched
      else if c = 'n' then ['\n'] else if c = 't' then ['\t'] else [c]
    part ++ replacement m cs
  | '&' :: cs => m.matched ++ replacement m cs
  | c :: cs => c :: replacement m cs
  | [] => []

/-- A line after a substitution, and whether there was one: of the `nth` match, or of every match
from that on. Fuel is the number of characters. -/
def substituteIn (r : Regex) (new : List Char) (every : Bool) :
    Nat → Nat → Bool → List Char → List Char × Bool
  | 0, _, _, cs => (cs, false)
  | fuel + 1, nth, atStart, cs =>
    match r.searchFrom atStart [] cs with
    | none => (cs, false)
    | some m =>
      let this := if nth ≤ 1 then replacement m new else m.matched
      let behind := m.place.rest
      let (step, behind) := match m.matched, behind with
        | [], c :: rest => ([c], rest)
        | _, rest => ([], rest)
      let stop := (nth ≤ 1 && !every) || (m.matched.isEmpty && m.place.rest.isEmpty)
      let (rest, more) := if stop then (behind, false)
        else substituteIn r new every fuel (nth - 1) false behind
      (m.before ++ this ++ step ++ rest, nth ≤ 1 || more)

/-- A line under editing. -/
structure Editing where
  text : String
  printed : List String := []
  deleted : Bool := false
  quit : Bool := false

def Address.holds (number : Nat) (isLast : Bool) (text : String) : Address → Bool
  | line n => n = number
  | lastLine => isLast
  | matching r => (r.search? text.toList).isSome

/-- Whether a command is for a line, and whether its range is open behind it. -/
def Edit.applies (edit : Edit) (isOpen : Bool) (number : Nat) (isLast : Bool) (text : String) :
    Bool × Bool :=
  match edit.first, edit.last with
  | none, _ => (true, false)
  | some first, none => (first.holds number isLast text, false)
  | some first, some last =>
    if isOpen then (true, !(last.holds number isLast text))
    else if first.holds number isLast text then
      let single := match last with
        | .line n => n ≤ number
        | .lastLine => isLast
        | .matching _ => false
      (true, !single)
    else (false, false)

def EditAction.perform (number : Nat) (editing : Editing) : EditAction → Editing
  | substitute r new every nth prints =>
    let (text, done) := substituteIn r new.toList every (editing.text.length + 1) nth true
      editing.text.toList
    let text := String.ofList text
    { editing with
      text
      printed := if done && prints then (text ++ "\n") :: editing.printed else editing.printed }
  | transliterate old new =>
    let swap (c : Char) : Char := ((old.idxOf? c).bind (new[·]?)).getD c
    { editing with text := String.ofList (editing.text.toList.map swap) }
  | print => { editing with printed := (editing.text ++ "\n") :: editing.printed }
  | delete => { editing with deleted := true }
  | quit => { editing with quit := true }
  | printNumber => { editing with printed := (toString number ++ "\n") :: editing.printed }

/-- A line after all commands, and which ranges are open behind it. -/
def editLine (number : Nat) (isLast : Bool) :
    List (Edit × Bool) → Editing → List (Edit × Bool) × Editing
  | [], editing => ([], editing)
  | (edit, isOpen) :: edits, editing =>
    if editing.deleted || editing.quit then ((edit, isOpen) :: edits, editing)
    else
      let (applies, isOpen) := edit.applies isOpen number isLast editing.text
      let editing :=
        if applies != edit.negated then edit.action.perform number editing else editing
      let (edits, editing) := editLine number isLast edits editing
      ((edit, isOpen) :: edits, editing)

/-- What editing prints of lines. -/
def editLines (quiet : Bool) (edits : List (Edit × Bool)) (number : Nat) :
    List String → List String
  | [] => []
  | line :: lines =>
    let (edits, done) := editLine number lines.isEmpty edits { text := bare line }
    let shown := if quiet || done.deleted then []
      else [done.text ++ (if line.endsWith "\n" then "\n" else "")]
    let out := done.printed.reverse ++ shown
    if done.quit then out else out ++ editLines quiet edits (number + 1) lines

def sed : Utility :=
  withOptions 1
    { flags := "nErsu", valued := "e"
      long := [("quiet", 'n'), ("regexp-extended", 'E'), ("expression", 'e')] }
    fun process given => do
      let scripts := (given.options.filter (·.1 = 'e')).map Prod.snd
      let (scripts, operands) := match scripts, given.operands with
        | [], s :: rest => ([s], rest)
        | ss, rest => (ss, rest)
      let script := "\n".intercalate scripts
      match readEdits (given.has 'E' || given.has 'r') script.length script.toList with
      | none =>
        process.complain ("sed: -e expression #1, char " ++ toString script.length
          ++ ": unknown command\n")
        return 1
      | some edits =>
        let inputs ← inputsOf process (orStandardInput operands)
        let isDirectory (input : Input) : Bool :=
          match input.2 with
          | .error e => e = .isDirectory
          | .ok _ => false
        let fatal := inputs.find? isDirectory
        let (texts, complete) ← readable process
          (fun path e => "can't read " ++ path ++ ": " ++ e.description)
          (inputs.takeWhile fun input => !isDirectory input)
        let lines := linesOf (String.join (texts.map Prod.snd))
        let out := editLines (given.has 'n') (edits.map fun edit => (edit, false)) 1 lines
        let complaint := fatal.map fun (path, _) =>
          Output.complaint ("read error on " ++ path ++ ": " ++ IoError.isDirectory.description)
        putOut 4 process (if complete then 0 else 2) ""
          (.text (String.join out) :: complaint.toList)

end CommandSuite.Utility
