import CommandSuite.Utility.Basic

/-!
# Filters

Utilities that read whole inputs and print something made of them: `cat`, `head`, `tail`, `wc`,
`tr`, `sort`, `uniq`, `cut`, `rev`, `tac`, `nl`, `tee`.
-/

namespace CommandSuite.Utility

/-! ## Whole inputs -/

/-- A byte as `cat -v` shows it. -/
def visible (c : Char) : String :=
  let n := c.toNat
  let low (n : Nat) : String :=
    if n < 32 then "^" ++ (Char.ofNat (n + 64)).toString
    else if n = 127 then "^?"
    else (Char.ofNat n).toString
  if n < 128 then low n else "M-" ++ low (n - 128)

/-- A line as `cat` shows it with these options. -/
def showLine (given : Given) (line : String) : String :=
  let marksBytes := given.has 'v' || given.has 'A' || given.has 'e' || given.has 't'
  let marksTabs := given.has 'T' || given.has 'A' || given.has 't'
  let marksEnds := given.has 'E' || given.has 'A' || given.has 'e'
  String.join (line.toList.map fun c =>
    if c = '\n' then (if marksEnds then "$\n" else "\n")
    else if c = '\t' then (if marksTabs then "^I" else "\t")
    else if marksBytes then visible c
    else c.toString)

/-- Lines with their numbers, which go on from `start`; `onlyFull` passes over empty ones. -/
def numberLines (onlyFull : Bool) (start : Nat) : List String → List String
  | [] => []
  | line :: lines =>
    if onlyFull && line = "\n" then line :: numberLines onlyFull start lines
    else (Text.padLeft ' ' 6 (toString start) ++ "\t" ++ line) ::
      numberLines onlyFull (start + 1) lines

/-- What `cat` prints of a text, and the number of the next line. -/
def catText (given : Given) (number : Nat) (s : String) : String × Nat :=
  if given.options.isEmpty then (s, number)
  else
    let lines := (linesOf s).map (showLine given)
    if given.has 'b' then
      (String.join (numberLines true number lines), number + (lines.filter (· ≠ "\n")).length)
    else if given.has 'n' then
      (String.join (numberLines false number lines), number + lines.length)
    else (String.join lines, number)

/-- Prints inputs one after the other; `cat` writes each before it reads the next. -/
def catAll (process : Process) (given : Given) (number status : Nat) : List String → Act Nat
  | [] => return status
  | path :: paths => do
    match ← contentsOf process path with
    | .error e =>
      process.complain (complaint process (fileFirst path e))
      catAll process given number 1 paths
    | .ok s =>
      let (out, number) := catText given number s
      if (← finish process out 0) ≠ 0 then return 1
      catAll process given number status paths

def cat : Utility :=
  withOptions 1
    { flags := "AbeEnstTuv", long := [("number", 'n'), ("show-all", 'A'), ("show-ends", 'E')] }
    fun process given => do
      if (process.descriptors.lookup 1).isNone then
        process.complain
          (complaint process ("standard output: " ++ IoError.badDescriptor.description))
        return 1
      catAll process given 1 0 (orStandardInput given.operands)

/-! ## Ends of inputs -/

/-- The option by which a bare number of lines is meant, as in `-5`. -/
def expandCount (arguments : List String) : List String :=
  match arguments with
  | first :: rest =>
    match first.toList with
    | '-' :: digits =>
      if (Text.natural? (String.ofList digits)).isSome then "-n" :: String.ofList digits :: rest
      else arguments
    | _ => arguments
  | [] => []

/-- A count with its sign and its unit. -/
def readAmount (s : String) : Option (Option Char × Nat) :=
  let (sign, body) := match s.toList.dropWhile Text.isNumberSpace with
    | '-' :: cs => (some '-', cs)
    | '+' :: cs => (some '+', cs)
    | cs => (none, cs)
  let (body, unit) := match body.reverse with
    | 'K' :: cs | 'k' :: cs => (cs.reverse, 1024)
    | 'M' :: cs => (cs.reverse, 1024 * 1024)
    | 'b' :: cs => (cs.reverse, 512)
    | _ => (body, 1)
  (Text.natural? (String.ofList body)).map fun n => (sign, n * unit)

/-- The parts of several inputs, with their names over them if these are wanted. An input that
could be opened has its name over it, even if it cannot be read. -/
def withHeaders (wanted : Bool) (part : String → String) : Bool → List Input → List Output
  | _, [] => []
  | first, (path, result) :: rest =>
    let header := if !wanted then ""
      else (if first then "" else "\n") ++ "==> " ++ inputName path ++ " <==\n"
    let quotedName := Text.namedAlways (inputName path)
    match result with
    | .ok s => .text (header ++ part s) :: withHeaders wanted part false rest
    | .error .isDirectory =>
      let what := IoError.isDirectory.description
      .text header :: .complaint ("error reading " ++ quotedName ++ ": " ++ what)
        :: withHeaders wanted part false rest
    | .error e =>
      .complaint ("cannot open " ++ quotedName ++ " for reading: " ++ e.description)
        :: withHeaders wanted part first rest

/-- A utility that prints a part of each input; the part is told by a sign, an amount, and whether
bytes are counted. -/
def partOf (part : Option Char → Nat → Bool → String → String) : Utility :=
  fun process arguments =>
    withOptions 1
      { flags := "qvfz", valued := "nc",
        long := [("lines", 'n'), ("bytes", 'c'), ("quiet", 'q')] }
      (fun process given => do
        let last := given.options.reverse.find? fun o => o.1 = 'n' || o.1 = 'c'
        let (bytes, amount) := match last with
          | some (o, value) => (decide (o = 'c'), value)
          | none => (false, "10")
        match readAmount amount with
        | none =>
          let unit := if bytes then "bytes" else "lines"
          process.complain
            (complaint process ("invalid number of " ++ unit ++ ": '" ++ amount ++ "'"))
          return 1
        | some (sign, count) =>
          let inputs ← inputsOf process (orStandardInput given.operands)
          let wanted := (1 < given.operands.length && !given.has 'q') || given.has 'v'
          putOut 1 process 0 "" (withHeaders wanted (part sign count bytes) true inputs))
      process (expandCount arguments)

/-- The first so many bytes or lines; with a minus, all but the last. -/
def headPart (sign : Option Char) (count : Nat) (bytes : Bool) (s : String) : String :=
  let keep (size : Nat) : Nat := if sign = some '-' then size - count else count
  if bytes then (s.take (keep s.length)).toString
  else
    let lines := linesOf s
    String.join (lines.take (keep lines.length))

/-- The last so many bytes or lines; with a plus, all from that one on. -/
def tailPart (sign : Option Char) (count : Nat) (bytes : Bool) (s : String) : String :=
  let pass (size : Nat) : Nat := if sign = some '+' then count - 1 else size - count
  if bytes then (s.drop (pass s.length)).toString
  else
    let lines := linesOf s
    String.join (lines.drop (pass lines.length))

def head : Utility := partOf headPart

def tail : Utility := partOf tailPart

/-! ## Counting -/

/-- The number of words in a text. -/
def countWords (s : String) : Nat :=
  (s.toList.foldl (fun (count, inside) c =>
    if Text.isNumberSpace c then (count, false)
    else (if inside then count else count + 1, true)) ((0, false) : Nat × Bool)).1

def counts (given : Given) (s : String) : List Nat :=
  let all := given.options.isEmpty
  (if all || given.has 'l' then [s.toList.count '\n'] else [])
    ++ (if all || given.has 'w' then [countWords s] else [])
    ++ (if given.has 'm' then [s.length] else [])
    ++ (if all || given.has 'c' then [s.length] else [])

/-- The size of an input that is a file; none if it is there and is no file. What is not there
counts as nothing. -/
def sizeOf (process : Process) (path : String) : Act (Option Nat) := do
  if path = "-" then
    match (process.descriptors.lookup 0).bind ((← get).channels[·]?) with
    | some (.file file) =>
      return some (((← Machine.contents? file.place).map (·.1.length)).getD 0)
    | _ => return none
  else
    match ← process.node path with
    | .ok (.file bytes _) => return some bytes.length
    | .ok _ => return none
    | .error _ => return some 0

/-- The width of the counts of several inputs. -/
def countWidth (sizes : List (Option Nat)) : Nat :=
  let all := sizes.foldl (fun all size => all + size.getD 0) 0
  max (toString all).length (if sizes.all Option.isSome then 1 else 7)

def wc : Utility :=
  withOptions 1
    { flags := "clwmL", long := [("bytes", 'c'), ("lines", 'l'), ("words", 'w'), ("chars", 'm')] }
    fun process given => do
      let paths := orStandardInput given.operands
      let sizes ← paths.mapM (sizeOf process)
      let inputs ← inputsOf process paths
      let kinds := (counts given "").length
      let width := if kinds = 1 && paths.length = 1 then 1 else countWidth sizes
      let line (name : String) (counts : List Nat) : String :=
        let numbers := " ".intercalate (counts.map fun n => Text.padLeft ' ' width (toString n))
        numbers ++ (if given.operands.isEmpty then "" else " " ++ name) ++ "\n"
      let rows := inputs.map fun (path, result) =>
        match result with
        | .ok s => [.text (line path (counts given s))]
        | .error e =>
          let complaint := Output.complaint (fileFirst (inputName path) e)
          if e = .isDirectory then [complaint, .text (line path (counts given ""))]
          else [complaint]
      let all := inputs.filterMap fun input => input.2.toOption.map (counts given)
      let total := (List.range kinds).map fun i =>
        all.foldl (fun sum counts => sum + counts.getD i 0) 0
      let totals := if 1 < paths.length then [.text (line "total" total)] else []
      putOut 1 process 0 "" (rows.flatten ++ totals)

/-! ## Characters -/

/-- The characters from one to another. -/
def charRange (a b : Char) : List Char :=
  (List.range (b.toNat + 1 - a.toNat)).map fun i => Char.ofNat (a.toNat + i)

/-- The members of a class of characters, by its name. -/
def classMembers (name : String) : List Char :=
  let all := (List.range 256).map Char.ofNat
  match name with
  | "alpha" => all.filter Char.isAlpha
  | "digit" => charRange '0' '9'
  | "alnum" => all.filter Char.isAlphanum
  | "upper" => charRange 'A' 'Z'
  | "lower" => charRange 'a' 'z'
  | "space" => charRange '\t' '\r' ++ [' ']
  | "blank" => ['\t', ' ']
  | "punct" => (charRange '!' '~').filter fun c => !c.isAlphanum
  | "print" => charRange ' ' '~'
  | "graph" => charRange '!' '~'
  | "cntrl" => charRange '\x00' '\x1f' ++ ['\x7f']
  | "xdigit" => charRange '0' '9' ++ charRange 'A' 'F' ++ charRange 'a' 'f'
  | _ => []

/-- A single character of a set, which may be escaped, and what follows. -/
def readSetChar : List Char → Option (Char × List Char)
  | [] => none
  | '\\' :: c :: cs =>
    if Text.isDigitOf 8 c then
      let digits := ((c :: cs).take 3).takeWhile (Text.isDigitOf 8)
      some (Char.ofNat (Text.ofDigits 8 digits % 256), (c :: cs).drop digits.length)
    else
      let d := match c with
        | 'a' => '\x07'
        | 'b' => '\x08'
        | 'f' => '\x0c'
        | 'n' => '\n'
        | 'r' => '\r'
        | 't' => '\t'
        | 'v' => '\x0b'
        | c => c
      some (d, cs)
  | c :: cs => some (c, cs)

/-- The characters of a set in their order. Fuel is the number of characters. -/
def readCharSet : Nat → List Char → List Char
  | 0, _ => []
  | fuel + 1, '[' :: ':' :: cs =>
    let name := cs.takeWhile (· ≠ ':')
    match cs.drop name.length with
    | ':' :: ']' :: rest => classMembers (String.ofList name) ++ readCharSet fuel rest
    | _ => '[' :: ':' :: readCharSet fuel cs
  | fuel + 1, cs =>
    match readSetChar cs with
    | none => []
    | some (a, '-' :: rest) =>
      match readSetChar rest with
      | some (b, rest) => charRange a b ++ readCharSet fuel rest
      | none => a :: '-' :: readCharSet fuel rest
    | some (a, rest) => a :: readCharSet fuel rest

def charSet (complement : Bool) (s : String) : List Char :=
  let cs := readCharSet (s.length + 1) s.toList
  if complement then ((List.range 256).map Char.ofNat).filter fun c => !cs.contains c else cs

/-- A text in which a run of one character of the set is a single one. -/
def squeeze (set : List Char) : List Char → List Char
  | [] => []
  | c :: cs => if set.contains c && cs.head? = some c then squeeze set cs else c :: squeeze set cs

/-- The character that stands for another when one set is put for another; the last of the second
stands for all that the first has more. -/
def exchange (set new : List Char) (c : Char) : Char :=
  match set.reverse.idxOf? c with
  | some i => (new[set.length - 1 - i]?).getD (new.getLast?.getD c)
  | none => c

def tr : Utility :=
  withOptions 1
    { flags := "cCdst", long := [("delete", 'd'), ("squeeze-repeats", 's'), ("complement", 'c')] }
    fun process given => do
      let set := fun s => charSet (given.has 'c' || given.has 'C') s
      let run (f : List Char → List Char) : Act Nat := do
        match ← process.readAll 0 with
        | .ok s => finish process (String.ofList (f s.toList)) 0
        | .error e =>
          process.complain (complaint process ("read error: " ++ e.description))
          return 1
      match given.operands, given.has 'd', given.has 's' with
      | [], _, _ => misused process "missing operand"
      | [a], true, false => run fun cs => cs.filter fun c => !(set a).contains c
      | [a], false, true => run (squeeze (set a))
      | [a, b], true, true =>
        run fun cs => squeeze (charSet false b) (cs.filter fun c => !(set a).contains c)
      | [a, b], false, squeezes =>
        let old := set a
        let new := charSet false b
        if new.isEmpty then
          process.complain
            (complaint process "when not truncating set1, string2 must be non-empty")
          return 1
        else
          run fun cs =>
            let cs := cs.map (exchange old new)
            if squeezes then squeeze new cs else cs
      | [a], false, false =>
        process.complain (complaint process ("missing operand after '" ++ a ++ "'")
          ++ "Two strings must be given when translating.\n" ++ hint process)
        return 1
      | operands, _, _ =>
        misused process ("extra operand '" ++ (operands.getLast?.getD "") ++ "'")

/-! ## Lines -/

/-- The number at the start of a line, for numeric order. -/
def leadingNumber (line : String) : Int :=
  match Text.readInteger 10 line.toList with
  | some (n, _) => n
  | none => 0

/-- The part of a line from its `n`th field on. -/
def fromField (separator : Option Char) (n : Nat) (line : String) : String :=
  match separator with
  | some c => String.ofList (Text.joinWith c ((Text.splitOn c line.toList).drop (n - 1)))
  | none =>
    let next (cs : List Char) : List Char := (cs.dropWhile Text.isNumberSpace).dropWhile
      fun c => !Text.isNumberSpace c
    String.ofList ((List.range (n - 1)).foldl (fun cs _ => next cs) line.toList)

def sort : Utility :=
  withOptions 2
    { flags := "rnufbs", valued := "kt", long := [("reverse", 'r'), ("unique", 'u')] }
    fun process given => do
      let inputs ← inputsOf process (orStandardInput given.operands)
      let (texts, complete) ← readable process
        (fun path e =>
          (if e = .isDirectory then "read failed: " else "cannot read: ") ++ fileFirst path e)
        (inputs.takeWhile (·.2.toOption.isSome) ++ (inputs.find? (·.2.toOption.isNone)).toList)
      if !complete then return 2
      let lines := texts.flatMap fun t => bareLinesOf t.2
      let key? := given.value? 'k'
      let field := (key?.bind fun k =>
        Text.natural? (String.ofList (k.toList.takeWhile (Text.isDigitOf 10)))).getD 1
      let key (line : String) : String :=
        let sep := (given.value? 't').bind (·.toList.head?)
        let k := if key?.isSome then fromField sep field line else line
        if given.has 'f' then k.toUpper else k
      let numeric := given.has 'n' || (key?.any fun k => k.toList.contains 'n')
      let backwards := given.has 'r' || (key?.any fun k => k.toList.contains 'r')
      let compare (a b : String) : Ordering :=
        let o := if numeric then Ord.compare (leadingNumber (key a)) (leadingNumber (key b))
          else Ord.compare (key a) (key b)
        let o := if backwards then o.swap else o
        if o = .eq && !given.has 'u' && !given.has 's' then
          let o := Ord.compare a b
          if given.has 'r' then o.swap else o
        else o
      let sorted := lines.mergeSort fun a b => compare a b ≠ .gt
      let rec once : List String → List String
        | a :: b :: rest => if compare a b = .eq then once (a :: rest) else a :: once (b :: rest)
        | lines => lines
      finishWith 2 process (unlines (if given.has 'u' then once sorted else sorted)) 0

/-- Runs of equal lines: the first of each, and how many there are. -/
def runs (same : String → String → Bool) : List String → List (String × Nat)
  | [] => []
  | line :: lines =>
    match runs same lines with
    | (next, count) :: rest =>
      if same line next then (line, count + 1) :: rest else (line, 1) :: (next, count) :: rest
    | [] => [(line, 1)]

def uniq : Utility :=
  withOptions 1 { flags := "cdui", long := [("count", 'c')] } fun process given => do
    let inputs ← inputsOf process (orStandardInput (given.operands.take 1))
    let (texts, complete) ← readable process
      (fun path e => match e with
        | .isDirectory => "error reading " ++ Text.namedAlways path ++ ": " ++ e.description
        | _ => fileFirst path e) inputs
    if !complete then return 1
    let same (a b : String) : Bool := if given.has 'i' then a.toLower = b.toLower else a = b
    let rows := (texts.flatMap fun t => runs same (bareLinesOf t.2)).filter fun (_, count) =>
      (!given.has 'd' || 1 < count) && (!given.has 'u' || count = 1)
    let shown := fun (line, count) =>
      if given.has 'c' then Text.padLeft ' ' 7 (toString count) ++ " " ++ line else line
    finish process (unlines (rows.map shown)) 0

/-- A list of numbers and ranges, as in `1,3-5,7-`. -/
def readRanges? (s : String) : Option (List (Nat × Option Nat)) :=
  (Text.pieces ',' s).mapM fun piece =>
    match Text.pieces '-' piece with
    | [n] => (Text.natural? n).map fun n => (n, some n)
    | [a, b] => do
      let low ← if a.isEmpty then some 1 else Text.natural? a
      if b.isEmpty then return (low, none)
      return (low, some (← Text.natural? b))
    | _ => none

def isChosen (ranges : List (Nat × Option Nat)) (n : Nat) : Bool :=
  ranges.any fun (low, high) => low ≤ n && (high.all (n ≤ ·))

/-- The members of a list whose places, counted from 1, are chosen. -/
def choose {α : Type} (ranges : List (Nat × Option Nat)) (items : List α) : List α :=
  (items.zipIdx 1).filterMap fun (item, n) => if isChosen ranges n then some item else none

def cut : Utility :=
  withOptions 1
    { flags := "sn", valued := "bcdf"
      long := [("fields", 'f'), ("delimiter", 'd'), ("characters", 'c')] }
    fun process given => do
      let list := (given.value? 'f') <|> (given.value? 'c') <|> (given.value? 'b')
      match list.map readRanges? with
      | none => misused process "you must specify a list of bytes, characters, or fields"
      | some none => misused process "invalid field range"
      | some (some ranges) =>
        let delimiter := ((given.value? 'd').bind (·.toList.head?)).getD '\t'
        let part (line : String) : Option String :=
          if given.has 'f' then
            let fields := Text.splitOn delimiter line.toList
            if fields.length = 1 then (if given.has 's' then none else some line)
            else some (String.ofList (Text.joinWith delimiter (choose ranges fields)))
          else some (String.ofList (choose ranges line.toList))
        let inputs ← inputsOf process (orStandardInput given.operands)
        putOut 1 process 0 ""
          (outputs (fun s => unlines ((bareLinesOf s).filterMap part)) fileFirst inputs)

def reverseLine (line : String) : String :=
  let text := String.ofList (bare line).toList.reverse
  if line.endsWith "\n" then text ++ "\n" else text

def rev : Utility :=
  withOptions 1 {} fun process given => do
    let inputs ← inputsOf process (orStandardInput given.operands)
    let (texts, complete) ← readable process
      (fun path e => "cannot open " ++ path ++ ": " ++ e.description) inputs
    let lines := texts.flatMap fun t => (linesOf t.2).map reverseLine
    finish process (String.join lines) (if complete then 0 else 1)

def tac : Utility :=
  withOptions 1 {} fun process given => do
    let inputs ← inputsOf process (orStandardInput given.operands)
    let (texts, complete) ← readable process
      (fun path e => match e with
        | .isDirectory => Text.named path ++ ": read error: Invalid argument"
        | _ => "failed to open " ++ Text.namedAlways path ++ " for reading: " ++ e.description)
      inputs
    let lines := texts.flatMap fun t => (linesOf t.2).reverse
    finish process (String.join lines) (if complete then 0 else 1)

/-- Inputs with numbers before their lines, which go on from one input to the next. An empty line
that gets none has as much blank. -/
def numberInputs (onlyFull : Bool) (start : Nat) : List Input → List Output
  | [] => []
  | (path, .error e) :: rest => .complaint (fileFirst path e) :: numberInputs onlyFull start rest
  | (_, .ok s) :: rest =>
    let lines := linesOf s
    let numbered := (numberLines onlyFull start lines).map fun line =>
      if line = "\n" then "       \n" else line
    let count := (lines.filter fun line => !onlyFull || line ≠ "\n").length
    .text (String.join numbered) :: numberInputs onlyFull (start + count) rest

def nl : Utility :=
  withOptions 1 { valued := "b" } fun process given => do
    let inputs ← inputsOf process (orStandardInput given.operands)
    putOut 1 process 0 "" (numberInputs (given.value? 'b' != some "a") 1 inputs)

/-! ## Copying what passes -/

/-- Writes a text to files. -/
def teeAll (process : Process) (mode : OpenMode) (s : String) (status : Nat) :
    List String → Act Nat
  | [] => return status
  | path :: paths => do
    match ← process.openPath mode path with
    | .ok channel =>
      let _ ← Machine.write channel s
      teeAll process mode s status paths
    | .error e =>
      process.complain (complaint process (fileFirst path e))
      teeAll process mode s 1 paths

def tee : Utility :=
  withOptions 1 { flags := "ai", long := [("append", 'a')] } fun process given => do
    let s := ((← process.readAll 0).toOption).getD ""
    let status ← teeAll process (if given.has 'a' then .append else .truncate) s 0 given.operands
    finish process s status

end CommandSuite.Utility
