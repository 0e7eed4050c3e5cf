import CommandSuite.Utility.Basic
import CommandSuite.Utility.Condition
import CommandSuite.Utility.Format
import CommandSuite.Utility.Regex

/-!
# Utilities that print

Utilities that print what their arguments say: `echo`, `printf`, `seq`, `yes`, `basename`,
`dirname`, `pwd`, `printenv`, `expr`; and those that print nothing: `true`, `false`, `test`,
`sleep`.
-/

namespace CommandSuite.Utility

/-! ## Arguments as they are -/

/-- The options at the start of the arguments of `echo`: whether a newline follows and whether
escape sequences count. -/
def echoOptions (newline escapes : Bool) : List String → Bool × Bool × List String
  | [] => (newline, escapes, [])
  | argument :: rest =>
    match argument.toList with
    | '-' :: c :: cs =>
      if (c :: cs).all fun d => d = 'n' || d = 'e' || d = 'E' then
        let escapes :=
          (c :: cs).foldl (fun on d => if d = 'e' then true else if d = 'E' then false else on)
          escapes
        echoOptions (newline && !(c :: cs).contains 'n') escapes rest
      else (newline, escapes, argument :: rest)
    | _ => (newline, escapes, argument :: rest)

def echo : Utility := fun process arguments =>
  let (newline, escapes, words) := echoOptions true false arguments
  let text := " ".intercalate words
  let (text, ended) := if escapes then unescape .utilityText text else (text, false)
  finish process (if newline && !ended then text ++ "\n" else text) 0

/-- What the utility `printf` says. -/
def printfStyle : FormatStyle where
  escapes := .utilityFormat
  argumentEscapes := .utilityArgument
  noNumber s := "'" ++ s ++ "': expected a numeric value"
  restOfNumber s := "'" ++ s ++ "': value not completely converted"
  badDirective s := s ++ ": invalid conversion specification"
  openDirective s := s ++ ": invalid conversion specification"
  badDirectiveStatus := 1

def printf : Utility := fun process arguments => do
  match (if arguments.head? = some "--" then arguments.tail else arguments) with
  | [] => misused process "missing operand"
  | format :: arguments =>
    let (out, complaints, status) := Format.print printfStyle format arguments
    for what in complaints do process.complain (complaint process what)
    finish process out status

/-! ## Sequences -/

/-- The numbers from one to another. Fuel is their count. -/
def countUp (step last : Int) : Nat → Int → List Int
  | 0, _ => []
  | fuel + 1, n =>
    if (0 < step && last < n) || (step < 0 && n < last) then []
    else n :: countUp step last fuel (n + step)

def seq : Utility := fun process arguments =>
  let rec options (separator : String) (equal : Bool) : List String → String × Bool × List String
    | "-s" :: s :: rest => options s equal rest
    | "-w" :: rest => options separator true rest
    | a :: rest =>
      match a.toList with
      | '-' :: 's' :: cs => options (String.ofList cs) equal rest
      | _ => (separator, equal, a :: rest)
    | [] => (separator, equal, [])
  let (separator, equal, operands) := options "\n" false arguments
  match operands, operands.mapM (Text.integer? 10) with
  | [], _ => misused process "missing operand"
  | _, none =>
    let bad := (operands.find? fun s => (Text.integer? 10 s).isNone).getD ""
    misused process ("invalid floating point argument: '" ++ bad ++ "'")
  | _, some numbers =>
    let (first, step, last) := match numbers with
      | [last] => (1, 1, last)
      | [first, last] => (first, 1, last)
      | first :: step :: last :: _ => (first, step, last)
      | [] => (1, 1, 0)
    if step = 0 then misused process "invalid Zero increment value: '0'"
    else
      let texts := (countUp step last ((last - first) / step + 1).toNat first).map toString
      let width := texts.foldl (fun w s => max w s.length) 0
      let texts := if equal then texts.map (Text.padLeft '0' width) else texts
      if texts.isEmpty then return 0
      else finish process (separator.intercalate texts ++ "\n") 0

/-- `yes` prints until nobody reads. -/
def yes : Utility := fun process arguments => do
  let line := (if arguments.isEmpty then "y" else " ".intercalate arguments) ++ "\n"
  let count := Machine.pipeCapacity / line.length
  let _ ← finish process (String.join (List.replicate count line)) 0
  throw (.signal 13)

/-! ## Paths -/

def lastComponent (path : String) : String :=
  match path.toList.reverse.dropWhile (· = '/') with
  | [] => if path.isEmpty then "" else "/"
  | cs => String.ofList (cs.takeWhile (· ≠ '/')).reverse

/-- A name without a suffix, if it has that and is more than that. -/
def withoutSuffix (suffix name : String) : String :=
  if name ≠ suffix && name.endsWith suffix then (name.dropEnd suffix.length).toString else name

def basename : Utility :=
  withOptions 1
    { flags := "az", valued := "s", long := [("multiple", 'a'), ("suffix", 's'), ("zero", 'z')] }
    fun process given =>
      let last := if given.has 'z' then "\x00" else "\n"
      let print (names : List String) : Act Nat :=
        finish process (String.join (names.map fun name => name ++ last)) 0
      match given.operands with
      | [] => misused process "missing operand"
      | path :: rest =>
        if given.has 'a' || given.has 's' then
          let suffix := (given.value? 's').getD ""
          print ((path :: rest).map fun p => withoutSuffix suffix (lastComponent p))
        else
          match rest with
          | [] => print [lastComponent path]
          | [suffix] => print [withoutSuffix suffix (lastComponent path)]
          | _ :: extra :: _ => misused process ("extra operand " ++ Text.namedAlways extra)

def dirname : Utility := fun process arguments =>
  let dir (path : String) : String :=
    let cs := (path.toList.reverse.dropWhile (· = '/')).dropWhile (· ≠ '/')
    match cs.dropWhile (· = '/') with
    | [] => if path.startsWith "/" then "/" else "."
    | cs => String.ofList cs.reverse
  if arguments.isEmpty then misused process "missing operand"
  else finish process (unlines (arguments.map dir)) 0

/-- The path of the working directory. -/
def workingPath (process : Process) : String :=
  "/" ++ "/".intercalate (process.directory.map Text.byteText)

def pwd : Utility := fun process _ => finish process (workingPath process ++ "\n") 0

/-! ## Environment -/

def printenv : Utility := fun process arguments =>
  match arguments with
  | [] => finish process (unlines (process.environment.map fun (k, v) => k ++ "=" ++ v)) 0
  | names =>
    let values := names.filterMap process.setting?
    finish process (unlines values) (if values.length = names.length then 0 else 1)

/-! ## Decisions -/

def testCondition : Utility := fun process arguments => do
  match Condition.holds (← process.tree) arguments with
  | .ok b => return if b then 0 else 1
  | .error fault =>
    process.complain (complaint process fault.utilityMessage)
    return 2

/-- `test` by the name `[`. -/
def bracket : Utility := fun process arguments => do
  if arguments.getLast? = some "]" then testCondition process arguments.dropLast
  else
    process.complain (complaint process "missing ']'")
    return 2

/-- Microseconds of a time with its unit. -/
def duration? (s : String) : Option Nat := do
  let (body, unit) := match s.toList.reverse with
    | 's' :: cs => (cs.reverse, 1)
    | 'm' :: cs => (cs.reverse, 60)
    | 'h' :: cs => (cs.reverse, 3600)
    | 'd' :: cs => (cs.reverse, 86400)
    | _ => (s.toList, 1)
  let whole := body.takeWhile (Text.isDigitOf 10)
  let fraction ← match body.drop whole.length with
    | [] => some []
    | '.' :: ds => if ds.all (Text.isDigitOf 10) then some ds else none
    | _ => none
  if whole.isEmpty && fraction.isEmpty then none
  let micro := Text.ofDigits 10 ((fraction ++ List.replicate 6 '0').take 6)
  return (Text.ofDigits 10 whole * 1000000 + micro) * unit

def sleep : Utility := fun process arguments =>
  match arguments, arguments.mapM duration? with
  | [], _ => misused process "missing operand"
  | _, none =>
    let bad := (arguments.find? fun s => (duration? s).isNone).getD ""
    misused process ("invalid time interval '" ++ bad ++ "'")
  | _, some times => do
    modify fun machine => { machine with clock := times.foldl (· + ·) machine.clock }
    return 0

/-! ## Expressions -/

/-- A value of `expr` as a number. -/
def exprNumber? (s : String) : Option Int :=
  match s.toList with
  | '-' :: cs => (Text.natural? (String.ofList cs)).map fun n => -(n : Int)
  | _ => (Text.natural? s).map fun n => (n : Int)

/-- What `expr` says of a text and an expression that has to match from the start: what its group
has matched, or else how many characters it has. -/
def exprMatch (s pattern : String) : Except String String :=
  match Regex.ofText? false pattern with
  | none => .error "Invalid regular expression"
  | some r =>
    match r.longest? { atStart := true, rest := s.toList } with
    | some place =>
      .ok (if r.hasGroup then String.ofList ((place.groups.lookup 1).getD [])
        else toString (s.length - place.rest.length))
    | none => .ok (if r.hasGroup then "" else "0")

/-- The part of a text from a place on, counted from 1, of some length. -/
def exprPart (s first length : String) : String :=
  match exprNumber? first, exprNumber? length with
  | some n, some m =>
    if n ≤ 0 || m ≤ 0 then "" else String.ofList ((s.toList.drop (n.toNat - 1)).take m.toNat)
  | _, _ => ""

/-- The value that an operator of `expr` gives. -/
def exprApply (operator a b : String) : Except String String :=
  let truth (b : Bool) : String := if b then "1" else "0"
  let isNull (s : String) : Bool := s.isEmpty || s = "0"
  let number (f : Int → Int → Except String Int) : Except String String :=
    match exprNumber? a, exprNumber? b with
    | some m, some n => do return toString (← f m n)
    | _, _ => .error "non-integer argument"
  let order (f : Ordering → Bool) : Except String String :=
    match exprNumber? a, exprNumber? b with
    | some m, some n => .ok (truth (f (compare m n)))
    | _, _ => .ok (truth (f (compare a b)))
  match operator with
  | "+" => number fun m n => .ok (m + n)
  | "-" => number fun m n => .ok (m - n)
  | "*" => number fun m n => .ok (m * n)
  | "/" => number fun m n => if n = 0 then .error "division by zero" else .ok (m.tdiv n)
  | "%" => number fun m n => if n = 0 then .error "division by zero" else .ok (m.tmod n)
  | "=" | "==" => order (· = .eq)
  | "!=" => order (· ≠ .eq)
  | "<" => order (· = .lt)
  | "<=" => order (· ≠ .gt)
  | ">" => order (· = .gt)
  | ">=" => order (· ≠ .lt)
  | ":" => exprMatch a b
  | "|" => .ok (if isNull a then (if isNull b then "0" else b) else a)
  | _ => .ok (if isNull a || isNull b then "0" else a)

/-- The operators of `expr`, those that bind least first. -/
def exprLevels : List (List String) :=
  [["|"], ["&"], ["<", "<=", "=", "==", "!=", ">=", ">"], ["+", "-"], ["*", "/", "%"], [":"]]

mutual

/-- A value of `expr` from a level of operators on, and the words that follow. -/
def exprValue : Nat → List (List String) → List String → Except String (String × List String)
  | 0, _, _ => .error "syntax error"
  | fuel + 1, [], words =>
    match words with
    | [] => .error "syntax error: missing argument"
    | "(" :: rest => do
      let (value, rest) ← exprValue fuel exprLevels rest
      match rest with
      | ")" :: rest => return (value, rest)
      | _ => throw "syntax error: expecting ')'"
    | "+" :: s :: rest => .ok (s, rest)
    | "length" :: s :: rest => .ok (toString s.length, rest)
    | "match" :: s :: pattern :: rest => do return (← exprMatch s pattern, rest)
    | "index" :: s :: set :: rest =>
      .ok (toString (((s.toList.findIdx? set.toList.contains).map (· + 1)).getD 0), rest)
    | "substr" :: s :: first :: length :: rest => .ok (exprPart s first length, rest)
    | s :: rest => .ok (s, rest)
  | fuel + 1, level :: levels, words => do
    let (value, rest) ← exprValue fuel levels words
    exprRest fuel level levels value rest

/-- A value and what operators of one level do with it. -/
def exprRest : Nat → List String → List (List String) → String → List String →
    Except String (String × List String)
  | 0, _, _, _, _ => .error "syntax error"
  | fuel + 1, level, levels, value, words =>
    match words with
    | operator :: rest =>
      if level.contains operator then do
        if rest.isEmpty then throw ("syntax error: missing argument after '" ++ operator ++ "'")
        let (other, rest) ← exprValue fuel levels rest
        exprRest fuel level levels (← exprApply operator value other) rest
      else .ok (value, words)
    | [] => .ok (value, [])

end

def expr : Utility := fun process arguments => do
  if arguments.isEmpty then
    let _ ← misused process "missing operand"
    return 2
  let fuel := 9 * arguments.length + 9
  let result : Except String String :=
    match exprValue fuel exprLevels arguments with
    | .ok (value, []) => .ok value
    | .ok (_, word :: _) => .error ("syntax error: unexpected argument '" ++ word ++ "'")
    | .error e => .error e
  match result with
  | .ok value => finish process (value ++ "\n") (if value.isEmpty || value = "0" then 1 else 0)
  | .error what =>
    process.complain (complaint process what)
    return 2

end CommandSuite.Utility
