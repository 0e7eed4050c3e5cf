import CommandSuite.FileTree
import CommandSuite.Text.Bytes
import CommandSuite.Text.Numeral

/-!
# Conditions

What `test` decides: texts, numbers and files, joined by `-a`, `-o`, `!` and parentheses. A word
that is an operator counts as a plain word where an operand must follow it and does not.
-/

namespace CommandSuite.Condition

/-- Why words are no condition. -/
inductive Fault where
  | unexpectedOperator (word : String)
  | argumentExpected (operator : String)
  | closingExpected
  | noNumber (word : String)
  deriving Repr, DecidableEq

def Fault.message : Fault → String
  | unexpectedOperator word => word ++ ": unexpected operator"
  | argumentExpected operator => operator ++ ": argument expected"
  | closingExpected => "closing paren expected"
  | noNumber word => "Illegal number: " ++ word

/-- The same, in the words of the utility. -/
def Fault.utilityMessage : Fault → String
  | unexpectedOperator word => "extra argument '" ++ word ++ "'"
  | argumentExpected operator => "missing argument after '" ++ operator ++ "'"
  | closingExpected => "')' expected"
  | noNumber word => "invalid integer '" ++ word ++ "'"

def unaryOperators : List String :=
  ["-b", "-c", "-d", "-e", "-f", "-g", "-G", "-h", "-k", "-L", "-n", "-O", "-p", "-r",
   "-s", "-S", "-t", "-u", "-w", "-x", "-z"]

def binaryOperators : List String :=
  ["=", "!=", "<", ">", "-eq", "-ne", "-gt", "-ge", "-lt", "-le", "-nt", "-ot", "-ef"]

/-- What a word is at its place. -/
inductive Role where
  | none
  | operand
  | unary
  | binary
  | and
  | or
  | not
  | opening
  | closing
  deriving DecidableEq

/-- The role that a word could have. -/
def possibleRole (word : String) : Role :=
  if unaryOperators.contains word then .unary
  else if binaryOperators.contains word then .binary
  else
    match word with
    | "-a" => .and
    | "-o" => .or
    | "!" => .not
    | "(" => .opening
    | ")" => .closing
    | _ => .operand

/-- The role of the first of some words. -/
def role : List String → Role
  | [] => .none
  | word :: rest =>
    match possibleRole word, rest with
    | .unary, [] => .operand
    | .unary, [_] => .unary
    | .unary, next :: _ => if possibleRole next = .binary then .operand else .unary
    | .opening, [] => .operand
    | r, _ => r

/-- The number that a word must be. -/
def number (word : String) : Except Fault Int :=
  match Text.integer? 10 word with
  | some n => .ok n
  | none => .error (.noNumber word)

/-- Decides a condition on a file. -/
def holdsOfFile (operator : String) (node : Option FileNode) : Bool :=
  match operator, node with
  | _, none => false
  | "-d", some node => node.isDirectory
  | "-f", some node => node.isRegular
  | "-c", some (.device _) => true
  | "-c", some _ => false
  | "-x", some node => node.isDirectory || node.isExecutable
  | "-s", some (.file bytes _) => !bytes.isEmpty
  | "-s", some (.device _) => false
  | "-b", _ | "-g", _ | "-h", _ | "-k", _ | "-L", _ | "-p", _ | "-S", _ | "-u", _ => false
  | _, some _ => true

/-- Decides a condition on one word. -/
def holdsOfOne (files : FileTree) (operator word : String) : Except Fault Bool :=
  match operator with
  | "-n" => .ok (!word.isEmpty)
  | "-z" => .ok word.isEmpty
  | "-t" => do
    let _ ← number word
    return false
  | _ => .ok (holdsOfFile operator (files.node? (Text.ofByteText word)))

/-- Decides a condition on two words. The files of the machine have no times, so none is newer
than another. -/
def holdsOfTwo (files : FileTree) (operator a b : String) : Except Fault Bool :=
  let compare (f : Int → Int → Bool) : Except Fault Bool := do return f (← number a) (← number b)
  let isThere (s : String) := (files.node? (Text.ofByteText s)).isSome
  match operator with
  | "=" => .ok (a = b)
  | "!=" => .ok (a ≠ b)
  | "<" => .ok (a < b)
  | ">" => .ok (b < a)
  | "-eq" => compare (· = ·)
  | "-ne" => compare (· ≠ ·)
  | "-gt" => compare (· > ·)
  | "-ge" => compare (· ≥ ·)
  | "-lt" => compare (· < ·)
  | "-le" => compare (· ≤ ·)
  | "-ef" =>
    .ok (isThere a
      && (files.locate (Text.ofByteText a)).toOption =
        (files.locate (Text.ofByteText b)).toOption)
  | _ => .ok false

mutual

/-- Conditions joined by `-o`. Each function gives the words from its last one on. -/
def disjunction (files : FileTree) : Nat → List String → Except Fault (Bool × List String)
  | 0, words => .ok (false, words)
  | fuel + 1, words => do
    let (a, words) ← conjunction files fuel words
    if role words.tail = .or then
      let (b, words) ← disjunction files fuel (words.drop 2)
      return (a || b, words)
    else return (a, words)

/-- Conditions joined by `-a`. -/
def conjunction (files : FileTree) : Nat → List String → Except Fault (Bool × List String)
  | 0, words => .ok (false, words)
  | fuel + 1, words => do
    let (a, words) ← negation files fuel words
    if role words.tail = .and then
      let (b, words) ← conjunction files fuel (words.drop 2)
      return (a && b, words)
    else return (a, words)

/-- A condition behind any number of `!`. -/
def negation (files : FileTree) : Nat → List String → Except Fault (Bool × List String)
  | 0, words => .ok (false, words)
  | fuel + 1, words =>
    if role words = .not then
      if words.tail.isEmpty then return (true, words)
      else do
        let (a, words) ← negation files fuel words.tail
        return (!a, words)
    else primary files fuel (role words) words

/-- A condition by itself; the first word has the given role. -/
def primary (files : FileTree) :
    Nat → Role → List String → Except Fault (Bool × List String)
  | 0, _, words => .ok (false, words)
  | _, _, [] => .ok (false, [])
  | fuel + 1, r, word :: rest =>
    match r, rest with
    | .opening, rest =>
      if role rest = .closing then .ok (false, rest)
      else do
        let (a, words) ← disjunction files fuel rest
        if role words.tail = .closing then return (a, words.tail) else throw .closingExpected
    | .unary, [] => throw (.argumentExpected word)
    | .unary, operand :: after => do
      return (← holdsOfOne files word operand, operand :: after)
    | _, operator :: after =>
      if role rest = .binary then
        match after with
        | [] => throw (.argumentExpected operator)
        | b :: _ => do return (← holdsOfTwo files operator word b, after)
      else .ok (!word.isEmpty, word :: rest)
    | _, [] => .ok (!word.isEmpty, word :: rest)

end

/-- Decides words as one condition. -/
def whole (files : FileTree) (first : Option Role) (words : List String) : Except Fault Bool := do
  let fuel := 4 * words.length + 8
  let (a, words) ← match first with
    | some r => primary files fuel r words
    | none => disjunction files fuel words
  match words with
  | word :: _ :: _ => throw (.unexpectedOperator word)
  | _ => return a

/-- Whether words hold as a condition. Three and four words are read by fixed rules. -/
def holds (files : FileTree) : List String → Except Fault Bool
  | [] => .ok false
  | [a, b, c] =>
    if possibleRole b = .binary then whole files (some .operand) [a, b, c]
    else if a = "(" && c = ")" then whole files none [b]
    else if a = "!" then do return !(← whole files none [b, c])
    else whole files none [a, b, c]
  | [a, b, c, d] =>
    if a = "(" && d = ")" then whole files none [b, c]
    else if a = "!" then do
      let negated ←
        if possibleRole c = .binary then whole files (some .operand) [b, c, d]
        else if b = "(" && d = ")" then whole files none [c]
        else if b = "!" then do pure !(← whole files none [c, d])
        else whole files none [b, c, d]
      return !negated
    else whole files none [a, b, c, d]
  | words => whole files none words

end CommandSuite.Condition
