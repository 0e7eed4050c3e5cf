import CommandSuite.Shell.Syntax
import CommandSuite.Text.Numeral

/-!
# Arithmetic expressions

Expressions over integers of 64 bits, with variables and assignments to them. What an operator
does not need, it does not compute: behind `0 &&` nothing is assigned.
-/

namespace CommandSuite.Shell.Arithmetic

/-- Why an expression has no value. -/
inductive Fault where
  /-- The expression breaks a rule of form or divides by zero. -/
  | expression (what : String)
  /-- The value of a variable is no number. -/
  | noNumber (value : String)
  deriving Repr, DecidableEq

/-- The text that reports the fault in a source. -/
def Fault.message (source : String) : Fault → String
  | expression what => "arithmetic expression: " ++ what ++ ": \"" ++ source ++ "\""
  | noNumber value => "Illegal number: " ++ value

inductive Token where
  | number (n : Int)
  | name (s : String)
  | operator (s : String)
  deriving Repr, DecidableEq

/-- An expression. -/
inductive Expr where
  | number (n : Int)
  | named (name : String)
  | unary (operator : String) (a : Expr)
  | binary (operator : String) (a b : Expr)
  | and (a b : Expr)
  | or (a b : Expr)
  | choice (condition a b : Expr)
  /-- An assignment, of the value or of what an operator makes of it and the old one. -/
  | assign (name : String) (operator : Option String) (value : Expr)
  deriving Repr, Inhabited

/-- How many numbers there are of 64 bits. -/
def modulus : Nat := Nat.pow 2 64

/-- A number in the range of 64 bits with a sign. -/
def wrap (n : Int) : Int := n.bmod modulus

/-- A written number, which is the greatest there is if it is too great. -/
def clamp (n : Int) : Int := max (-(modulus / 2 : Nat)) (min n ((modulus / 2 : Nat) - 1))

/-- The operators, longer ones before those that they start with. -/
def operators : List String :=
  ["<<=", ">>=", "<<", ">>", "<=", ">=", "==", "!=", "&&", "||", "+=", "-=", "*=", "/=",
   "%=", "&=", "^=", "|=", "<", ">", "=", "!", "&", "|", "^", "~", "+", "-", "*", "/", "%", "(",
   ")", "?", ":"]

/-- The tokens of an expression. A character that begins none is an operator that none expects.
Fuel is the number of characters. -/
def tokens : Nat → List Char → Except Fault (List Token)
  | 0, _ => .ok []
  | _, [] => .ok []
  | fuel + 1, c :: cs =>
    if Text.isNumberSpace c then tokens fuel cs
    else if c.isDigit then
      match Text.readInteger 0 (c :: cs) with
      | some (n, rest) => return .number (clamp n) :: (← tokens fuel rest)
      | none => .error (.expression "expecting primary")
    else if isNameStart c then
      let name := c :: cs.takeWhile isNameChar
      return .name (String.ofList name) :: (← tokens fuel ((c :: cs).drop name.length))
    else
      match operators.find? fun s => s.toList.isPrefixOf (c :: cs) with
      | some s => return .operator s :: (← tokens fuel ((c :: cs).drop s.length))
      | none => return .operator c.toString :: (← tokens fuel cs)

/-- The operators on two numbers by how much they bind, the weakest first. -/
def levels : List (List String) :=
  [["|"], ["^"], ["&"], ["==", "!="], ["<", "<=", ">", ">="], ["<<", ">>"], ["+", "-"],
    ["*", "/", "%"]]

/-- The operator in an operator of assignment. -/
def assignment? : String → Option (Option String)
  | "=" => some none
  | "+=" => some (some "+")
  | "-=" => some (some "-")
  | "*=" => some (some "*")
  | "/=" => some (some "/")
  | "%=" => some (some "%")
  | "&=" => some (some "&")
  | "^=" => some (some "^")
  | "|=" => some (some "|")
  | "<<=" => some (some "<<")
  | ">>=" => some (some ">>")
  | _ => none

/-- What a step of reading gives: an expression and the tokens behind it. -/
abbrev Read := Except Fault (Expr × List Token)

def tooLong : Read := .error (.expression "expecting EOF")

mutual

/-- An assignment or a choice. -/
def readWhole : Nat → List Token → Read
  | 0, _ => tooLong
  | fuel + 1, ts =>
    match ts with
    | .name name :: .operator s :: rest =>
      match assignment? s with
      | some operator => do
        let (value, rest) ← readWhole fuel rest
        return (.assign name operator value, rest)
      | none => readChoice fuel ts
    | _ => readChoice fuel ts

def readChoice : Nat → List Token → Read
  | 0, _ => tooLong
  | fuel + 1, ts => do
    let (condition, rest) ← readOr fuel ts
    match rest with
    | .operator "?" :: rest =>
      let (a, rest) ← readWhole fuel rest
      match rest with
      | .operator ":" :: rest =>
        let (b, rest) ← readChoice fuel rest
        return (.choice condition a b, rest)
      | _ => throw (.expression "expecting ':'")
    | _ => return (condition, rest)

def readOr : Nat → List Token → Read
  | 0, _ => tooLong
  | fuel + 1, ts => do
    let (a, rest) ← readAnd fuel ts
    match rest with
    | .operator "||" :: rest =>
      let (b, rest) ← readOr fuel rest
      return (.or a b, rest)
    | _ => return (a, rest)

def readAnd : Nat → List Token → Read
  | 0, _ => tooLong
  | fuel + 1, ts => do
    let (a, rest) ← readLevel fuel levels ts
    match rest with
    | .operator "&&" :: rest =>
      let (b, rest) ← readAnd fuel rest
      return (.and a b, rest)
    | _ => return (a, rest)

/-- Operands joined by the operators of these levels. -/
def readLevel : Nat → List (List String) → List Token → Read
  | 0, _, _ => tooLong
  | fuel + 1, [], ts => readPrimary fuel ts
  | fuel + 1, level :: stronger, ts => do
    let (a, rest) ← readLevel fuel stronger ts
    readRest fuel level stronger a rest

/-- What the operators of one level join to an operand. -/
def readRest : Nat → List String → List (List String) → Expr → List Token → Read
  | 0, _, _, _, _ => tooLong
  | fuel + 1, level, stronger, a, ts =>
    match ts with
    | .operator s :: rest =>
      if level.contains s then do
        let (b, rest) ← readLevel fuel stronger rest
        readRest fuel level stronger (.binary s a b) rest
      else .ok (a, ts)
    | _ => .ok (a, ts)

def readPrimary : Nat → List Token → Read
  | 0, _ => tooLong
  | fuel + 1, ts =>
    match ts with
    | .number n :: rest => .ok (.number n, rest)
    | .name s :: rest => .ok (.named s, rest)
    | .operator "(" :: rest => do
      let (a, rest) ← readWhole fuel rest
      match rest with
      | .operator ")" :: rest => return (a, rest)
      | _ => throw (.expression "expecting ')'")
    | .operator s :: rest =>
      if ["!", "~", "+", "-"].contains s then do
        let (a, rest) ← readPrimary fuel rest
        return (.unary s a, rest)
      else .error (.expression "expecting primary")
    | [] => .error (.expression "expecting primary")

end

def read (source : String) : Except Fault Expr := do
  let ts ← tokens source.length source.toList
  let (e, rest) ← readWhole (16 * ts.length + 32) ts
  if rest.isEmpty then return e else throw (.expression "expecting EOF")

/-! ## Values -/

def truth (b : Bool) : Int := if b then 1 else 0

/-- The number whose bits a function makes of the bits of two numbers. -/
def bitwise (f : UInt64 → UInt64 → UInt64) (a b : Int) : Int :=
  let word (n : Int) : UInt64 := UInt64.ofNat (n % modulus).toNat
  wrap ((f (word a) (word b)).toNat : Int)

/-- The value that an operator makes of two. -/
def apply (operator : String) (a b : Int) : Except Fault Int :=
  match operator with
  | "+" => .ok (wrap (a + b))
  | "-" => .ok (wrap (a - b))
  | "*" => .ok (wrap (a * b))
  | "/" => if b = 0 then .error (.expression "division by zero") else .ok (wrap (a.tdiv b))
  | "%" => if b = 0 then .error (.expression "division by zero") else .ok (wrap (a.tmod b))
  | "<<" => .ok (wrap (a * Nat.pow 2 (b % 64).toNat))
  | ">>" => .ok (wrap (a / Nat.pow 2 (b % 64).toNat))
  | "<" => .ok (truth (a < b))
  | "<=" => .ok (truth (a ≤ b))
  | ">" => .ok (truth (b < a))
  | ">=" => .ok (truth (b ≤ a))
  | "==" => .ok (truth (a = b))
  | "!=" => .ok (truth (a ≠ b))
  | "&" => .ok (bitwise (· &&& ·) a b)
  | "^" => .ok (bitwise (· ^^^ ·) a b)
  | _ => .ok (bitwise (· ||| ·) a b)

/-- The values that assignments have given, over those from before. -/
structure Variables where
  before : String → Option String
  assigned : List (String × Int) := []

/-- The value of a variable. One that is not set is zero. -/
def Variables.value (known : Variables) (name : String) : Except Fault Int :=
  match known.assigned.lookup name with
  | some n => .ok n
  | none =>
    match known.before name with
    | none => .ok 0
    | some s =>
      if s.toList.all Text.isNumberSpace then .ok 0
      else
        match Text.integer? 0 s with
        | some n => .ok (clamp n)
        | none => .error (.noNumber s)

/-- The value of an expression. -/
def Expr.value : Expr → StateT Variables (Except Fault) Int
  | number n => return n
  | named name => do (← get).value name
  | unary s a => do
    let n ← a.value
    match s with
    | "-" => return wrap (-n)
    | "!" => return truth (n = 0)
    | "~" => return wrap (-n - 1)
    | _ => return n
  | binary s a b => do
    let m ← a.value
    let n ← b.value
    apply s m n
  | and a b => do
    if (← a.value) = 0 then return 0
    return truth ((← b.value) ≠ 0)
  | or a b => do
    if (← a.value) ≠ 0 then return 1
    return truth ((← b.value) ≠ 0)
  | choice condition a b => do
    if (← condition.value) ≠ 0 then a.value else b.value
  | assign name operator e => do
    let n ← e.value
    let n ← match operator with
      | none => pure n
      | some s => do
        let old ← (← get).value name
        apply s old n
    modify fun known => { known with assigned := (name, n) :: known.assigned }
    return n

/-- The value of an expression and the assignments it makes, the last first. -/
def evaluate (valueOf? : String → Option String) (source : String) :
    Except Fault (Int × List (String × Int)) := do
  let (n, known) ← (← read source).value.run { before := valueOf? }
  return (n, known.assigned)

end CommandSuite.Shell.Arithmetic
