import CommandSuite.Toml.Error
import CommandSuite.Toml.Text

/-!
# Numbers of a document

The digits of a number may be parted by single underscores. A decimal number has no leading zero.
A float is kept as its digits and its power of ten until it is rounded.
-/

namespace CommandSuite.Toml

/-- How far the reading of digits has come. -/
structure DigitState where
  /-- No digit was read yet. -/
  first : Bool := true
  /-- The first digit was a zero. -/
  zero : Bool := false
  /-- The last character was an underscore. -/
  underscore : Bool := false

/-- Whether a character is a digit to the given base. -/
def isDigitOf (base : Nat) (c : Char) : Bool := isHexDigit c && hexValue c < base

/-- Reads the digits that start at `start`, of which the next stands at `pos`; gives the digits
without underscores and what follows them. -/
def readDigits (base : Nat) (leadingZeros : Bool) (start : Nat) :
    DigitState → Nat → List Char → Except Error (List Char × List Char)
  | state, _, [] =>
    if state.first || state.underscore then .error ⟨.invalidNumber, start⟩ else .ok ([], [])
  | state, pos, c :: cs =>
    let digit (next : DigitState) : Except Error (List Char × List Char) := do
      let (digits, rest) ← readDigits base leadingZeros start next (pos + 1) cs
      return (c :: digits, rest)
    if c = '0' && state.first then digit { state with first := false, zero := true }
    else if isDigitOf base c then
      if !state.first && state.zero && !leadingZeros then .error ⟨.invalidNumber, pos⟩
      else digit { state with first := false, underscore := false }
    else if c = '_' && state.first then .error ⟨.invalidNumber, pos⟩
    else if c = '_' && !state.underscore then
      readDigits base leadingZeros start { state with underscore := true } (pos + 1) cs
    else if state.first || state.underscore then .error ⟨.invalidNumber, start⟩
    else .ok ([], c :: cs)

/-- Reads an optional sign and digits; gives whether the sign is a minus, the digits and the
rest. -/
def readSigned (leadingZeros : Bool) (start : Nat) (cs : List Char) :
    Except Error (Bool × List Char × List Char) := do
  match cs with
  | '-' :: ds =>
    let (digits, rest) ← readDigits 10 leadingZeros start {} (start + 1) ds
    return (true, digits, rest)
  | '+' :: ds =>
    let (digits, rest) ← readDigits 10 leadingZeros start {} (start + 1) ds
    return (false, digits, rest)
  | _ =>
    let (digits, rest) ← readDigits 10 leadingZeros start {} start cs
    return (false, digits, rest)

/-- The number that digits to a base write. -/
def valueOfDigits (base : Nat) (digits : List Char) : Nat :=
  digits.foldl (fun n c => n * base + hexValue c) 0

/-- The number of a sign and a magnitude, if it has 64 bits. -/
def int64? (negative : Bool) (magnitude : Nat) : Option Int :=
  if negative then if magnitude ≤ Nat.pow 2 63 then some (-(magnitude : Int)) else none
  else if magnitude < Nat.pow 2 63 then some magnitude else none

/-- Reads a whole number to base ten. -/
def readDecimal (start : Nat) (cs : List Char) : Except Error Int := do
  let (negative, digits, rest) ← readSigned false start cs
  match rest, int64? negative (valueOfDigits 10 digits) with
  | [], some n => return n
  | _, _ => throw ⟨.invalidNumber, start⟩

/-- Reads a whole number to another base, from behind the mark of the base. -/
def readBased (base start : Nat) (cs : List Char) : Except Error Int := do
  let (digits, rest) ← readDigits base true start {} start cs
  match rest, int64? false (valueOfDigits base digits) with
  | [], some n => return n
  | _, _ => throw ⟨.invalidNumber, start⟩

/-- The value `± mantissa · 10 ^ exponent`, rounded to the nearest float. -/
structure Scientific where
  negative : Bool
  mantissa : Nat
  exponent : Int
  deriving Repr, DecidableEq

/-- The nearest float. Powers of ten beyond all floats are cut off before they are computed. -/
def Scientific.toFloat (x : Scientific) : Float :=
  let digits : Int := (Nat.toDigits 10 x.mantissa).length
  let magnitude :=
    if x.mantissa = 0 || x.exponent + digits < -400 then 0.0
    else if 400 < x.exponent + digits then 1.0 / 0.0
    else if 0 ≤ x.exponent then Float.ofScientific x.mantissa false x.exponent.toNat
    else Float.ofScientific x.mantissa true (-x.exponent).toNat
  if x.negative then -magnitude else magnitude

end CommandSuite.Toml
