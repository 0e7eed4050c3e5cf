/-!
# Numerals

Numbers as programs write and read them: `natural?` takes decimal digits and nothing else,
`readInteger` what stands at the start of a text and tells how far it went.
-/

namespace CommandSuite.Text

/-- The value of a character as a digit, up to `z` for 35. -/
def digitValue? (c : Char) : Option Nat :=
  if '0' ≤ c && c ≤ '9' then some (c.toNat - '0'.toNat)
  else if 'a' ≤ c && c ≤ 'z' then some (c.toNat - 'a'.toNat + 10)
  else if 'A' ≤ c && c ≤ 'Z' then some (c.toNat - 'A'.toNat + 10)
  else none

/-- Whether the character is a digit of the base. -/
def isDigitOf (base : Nat) (c : Char) : Bool := (digitValue? c).any (· < base)

/-- The number that digits write. -/
def ofDigits (base : Nat) (digits : List Char) : Nat :=
  digits.foldl (fun n c => n * base + (digitValue? c).getD 0) 0

/-- The number of a text of decimal digits. -/
def natural? (s : String) : Option Nat :=
  if s.isEmpty || s.toList.any fun c => !isDigitOf 10 c then none else some (ofDigits 10 s.toList)

/-- The blanks that may stand before a number. -/
def isNumberSpace (c : Char) : Bool := c = ' ' || (9 ≤ c.toNat && c.toNat ≤ 13)

/-- The integer at the start of a text and what follows it. With base 0 the text tells the base:
`0x` stands before hexadecimal and `0` before octal digits. -/
def readInteger (base : Nat) (s : List Char) : Option (Int × List Char) :=
  let s := s.dropWhile isNumberSpace
  let (negative, s) := match s with
    | '-' :: s => (true, s)
    | '+' :: s => (false, s)
    | s => (false, s)
  let (base, s) :=
    match s with
    | '0' :: x :: d :: s' =>
      if (base = 0 || base = 16) && (x = 'x' || x = 'X') && isDigitOf 16 d then (16, d :: s')
      else (if base = 0 then 8 else base, s)
    | '0' :: _ => (if base = 0 then 8 else base, s)
    | _ => (if base = 0 then 10 else base, s)
  match s.span (isDigitOf base) with
  | ([], _) => none
  | (digits, rest) =>
    let n := ofDigits base digits
    some (if negative then -(n : Int) else n, rest)

/-- The integer that is a whole text, with blanks around it. -/
def integer? (base : Nat) (s : String) : Option Int :=
  match readInteger base s.toList with
  | some (n, rest) => if rest.all isNumberSpace then some n else none
  | none => none

/-- The digits of a number in a base, in small letters. -/
def digits (base n : Nat) : String := String.ofList (Nat.toDigits base n)

/-- The text with fill on its left up to a width. -/
def padLeft (fill : Char) (width : Nat) (s : String) : String :=
  String.ofList (List.replicate (width - s.length) fill) ++ s

/-- The text with blanks on its right up to a width. -/
def padRight (width : Nat) (s : String) : String :=
  s ++ String.ofList (List.replicate (width - s.length) ' ')

end CommandSuite.Text
