import CommandSuite.Text.Numeral

/-!
# Formatted printing

`unescape` puts the characters in the place of their escape sequences, `Format.print` fills a
format with arguments; it goes through the format again until no argument is left. Shells and
utilities differ in their escape sequences and in the words of their complaints, which
`EscapeStyle` and `FormatStyle` hold.
-/

namespace CommandSuite

/-- Which escape sequences there are. -/
structure EscapeStyle where
  /-- `\e`, and `\x` before hexadecimal digits. -/
  hexadecimal : Bool
  /-- `\0` before up to three octal digits. -/
  octalBehindZero : Bool
  /-- `\` before up to three octal digits. -/
  octal : Bool
  /-- `\c` ends the text. -/
  ends : Bool

namespace EscapeStyle

/-- The sequences in the arguments of a shell's `echo`. -/
def shellText : EscapeStyle := ⟨false, true, true, true⟩

/-- The sequences in a format of a shell's `printf`. -/
def shellFormat : EscapeStyle := ⟨false, false, true, false⟩

/-- The sequences in the arguments of a utility `echo -e`. -/
def utilityText : EscapeStyle := ⟨true, true, false, true⟩

/-- The sequences in the arguments of a utility `printf`. -/
def utilityArgument : EscapeStyle := ⟨true, true, true, true⟩

/-- The sequences in a format of a utility `printf`. -/
def utilityFormat : EscapeStyle := ⟨true, false, true, true⟩

/-- The character of a letter behind a backslash. -/
def letter? (style : EscapeStyle) : Char → Option Char
  | 'a' => some '\x07'
  | 'b' => some '\x08'
  | 'f' => some '\x0c'
  | 'n' => some '\n'
  | 'r' => some '\r'
  | 't' => some '\t'
  | 'v' => some '\x0b'
  | '\\' => some '\\'
  | 'e' => if style.hexadecimal then some '\x1b' else none
  | _ => none

/-- The byte that so many digits at the start of a text write, and what follows them. -/
def numbered (base limit : Nat) (cs : List Char) : Char × List Char :=
  let digits := (cs.take limit).takeWhile (Text.isDigitOf base)
  (Char.ofNat (Text.ofDigits base digits % 256), cs.drop digits.length)

/-- The characters of what stands behind a backslash, and what follows; nothing if the text ends
there. -/
def sequence (style : EscapeStyle) : List Char → Option (List Char × List Char)
  | [] => some (['\\'], [])
  | c :: cs =>
    if c = 'c' && style.ends then none
    else if c = '0' && style.octalBehindZero then
      let (byte, rest) := numbered 8 3 cs
      some ([byte], rest)
    else if style.octal && Text.isDigitOf 8 c then
      let (byte, rest) := numbered 8 3 (c :: cs)
      some ([byte], rest)
    else if c = 'x' && style.hexadecimal && (cs.head?.any (Text.isDigitOf 16)) then
      let (byte, rest) := numbered 16 2 cs
      some ([byte], rest)
    else
      match style.letter? c with
      | some d => some ([d], cs)
      | none => some (['\\', c], cs)

end EscapeStyle

/-- The text of escape sequences, and whether it was ended by one. Fuel is the number of
characters. -/
def unescapeFrom (style : EscapeStyle) : Nat → List Char → List Char × Bool
  | 0, _ => ([], false)
  | _, [] => ([], false)
  | fuel + 1, '\\' :: cs =>
    match style.sequence cs with
    | none => ([], true)
    | some (out, rest) =>
      let (more, ended) := unescapeFrom style fuel rest
      (out ++ more, ended)
  | fuel + 1, c :: cs =>
    let (more, ended) := unescapeFrom style fuel cs
    (c :: more, ended)

/-- The text of escape sequences, and whether it was ended by one. -/
def unescape (style : EscapeStyle) (s : String) : String × Bool :=
  let (out, ended) := unescapeFrom style s.length s.toList
  (String.ofList out, ended)

/-! ## Formats -/

/-- What a program says of formats and arguments that do not fit. -/
structure FormatStyle where
  escapes : EscapeStyle
  argumentEscapes : EscapeStyle
  noNumber : String → String
  restOfNumber : String → String
  badDirective : String → String
  /-- For a directive at the end of the format that says nothing. -/
  openDirective : String → String
  badDirectiveStatus : Nat

/-- A directive of a format. -/
structure Directive where
  flags : List Char := []
  width : Nat := 0
  precision : Option Nat := none
  conversion : Char

namespace Directive

/-- The text in its field. -/
def pad (d : Directive) (s : String) : String :=
  if d.flags.contains '-' then Text.padRight d.width s else Text.padLeft ' ' d.width s

/-- A number with its sign in its field. -/
def padNumber (d : Directive) (sign digits : String) : String :=
  let digits := match d.precision with
    | some 0 => if digits = "0" then "" else digits
    | some p => Text.padLeft '0' p digits
    | none => digits
  if d.flags.contains '0' && !d.flags.contains '-' && d.precision.isNone then
    sign ++ Text.padLeft '0' (d.width - sign.length) digits
  else d.pad (sign ++ digits)

def integer (d : Directive) (n : Int) : String :=
  let sign := if n < 0 then "-" else if d.flags.contains '+' then "+"
    else if d.flags.contains ' ' then " " else ""
  d.padNumber sign (toString n.natAbs)

/-- A number without a sign, in words of 64 bits. -/
def unsigned (d : Directive) (n : Int) : String :=
  let n := (n % (Nat.pow 2 64 : Nat)).toNat
  let sharp := d.flags.contains '#' && n ≠ 0
  match d.conversion with
  | 'o' => d.padNumber "" ((if sharp then "0" else "") ++ Text.digits 8 n)
  | 'x' => d.padNumber (if sharp then "0x" else "") (Text.digits 16 n)
  | 'X' => d.padNumber (if sharp then "0X" else "") (Text.digits 16 n).toUpper
  | _ => d.padNumber "" (toString n)

def text (d : Directive) (s : String) : String :=
  d.pad (match d.precision with
    | some p => (s.take p).toString
    | none => s)

end Directive

namespace Format

/-- The state of filling a format. -/
structure Filling where
  arguments : List String
  /-- What is printed, latest first. -/
  printed : List String := []
  complaints : List String := []
  status : Nat := 0
  /-- Whether no more is to be printed. -/
  ended : Bool := false

def Filling.print (f : Filling) (s : String) : Filling := { f with printed := s :: f.printed }

def Filling.complain (f : Filling) (s : String) : Filling :=
  { f with complaints := f.complaints ++ [s], status := 1 }

/-- The next argument as a number. A quote stands before a character whose number is meant. -/
def nextNumber (style : FormatStyle) (f : Filling) : Int × Filling :=
  match f.arguments with
  | [] => (0, f)
  | a :: rest =>
    let f := { f with arguments := rest }
    match a.toList with
    | [] => (0, f)
    | c :: cs =>
      if c = '"' || c = '\'' then (((cs.head?.map Char.toNat).getD 0 : Nat), f)
      else
        match Text.readInteger 0 (c :: cs) with
        | none => (0, f.complain (style.noNumber a))
        | some (n, []) => (n, f)
        | some (n, _) => (n, f.complain (style.restOfNumber a))

def nextText (f : Filling) : String × Filling :=
  match f.arguments with
  | [] => ("", f)
  | a :: rest => (a, { f with arguments := rest })

/-- A number that stands in the format, or is taken from the arguments for a `*`. -/
def readCount (style : FormatStyle) (f : Filling) : List Char → Int × List Char × Filling
  | '*' :: cs =>
    let (n, f) := nextNumber style f
    (n, cs, f)
  | cs =>
    let digits := cs.takeWhile (Text.isDigitOf 10)
    (Text.ofDigits 10 digits, cs.drop digits.length, f)

/-- What stands for one directive. -/
def fill (style : FormatStyle) (f : Filling) (d : Directive) (source : String) : Filling :=
  match d.conversion with
  | 's' =>
    let (s, f) := nextText f
    f.print (d.text s)
  | 'b' =>
    let (s, f) := nextText f
    let (s, ended) := unescape style.argumentEscapes s
    { f.print (d.text s) with ended }
  | 'c' =>
    let (s, f) := nextText f
    f.print (d.pad (s.toList.head?.getD '\x00').toString)
  | 'd' | 'i' =>
    let (n, f) := nextNumber style f
    f.print (d.integer n)
  | 'o' | 'u' | 'x' | 'X' =>
    let (n, f) := nextNumber style f
    f.print (d.unsigned n)
  | _ =>
    { f.complain (style.badDirective source) with
      status := style.badDirectiveStatus
      ended := true }

/-- A directive behind its `%`, and what follows it. -/
def readDirective (style : FormatStyle) (f : Filling) (cs : List Char) :
    Option Directive × String × List Char × Filling :=
  let flags := cs.takeWhile ("#-+ 0".toList.contains ·)
  let (width, rest, f) := readCount style f (cs.drop flags.length)
  let (precision, rest, f) :=
    match rest with
    | '.' :: rest =>
      let (n, rest, f) := readCount style f rest
      (some n.toNat, rest, f)
    | rest => (none, rest, f)
  let flags := if width < 0 then '-' :: flags else flags
  let source := String.ofList ('%' :: cs.take (cs.length - rest.length + 1))
  match rest with
  | [] => (none, source, [], f)
  | c :: rest =>
    (some { flags, width := width.natAbs, precision, conversion := c }, source, rest, f)

/-- Goes through the format once. Fuel is the number of characters. -/
def pass (style : FormatStyle) : Nat → List Char → Filling → Filling
  | 0, _, f => f
  | _, [], f => f
  | fuel + 1, c :: cs, f =>
    if f.ended then f
    else if c = '\\' then
      match style.escapes.sequence cs with
      | none => { f with ended := true }
      | some (out, rest) => pass style fuel rest (f.print (String.ofList out))
    else if c ≠ '%' then pass style fuel cs (f.print c.toString)
    else
      match cs with
      | '%' :: rest => pass style fuel rest (f.print "%")
      | _ =>
        match readDirective style f cs with
        | (some d, source, rest, f) => pass style fuel rest (fill style f d source)
        | (none, source, _, f) =>
          { f.complain (style.openDirective source) with
            status := style.badDirectiveStatus, ended := true }

/-- Goes through the format until no argument is left. Fuel is the number of arguments. -/
def passes (style : FormatStyle) (format : List Char) : Nat → Filling → Filling
  | 0, f => f
  | fuel + 1, f =>
    let after := pass style format.length format f
    if after.ended || after.arguments.isEmpty ||
      after.arguments.length = f.arguments.length then after
    else passes style format fuel after

/-- What a format and arguments print, the complaints on them, and the status. -/
def print (style : FormatStyle) (format : String) (arguments : List String) :
    String × List String × Nat :=
  let f := passes style format.toList (arguments.length + 1) { arguments }
  (String.join f.printed.reverse, f.complaints, f.status)

end Format

end CommandSuite
