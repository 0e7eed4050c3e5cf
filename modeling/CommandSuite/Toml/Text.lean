import CommandSuite.Toml.Error
import CommandSuite.Toml.Source

/-!
# Strings of a document

A string stands between single quotes, where every character is meant as it is, or between double
quotes, where a backslash starts an escape. Between three quotes of either kind it may run over
several lines. Each reader here starts behind the opening quotes and gives the text and what
follows the closing ones.
-/

namespace CommandSuite.Toml

/-- A text and the rest of the source, which is no longer than what was read. -/
abbrev Spelled (source : Source) := List Char × { rest : Source // rest.length ≤ source.length }

/-- Whether a character may stand in a string. -/
def isStringChar (c : Char) : Bool := c = '\t' || ' ' ≤ c && c ≠ '\x7f'

def isHexDigit (c : Char) : Bool :=
  c.isDigit || 'a' ≤ c && c ≤ 'f' || 'A' ≤ c && c ≤ 'F'

/-- The value of a hexadecimal digit. -/
def hexValue (c : Char) : Nat :=
  if c.isDigit then c.toNat - '0'.toNat
  else if 'a' ≤ c then c.toNat - 'a'.toNat + 10
  else c.toNat - 'A'.toNat + 10

/-- Reads `count` hexadecimal digits of a string that started at `start`. -/
def readHex (start : Nat) (value : Nat) :
    Nat → (source : Source) →
      Except Error (Nat × { rest : Source // rest.length ≤ source.length })
  | 0, source => .ok (value, ⟨source, Nat.le_refl _⟩)
  | _ + 1, [] => .error ⟨.unterminatedString, start⟩
  | count + 1, (pos, c) :: source =>
    if isHexDigit c then do
      let (n, ⟨rest, _⟩) ← readHex start (value * 16 + hexValue c) count source
      return (n, ⟨rest, by simp only [List.length_cons]; omega⟩)
    else .error ⟨.invalidHexDigit c, pos⟩

/-- The character of a scalar value. -/
def scalar? (n : Nat) : Option Char :=
  if h : n.isValidChar then some (Char.ofNatAux n h) else none

def isBlank (c : Char) : Bool := c = ' ' || c = '\t'

def isBlankOrNewline (c : Char) : Bool := isBlank c || c = '\n'

/-- Reads an escape behind its backslash. A backslash at the end of a line of a multi-line string
stands for nothing and takes all blanks and line feeds that follow with it. -/
def readEscape (start : Nat) (multiline : Bool) :
    (source : Source) → Except Error (Spelled source)
  | [] => .error ⟨.unterminatedString, start⟩
  | (pos, c) :: source =>
    let one (d : Char) : Except Error (Spelled ((pos, c) :: source)) :=
      .ok ([d], ⟨source, by simp⟩)
    let coded (count : Nat) : Except Error (Spelled ((pos, c) :: source)) := do
      let (n, ⟨rest, _⟩) ← readHex start 0 count source
      match scalar? n with
      | some d => return ([d], ⟨rest, by simp only [List.length_cons]; omega⟩)
      | none => throw ⟨.invalidScalar n, pos⟩
    let blank : Except Error (Spelled ((pos, c) :: source)) :=
      .ok ([], ⟨Source.skip isBlankOrNewline source, by
        have := Source.length_skip_le isBlankOrNewline source
        simp only [List.length_cons]; omega⟩)
    match c with
    | '"' => one '"'
    | '\\' => one '\\'
    | 'b' => one '\x08'
    | 'f' => one '\x0c'
    | 'n' => one '\n'
    | 'r' => one '\r'
    | 't' => one '\t'
    | 'u' => coded 4
    | 'U' => coded 8
    | _ =>
      if multiline && c = '\n' then blank
      else if multiline && isBlank c then
        match Source.skip isBlank source with
        | [] => blank
        | (_, d) :: _ => if d = '\n' then blank else .error ⟨.invalidEscape c, pos⟩
      else .error ⟨.invalidEscape c, pos⟩

/-- The quotes at the end of a multi-line string: three close it, and up to two more before them
belong to its text. `none` if fewer than three stand here; `seen` of them are read already. -/
def readClosing (quote : Char) (seen : Nat) :
    (source : Source) → Option Nat × { rest : Source // rest.length ≤ source.length }
  | [] => (if 3 ≤ seen then some (seen - 3) else none, ⟨[], by simp⟩)
  | (pos, c) :: source =>
    if c = quote && seen < 5 then
      let (extra, ⟨rest, h⟩) := readClosing quote (seen + 1) source
      (extra, ⟨rest, by simp only [List.length_cons]; omega⟩)
    else (if 3 ≤ seen then some (seen - 3) else none, ⟨(pos, c) :: source, Nat.le_refl _⟩)

/-- Reads the inside of a string up to its closing quotes. -/
def readString (quote : Char) (multiline : Bool) (start : Nat) (read : List Char) :
    (source : Source) → Except Error (List Char × Source)
  | [] => .error ⟨.unterminatedString, start⟩
  | (pos, c) :: source =>
    if c = '\n' then
      if multiline then readString quote multiline start (c :: read) source
      else .error ⟨.newlineInString, pos⟩
    else if c = quote then
      if multiline then
        match readClosing quote 1 source with
        | (some extra, ⟨rest, _⟩) => .ok (read.reverse ++ List.replicate extra quote, rest)
        | (none, ⟨rest, _⟩) =>
          readString quote multiline start
            (List.replicate (source.length - rest.length + 1) quote ++ read) rest
      else .ok (read.reverse, source)
    else if c = '\\' && quote = '"' then
      match readEscape start multiline source with
      | .ok (cs, ⟨rest, _⟩) => readString quote multiline start (cs ++ read) rest
      | .error e => .error e
    else if isStringChar c then readString quote multiline start (c :: read) source
    else .error ⟨.invalidStringCharacter c, pos⟩
  termination_by source => source.length
  decreasing_by all_goals simp only [List.length_cons]; omega

/-- Reads the inside of a multi-line string; a line feed just behind the opening quotes is no part
of it. -/
def readMultiline (quote : Char) (start : Nat) : Source → Except Error (List Char × Source)
  | [] => readString quote true start [] []
  | (pos, c) :: source =>
    readString quote true start [] (if c = '\n' then source else (pos, c) :: source)

end CommandSuite.Toml
