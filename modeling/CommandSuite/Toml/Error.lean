/-!
# TOML errors

What can be wrong with the notation of a document, each with the byte offset at which it shows,
and how a character is shown in a message.
-/

namespace CommandSuite.Toml

/-- What is wrong with the notation of a document. -/
inductive ErrorKind where
  | unexpectedEnd
  | invalidStringCharacter (c : Char)
  | invalidEscape (c : Char)
  | invalidHexDigit (c : Char)
  | invalidScalar (value : Nat)
  | newlineInString
  | unexpectedCharacter (c : Char)
  | unterminatedString
  | wanted (expected found : String)
  | invalidNumber
  | invalidDate
  | multilineKey
  | extendsValue
  | unquotedString
  deriving Repr, DecidableEq

/-- A fault in the notation, at a byte of the document. -/
structure Error where
  kind : ErrorKind
  pos : Nat
  deriving Repr, DecidableEq

/-- The digits of a number to base 16. -/
def hex (n : Nat) : String := String.ofList (Nat.toDigits 16 n)

/-- A character as a message shows it: printable ASCII as it is, all else escaped. -/
def showChar (c : Char) : String :=
  if c = '\t' then "\\t"
  else if c = '\r' then "\\r"
  else if c = '\n' then "\\n"
  else if c = '\'' || c = '"' || c = '\\' then String.ofList ['\\', c]
  else if ' ' ≤ c && c ≤ '~' then String.singleton c
  else "\\u\x7b" ++ hex c.toNat ++ "\x7d"

/-- The text that reports the fault. -/
def ErrorKind.message : ErrorKind → String
  | unexpectedEnd => "unexpected eof encountered"
  | invalidStringCharacter c => "invalid character in string: `" ++ showChar c ++ "`"
  | invalidEscape c => "invalid escape character in string: `" ++ showChar c ++ "`"
  | invalidHexDigit c => "invalid hex escape character in string: `" ++ showChar c ++ "`"
  | invalidScalar value => "invalid escape value: `" ++ toString value ++ "`"
  | newlineInString => "newline in string found"
  | unexpectedCharacter c => "unexpected character found: `" ++ showChar c ++ "`"
  | unterminatedString => "unterminated string"
  | wanted expected found => "expected " ++ expected ++ ", found " ++ found
  | invalidNumber => "invalid number"
  | invalidDate => "invalid date"
  | multilineKey => "multiline strings are not allowed for key"
  | extendsValue => "dotted key attempted to extend non-table type"
  | unquotedString => "invalid TOML value, did you mean to use a quoted string?"

end CommandSuite.Toml
