import CommandSuite.Text.Unseen

/-!
# Escaped texts

A text between double quotes, with escapes for quotes and backslashes and for all that would not
be seen as it is.
-/

namespace CommandSuite.Text

/-- Whether the character is seen as it is. -/
def isSeen (c : Char) : Bool :=
  ' ' ≤ c && !unseenRanges.any fun range => range.1 ≤ c.toNat && c.toNat ≤ range.2

/-- A character within double quotes. -/
def escapeChar (c : Char) : List Char :=
  match c with
  | '\x00' => ['\\', '0']
  | '\t' => ['\\', 't']
  | '\r' => ['\\', 'r']
  | '\n' => ['\\', 'n']
  | '"' => ['\\', '"']
  | '\\' => ['\\', '\\']
  | _ =>
    if isSeen c then [c]
    else ['\\', 'u', '\x7b'] ++ Nat.toDigits 16 c.toNat ++ ['\x7d']

/-- The text between double quotes. -/
def escaped (s : String) : String :=
  String.ofList ('"' :: s.toList.flatMap escapeChar ++ ['"'])

end CommandSuite.Text
