/-!
# Names in messages

A message shows a name the way a shell would read it. A name with characters that mean something
to a shell stands in quotes (`named`), and some messages put every name in quotes (`namedAlways`).
A byte that cannot be shown becomes an escape in quotes of their own kind, `$'…'`, between those
of the rest. Names are byte texts.
-/

namespace CommandSuite.Text

/-- The escape of a byte that cannot be shown. -/
def byteEscape? (c : Char) : Option (List Char) :=
  match c with
  | '\x07' => some ['\\', 'a']
  | '\x08' => some ['\\', 'b']
  | '\t' => some ['\\', 't']
  | '\n' => some ['\\', 'n']
  | '\x0b' => some ['\\', 'v']
  | '\x0c' => some ['\\', 'f']
  | '\r' => some ['\\', 'r']
  | c =>
    let n := c.toNat
    if 32 ≤ n && n < 127 then none
    else some ('\\' :: [n / 64 % 8, n / 8 % 8, n % 8].map Nat.digitChar)

/-- A name from some character on, up to the quote behind it; the flag tells whether the
characters before are escapes. -/
def singleQuotedFrom : Bool → List Char → List Char
  | _, [] => ['\'']
  | escaping, c :: cs =>
    match byteEscape? c with
    | some escape =>
      (if escaping then [] else ['\'', '$', '\'']) ++ escape ++ singleQuotedFrom true cs
    | none =>
      if c = '\'' then ['\'', '\\', '\'', '\''] ++ singleQuotedFrom false cs
      else (if escaping then ['\'', '\''] else []) ++ c :: singleQuotedFrom false cs

/-- Whether a character keeps its meaning in double quotes, at the start of a name or behind
it. -/
def isTameInDouble (first : Bool) (c : Char) : Bool :=
  c.isAlphanum || " %+,-./:]_@'".toList.contains c || (first && (c = '#' || c = '~'))

/-- The name in quotes: double ones if it holds single quotes and nothing else that needs care. -/
def namedAlways (s : String) : String :=
  let tame := (s.toList.mapIdx fun i c => isTameInDouble (i = 0) c).all id
  if s.toList.contains '\'' && tame then "\"" ++ s ++ "\""
  else String.ofList ('\'' :: singleQuotedFrom false s.toList)

/-- Whether a name has to stand in quotes. -/
def needsQuotes (s : String) : Bool :=
  let special (c : Char) : Bool :=
    (byteEscape? c).isSome || " !\"$&'()*:;<=>?[\\^\x60|".toList.contains c
  match s.toList with
  | [] => true
  | c :: cs =>
    (c :: cs).any special || c = '#' || c = '~' || (cs.isEmpty && (c = '\x7b' || c = '\x7d'))

/-- The name, in quotes if it has to be. -/
def named (s : String) : String := if needsQuotes s then namedAlways s else s

end CommandSuite.Text
