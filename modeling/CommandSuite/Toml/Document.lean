import CommandSuite.Toml.Number
import CommandSuite.Toml.Token
import CommandSuite.Toml.Value

/-!
# Documents

`readDocument` reads the tables of a document from its tokens. Arrays and inline tables hold
values, so the readers of values call each other; their fuel is twice the number of tokens, since
a value takes a token and holds at most one more reader that takes none.
-/

namespace CommandSuite.Toml

/-- A reader of tokens. -/
abbrev Reader := StateT Tokens (Except Error)

namespace Reader

/-- The byte offset of the next token. -/
def position : Reader Nat := return (← get).pos

def fail {α : Type} (kind : ErrorKind) (pos : Nat) : Reader α := throw ⟨kind, pos⟩

/-- The next token, without taking it. -/
def peek : Reader (Option Token) := do
  match ← get with
  | .done _ => return none
  | .fault _ error => throw error
  | .cons _ token _ => return some token

/-- Takes the next token. -/
def next : Reader (Option Token) := do
  match ← get with
  | .done _ => return none
  | .fault _ error => throw error
  | .cons _ token rest => set rest; return some token

/-- Takes the next token if it is the given one. -/
def eat (token : Token) : Reader Bool := do
  if (← peek) = some token then
    let _ ← next
    return true
  else return false

/-- Takes the given token. -/
def expect (token : Token) : Reader Unit := do
  let pos ← position
  match ← next with
  | some found =>
    if found = token then return ()
    else fail (.wanted token.describe found.describe) pos
  | none => fail (.wanted token.describe "eof") pos

/-- Takes blanks, if there are any. -/
def skipBlanks : Reader Unit := do
  match ← get with
  | .cons _ (.blanks _) rest => set rest
  | _ => return ()

/-- Takes the end of a line. -/
def endLine : Reader Unit := do
  let pos ← position
  match ← next with
  | none | some .newline => return ()
  | some found => fail (.wanted "newline" found.describe) pos

/-- Takes a comment and the end of its line, if a comment is next. -/
def skipComment : Reader Bool := do
  match ← get with
  | .cons _ .comment rest => set rest; endLine; return true
  | _ => return false

/-- Takes the end of a line with a comment before it, if there is one. -/
def endEntry : Reader Unit := do
  skipBlanks
  if ← skipComment then return ()
  else endLine

/-- Takes blanks, comments and line ends. -/
def skipLines : Nat → Reader Unit
  | 0 => return ()
  | fuel + 1 => do
    skipBlanks
    if (← eat .newline) || (← skipComment) then skipLines fuel
    else return ()

/-- Takes all blanks, comments and line ends that come next. -/
def skipAllLines : Reader Unit := do skipLines ((← get).size + 1)

/-! ## Keys -/

/-- Takes a part of a key. -/
def key : Reader String := do
  let pos ← position
  match ← next with
  | some (.word text) => return text
  | some (.string value multiline) =>
    if multiline then fail .multilineKey pos else return value
  | some found => fail (.wanted "a table key" found.describe) pos
  | none => fail (.wanted "a table key" "eof") pos

/-- Takes the further parts of a dotted key. -/
def keyParts : Nat → Reader (List String)
  | 0 => return []
  | fuel + 1 => do
    skipBlanks
    if ← eat .period then
      skipBlanks
      let part ← key
      return part :: (← keyParts fuel)
    else return []

/-- Takes a dotted key: its first part and the others. -/
def dottedKey : Reader (String × List String) := do
  let first ← key
  return (first, ← keyParts ((← get).size + 1))

/-! ## Numbers and dates -/

/-- Takes a word, or fails at the given place. -/
def wordOr (kind : ErrorKind) (pos : Nat) : Reader (Nat × String) := do
  let place ← position
  match ← next with
  | some (.word text) => return (place, text)
  | _ => fail kind pos

/-- Takes the exponent of a float: what follows the `e` in its word, or a plus and the next
word. -/
def exponent (start pos : Nat) (cs : List Char) : Reader Int := do
  let (negative, digits, rest) ← match cs with
    | [] => do
      let _ ← eat .plus
      let (pos, text) ← wordOr .invalidNumber start
      let (digits, rest) ← readDigits 10 true pos {} pos text.toList
      pure (false, digits, rest)
    | cs => readSigned true pos cs
  if rest.isEmpty then
    let n := valueOfDigits 10 digits
    return if negative then -(n : Int) else n
  else fail .invalidNumber start

/-- Takes the rest of a float whose whole part is the word at `start`, from behind its point if it
has one. -/
def float (start : Nat) (word : List Char) (fraction : Option (Nat × List Char)) :
    Reader Float := do
  let (negative, whole, rest) ← readSigned false start word
  let wholeLength := word.length - rest.length
  let (pos, digits, rest) ← match fraction with
    | none => pure (start + wholeLength, [], rest)
    | some (pos, cs) =>
      if rest.isEmpty then
        let (digits, rest) ← readDigits 10 true pos {} pos cs
        pure (pos + (cs.length - rest.length), digits, rest)
      else fail .invalidNumber start
  let power ← match rest with
    | [] => pure 0
    | c :: cs =>
      if c = 'e' || c = 'E' then exponent start (pos + 1) cs
      else fail .invalidNumber start
  let x := Scientific.toFloat
    { negative
      mantissa := valueOfDigits 10 (whole ++ digits)
      exponent := power - digits.length }
  if x.isFinite then return x
  else fail .invalidNumber start

/-- Takes a number whose first word was read, at `start`; the value is placed at `pos`. -/
def number (pos start : Nat) (word : String) : Reader Value := do
  match word.toList with
  | '0' :: 'x' :: cs => return .integer pos (← readBased 16 (start + 2) cs)
  | '0' :: 'o' :: cs => return .integer pos (← readBased 8 (start + 2) cs)
  | '0' :: 'b' :: cs => return .integer pos (← readBased 2 (start + 2) cs)
  | cs =>
    if cs.contains 'e' || cs.contains 'E' then return .float pos (← float start cs none)
    else if ← eat .period then
      let behind ← position
      let (place, fraction) ← wordOr .invalidNumber behind
      return .float place (← float start cs (some (place, fraction.toList)))
    else
      match word with
      | "inf" => return .float pos (1.0 / 0.0)
      | "-inf" => return .float pos (-1.0 / 0.0)
      | "nan" | "-nan" => return .float pos (0.0 / 0.0)
      | _ => return .integer pos (← readDecimal start cs)

/-- Takes the time of a date, from behind the hour, with an offset if there is one. -/
def time (start : Nat) : Reader Unit := do
  let _ ← wordOr .invalidDate start
  expect .colon
  let _ ← wordOr .invalidDate start
  if ← eat .period then let _ ← wordOr .invalidDate start
  if ← eat .plus then let _ ← wordOr .invalidDate start
  if ← eat .colon then let _ ← wordOr .invalidDate start

/-- The spellings of the tokens in front of a byte offset. -/
def spellingUpTo (stop : Nat) : Tokens → String
  | .cons pos token rest => if pos < stop then token.spelling ++ spellingUpTo stop rest else ""
  | _ => ""

/-- Takes the rest of a date whose first word was read, at `start`. -/
def date (start : Nat) (word : String) (colonRead : Bool) : Reader Value := do
  let behind ← get
  match behind with
  | .cons _ (.blanks " ") (.cons _ (.word _) rest) => set rest
  | _ => pure ()
  if colonRead then time start
  else if ← eat .colon then time start
  let stop ← position
  return .date start (word ++ (if colonRead then ":" else "") ++ spellingUpTo stop behind)

/-- Takes the rest of a value that starts with a word. -/
def wordValue (start : Nat) (word : String) : Reader Value := do
  let cs := word.toList
  let negativeExponent := fun (e : Char) => (cs.zip cs.tail).contains (e, '-')
  let startsNumber := word = "inf" || word = "nan" || match cs with
    | c :: _ => c = '-' || c.isDigit
    | [] => false
  if word = "true" then return .boolean start true
  else if word = "false" then return .boolean start false
  else if !startsNumber then fail .unquotedString start
  else if cs.contains 'T' || cs.contains 't'
      || (cs.tail.contains '-' && !negativeExponent 'e' && !negativeExponent 'E') then
    date start word false
  else if ← eat .colon then date start word true
  else number start start word

/-! ## Values -/

mutual

/-- Takes a value. -/
def value : Nat → Reader Value
  | 0 => do fail .unexpectedEnd (← position)
  | fuel + 1 => do
    let pos ← position
    match ← next with
    | some (.string s _) => return .text pos s
    | some (.word word) => wordValue pos word
    | some .plus =>
      let behind ← position
      let (start, word) ← wordOr .invalidNumber behind
      number pos start word
    | some .leftBrace =>
      skipBlanks
      if ← eat .rightBrace then return .table pos false []
      else return .table pos false (← inlineEntries fuel [])
    | some .leftBracket => return .array pos (← elements fuel)
    | some found => fail (.wanted "a value" found.describe) pos
    | none => fail .unexpectedEnd pos

/-- Takes the entries of an inline table, behind its brace, up to the closing one. -/
def inlineEntries : Nat → List (String × Value) → Reader (List (String × Value))
  | 0, entries => return entries
  | fuel + 1, entries => do
    let (first, parts) ← dottedKey
    skipBlanks
    expect .equals
    skipBlanks
    let v ← value fuel
    let entries ← insertDotted v first parts entries
    skipBlanks
    if ← eat .rightBrace then return entries
    else
      expect .comma
      skipBlanks
      inlineEntries fuel entries

/-- Takes the elements of an array, behind its bracket, and the closing one. -/
def elements : Nat → Reader (List Value)
  | 0 => return []
  | fuel + 1 => do
    skipAllLines
    if ← eat .rightBracket then return []
    else
      let v ← value fuel
      skipAllLines
      if ← eat .comma then return v :: (← elements fuel)
      else
        expect .rightBracket
        return [v]

end

/-! ## Tables -/

/-- Takes a table header. -/
def header : Reader Table := do
  let pos ← position
  expect .leftBracket
  let array ← eat .leftBracket
  skipBlanks
  let (first, parts) ← dottedKey
  expect .rightBracket
  if array then expect .rightBracket
  endEntry
  return { pos, header := first :: parts, array, entries := [] }

/-- Takes a line with a key and a value, and puts it into the table. -/
def entry (table : Table) : Reader Table := do
  let (first, parts) ← dottedKey
  skipBlanks
  expect .equals
  skipBlanks
  let v ← value (2 * (← get).size + 2)
  endEntry
  return { table with entries := ← insertDotted v first parts table.entries }

/-- Takes the tables of a document from within `table`. A table without header counts only if it
has entries. -/
def tables : Nat → Table → Reader (List Table)
  | 0, _ => return []
  | fuel + 1, table => do
    let finished := if table.header.isEmpty && table.entries.isEmpty then [] else [table]
    skipAllLines
    match ← peek with
    | none => return finished
    | some .leftBracket => return finished ++ (← tables fuel (← header))
    | some _ => tables fuel (← entry table)

end Reader

/-- The tables of a document, in its order. -/
def readDocument (document : String) : Except Error (List Table) := do
  let tokens := Tokens.ofDocument document
  let root : Table := { pos := 0, header := [], array := false, entries := [] }
  return (← (Reader.tables (tokens.size + 1) root).run tokens).1

end CommandSuite.Toml
