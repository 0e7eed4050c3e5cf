import CommandSuite.Shell.Syntax
import CommandSuite.Text.Split

/-!
# Reading scripts: source and tokens

The source of a script is what is left of it, the number of its line and, at times, a token that
was looked at and not taken. A text that is redirected from (behind `<<`) stands on the lines that
follow; it is cut out as soon as its redirection is met, and the lines are counted when the source
comes to them.
-/

namespace CommandSuite.Shell

/-- A word, or a sign that separates words. -/
inductive Token where
  | word (w : Word)
  /-- A sign between commands. -/
  | sign (s : String)
  /-- The sign of a redirection, with the descriptor that stands before it. -/
  | redirect (descriptor : Option Nat) (sign : String)
  | newline
  | eof

instance : Inhabited Token := ⟨.eof⟩

/-- What is left of a script. -/
structure Source where
  rest : List Char
  /-- The number of the line. -/
  line : Nat := 1
  /-- The number of lines that were cut out behind this one. -/
  owed : Nat := 0
  ahead : Option Token := none

/-- Why a text is no script, and the line on which that shows. -/
structure SyntaxError where
  line : Nat
  what : String
  deriving Repr

/-- A step of reading. -/
abbrev Reader := StateT Source (Except SyntaxError)

namespace Reader

/-- Ends the reading with an error on this line, which is the last of all if nothing is left. -/
def fail {α : Type} (what : String) : Reader α := do
  let source ← get
  throw ⟨if source.rest.isEmpty then source.line + source.owed else source.line, what⟩

/-- The words that have a meaning of their own where a command may begin. -/
def keywords : List String :=
  ["!", "case", "do", "done", "elif", "else", "esac", "fi", "for", "if", "in", "then",
   "until", "while", "\x7b", "\x7d"]

/-- Whether a token is the keyword. -/
def isKeyword (keyword : String) : Token → Bool
  | .word w => literal? w = some keyword
  | _ => false

/-- Whether a token is the sign. -/
def isSign (sign : String) : Token → Bool
  | .sign s => s = sign
  | _ => false

/-- Whether a token is the end of the script. -/
def isEnd : Token → Bool
  | .eof => true
  | _ => false

/-- Whether a token closes commands that stand inside others. -/
def closes : Token → Bool
  | .eof => true
  | .sign s => s = ")" || s = ";;"
  | .word w =>
    match literal? w with
    | some s => ["do", "done", "elif", "else", "esac", "fi", "then", "\x7d"].contains s
    | none => false
  | _ => false

/-- How messages call a token, where keywords count or do not. -/
def tokenName (keywordsCount : Bool) : Token → String
  | .eof => "end of file"
  | .newline => "newline"
  | .redirect _ _ => "redirection"
  | .sign s => "\"" ++ s ++ "\""
  | .word w =>
    match literal? w with
    | some s => if keywordsCount && keywords.contains s then "\"" ++ s ++ "\"" else "word"
    | none => "word"

/-- The error of a token in a wrong place; `wanted` is the sign that should stand there. -/
def unexpected {α : Type} (keywordsCount : Bool) (token : Token) (wanted : Option String) :
    Reader α :=
  let hint := match wanted with
    | some s => " (expecting " ++ s ++ ")"
    | none => ""
  fail ("Syntax error: " ++ tokenName keywordsCount token ++ " unexpected" ++ hint)

/-! ## Characters -/

/-- Takes so many characters, none of which ends a line. -/
def advance (count : Nat) : Reader Unit := modify fun s => { s with rest := s.rest.drop count }

/-- Takes a newline; the lines that were cut out behind it count with it. -/
def endLine : Reader Unit :=
  modify fun s => { s with rest := s.rest.drop 1, line := s.line + 1 + s.owed, owed := 0 }

/-- Takes a character, which may be a newline. -/
def takeChar (c : Char) : Reader Unit := if c = '\n' then endLine else advance 1

/-- Takes so many characters, some of which may be newlines. -/
def takeChars (cs : List Char) : Reader Unit := cs.forM takeChar

def isBlankSign (c : Char) : Bool := c = ' ' || c = '\t'

/-- The characters that end a word outside quotes. -/
def endsWord (c : Char) : Bool := isBlankSign c || "\n;&|<>()".toList.contains c

/-- Takes blanks, joined lines and a comment. Fuel is the number of characters. -/
def skipBlanks : Nat → Reader Unit
  | 0 => return ()
  | fuel + 1 => do
    match (← get).rest with
    | '\\' :: '\n' :: _ =>
      advance 1
      endLine
      skipBlanks fuel
    | '#' :: cs => advance (1 + (cs.takeWhile (· ≠ '\n')).length)
    | c :: _ =>
      if isBlankSign c then
        advance 1
        skipBlanks fuel
    | [] => return ()

/-- The signs, longer ones before those that they start with. -/
def signs : List String := ["&&", "&", "||", "|", ";;", ";", "(", ")"]

def redirectSigns : List String := ["<<-", "<<", "<&", "<>", "<", ">>", ">&", ">|", ">"]

/-- The sign of a list at which the source stands. -/
def signAt? (among : List String) (rest : List Char) : Option String :=
  among.find? fun s => s.toList.isPrefixOf rest

/-! ## Texts behind redirections -/

/-- The lines of a text up to one that is the delimiter, the lines behind that, and the number of
lines up to and with it. The flag tells whether the delimiter was found. -/
def cutHere (stripTabs : Bool) (delimiter : List Char) :
    List (List Char) → List (List Char) × List (List Char) × Nat × Bool
  | [] => ([], [], 0, false)
  | line :: lines =>
    let shown := if stripTabs then line.dropWhile (· = '\t') else line
    if shown = delimiter then ([], lines, 1, true)
    else
      let (body, rest, count, found) := cutHere stripTabs delimiter lines
      (shown :: body, rest, count + 1, found)

/-- Cuts the text that ends at a delimiter out of the lines that follow, and tells on which line
it begins. If there is no delimiter, it ends with the script. -/
def takeHere (stripTabs : Bool) (delimiter : List Char) : Reader (List Char × Nat) := do
  let source ← get
  let line := source.rest.takeWhile (· ≠ '\n')
  let start := source.line + source.owed + 1
  match source.rest.drop line.length with
  | [] => return ([], start)
  | _ :: below =>
    let (body, rest, count, found) := cutHere stripTabs delimiter (Text.splitOn '\n' below)
    let after := if rest.isEmpty then [] else '\n' :: Text.joinWith '\n' rest
    let counted := if found && rest.isEmpty then count + 1 else count
    set { source with rest := line ++ after, owed := source.owed + counted }
    if found then return (body.flatMap (· ++ ['\n']), start)
    else return (Text.joinWith '\n' body, start)

end Reader

end CommandSuite.Shell
