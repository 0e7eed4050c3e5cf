import CommandSuite.Toml.Text

/-!
# Tokens of a document

`Tokens.ofDocument` cuts a document into tokens. The tokens end with the document or with the
first fault; a fault is met only by a reader that gets so far, so that an earlier fault of the
grammar is reported first.
-/

namespace CommandSuite.Toml

/-- The smallest parts of a document. -/
inductive Token where
  | blanks (text : String)
  | newline
  | comment
  | equals
  | period
  | comma
  | colon
  | plus
  | leftBrace
  | rightBrace
  | leftBracket
  | rightBracket
  /-- A run of ASCII letters, digits, `_` and `-`: a bare key, a number, a word. -/
  | word (text : String)
  | string (value : String) (multiline : Bool)
  deriving Repr, DecidableEq

namespace Token

/-- What a message calls the token. -/
def describe : Token → String
  | blanks _ => "whitespace"
  | newline => "a newline"
  | comment => "a comment"
  | equals => "an equals"
  | period => "a period"
  | comma => "a comma"
  | colon => "a colon"
  | plus => "a plus"
  | leftBrace => "a left brace"
  | rightBrace => "a right brace"
  | leftBracket => "a left bracket"
  | rightBracket => "a right bracket"
  | word _ => "an identifier"
  | string _ multiline => if multiline then "a multiline string" else "a string"

/-- The token as it is written, for the tokens that dates are made of. -/
def spelling : Token → String
  | blanks text => text
  | word text => text
  | period => "."
  | colon => ":"
  | plus => "+"
  | _ => ""

/-- The tokens of one character. -/
def ofSign? : Char → Option Token
  | '\n' => some newline
  | '=' => some equals
  | '.' => some period
  | ',' => some comma
  | ':' => some colon
  | '+' => some plus
  | '{' => some leftBrace
  | '}' => some rightBrace
  | '[' => some leftBracket
  | ']' => some rightBracket
  | _ => none

end Token

/-- Whether a character may stand in a word. -/
def isWordChar (c : Char) : Bool := c.isAlphanum || c = '_' || c = '-'

/-- Whether a character may stand in a comment. -/
def isCommentChar (c : Char) : Bool := c = '\t' || ' ' ≤ c

/-- The tokens of a document with their byte offsets, up to its end or to the first fault. -/
inductive Tokens where
  | done (pos : Nat)
  | fault (pos : Nat) (error : Error)
  | cons (pos : Nat) (token : Token) (rest : Tokens)
  deriving Repr

namespace Tokens

/-- The byte offset at which the tokens start. -/
def pos : Tokens → Nat
  | done pos => pos
  | fault pos _ => pos
  | cons pos _ _ => pos

/-- The number of tokens. -/
def size : Tokens → Nat
  | cons _ _ rest => rest.size + 1
  | _ => 0

/-- Reads a string from behind its first quote. -/
def readQuoted (quote : Char) (start : Nat) (source : Source) :
    Except Error (Token × Source) :=
  let text (multiline : Bool) (read : Except Error (List Char × Source)) := do
    let (cs, rest) ← read
    return (Token.string (String.ofList cs) multiline, rest)
  match source with
  | (_, c) :: (_, d) :: rest =>
    if c = quote && d = quote then text true (readMultiline quote start rest)
    else if c = quote then .ok (.string "" false, source.tail)
    else text false (readString quote false start [] source)
  | [(_, c)] =>
    if c = quote then .ok (.string "" false, [])
    else text false (readString quote false start [] source)
  | [] => text false (readString quote false start [] [])

/-- Reads the token that starts with the character `c`. -/
def readToken (pos : Nat) (c : Char) (source : Source) : Except Error (Token × Source) :=
  match Token.ofSign? c with
  | some token => .ok (token, source)
  | none =>
    let run (test : Char → Bool) := String.ofList (c :: Source.run test source)
    if isBlank c then .ok (.blanks (run isBlank), Source.skip isBlank source)
    else if c = '#' then .ok (.comment, Source.skip isCommentChar source)
    else if c = '\'' || c = '"' then readQuoted c pos source
    else if isWordChar c then .ok (.word (run isWordChar), Source.skip isWordChar source)
    else .error ⟨.unexpectedCharacter c, pos⟩

/-- The tokens of a source that ends at the byte offset `length`. Every token takes a character,
so as much fuel as there are characters is enough. -/
def ofSource (length : Nat) : Nat → Source → Tokens
  | 0, _ => done length
  | _ + 1, [] => done length
  | fuel + 1, (pos, c) :: source =>
    match readToken pos c source with
    | .ok (token, rest) => cons pos token (ofSource length fuel rest)
    | .error error => fault pos error

/-- The tokens of a document. -/
def ofDocument (document : String) : Tokens :=
  let source := Source.ofDocument document
  ofSource document.utf8ByteSize (source.length + 1) source

end Tokens

end CommandSuite.Toml
