import CommandSuite.Shell.Token

/-!
# Reading scripts: words and commands

Words and commands are read together, since a word may hold commands whose output it stands for. A
script is read a line at a time (`nextCommand`): what stands before a line that cannot be read has
run by the time its error shows. Every step takes fuel, of which a multiple of the length of the
source is enough.
-/

namespace CommandSuite.Shell

/-- Where the characters of a word stand. -/
inductive Place where
  | plain
  | quoted
  /-- Between the braces of a parameter; the flag tells whether these stand in quotes. -/
  | braces (quoted : Bool)
  /-- In an arithmetic expression, within so many parentheses of its own. -/
  | arithmetic (depth : Nat)
  /-- In a text that is redirected from. -/
  | here
  deriving Repr, DecidableEq

namespace Place

/-- Whether characters stand for themselves here, like those in quotes. -/
def isQuoted : Place → Bool
  | plain | braces false => false
  | _ => true

/-- The characters that a backslash takes the meaning of. -/
def escapes : Place → List Char
  | quoted => "$\x60\"\\".toList
  | braces _ => "$\x60\"\\\x7d".toList
  | _ => "$\x60\\".toList

end Place

namespace Reader

/-- A part in front of others, made one with the first if both are of plain or of quoted
characters. -/
def consPart (part : Part) (parts : List Part) : List Part :=
  match part, parts with
  | .plain s, .plain t :: rest => .plain (s ++ t) :: rest
  | .quoted s, .quoted t :: rest => .quoted (s ++ t) :: rest
  | part, parts => part :: parts

/-- A character of a word at its place. -/
def charPart (place : Place) (c : Char) : Part :=
  if place.isQuoted then .quoted c.toString else .plain c.toString

/-- The text of a delimiter, and whether a part of it is quoted. -/
def delimiterText (w : Word) : List Char × Bool :=
  let text := w.map fun
    | .plain s => s
    | .quoted s => s
    | _ => ""
  let isQuotedPart : Part → Bool
    | .quoted _ => true
    | _ => false
  ((String.join text).toList, w.any isQuotedPart)

/-- The word as an assignment: the name and the value. -/
def assignment? : Word → Option (String × Word)
  | .plain s :: parts =>
    let name := String.ofList (s.toList.takeWhile (· ≠ '='))
    match s.toList.drop name.length with
    | '=' :: value =>
      if isName name then
        some (name, if value.isEmpty then parts else .plain (String.ofList value) :: parts)
      else none
    | _ => none
  | _ => none

/-- Reads in a text of its own that starts on a line. -/
def within {α : Type} (line : Nat) (text : List Char) (read : Reader α) : Reader α := do
  match read.run { rest := text, line } with
  | .ok (a, _) => return a
  | .error e => throw e

/-- The text of a command in backquotes: a backslash takes the meaning of few characters. -/
def backquoted (quoted : Bool) : List Char → Option (List Char × Nat)
  | [] => none
  | '\x60' :: _ => some ([], 1)
  | '\\' :: c :: cs => do
    let (text, count) ← backquoted quoted cs
    let plain := c = '\x60' || c = '\\' || c = '$' || (quoted && c = '"')
    return (if plain then c :: text else '\\' :: c :: text, count + 2)
  | c :: cs => do
    let (text, count) ← backquoted quoted cs
    return (c :: text, count + 1)

/-- The change that the signs behind a parameter's name stand for, and the number of these signs.
A brace behind a colon closes nothing. -/
def changeAt : List Char → Change × Nat
  | ':' :: '-' :: _ => (.default true, 2)
  | ':' :: '=' :: _ => (.assign true, 2)
  | ':' :: '?' :: _ => (.require true, 2)
  | ':' :: '+' :: _ => (.alternative true, 2)
  | '-' :: _ => (.default false, 1)
  | '=' :: _ => (.assign false, 1)
  | '?' :: _ => (.require false, 1)
  | '+' :: _ => (.alternative false, 1)
  | '#' :: '#' :: _ => (.cut false true, 2)
  | '#' :: _ => (.cut false false, 1)
  | '%' :: '%' :: _ => (.cut true true, 2)
  | '%' :: _ => (.cut true false, 1)
  | '\x7d' :: _ => (.keep, 0)
  | ':' :: '\x7d' :: _ => (.keep, 2)
  | ':' :: _ :: _ => (.bad, 2)
  | _ => (.bad, 1)

/-- The name of a parameter at the start of a text. -/
def parameterName : List Char → List Char
  | [] => []
  | c :: cs =>
    if isNameStart c then c :: cs.takeWhile isNameChar
    else if c.isDigit then c :: cs.takeWhile Char.isDigit
    else if isSpecial c then [c]
    else []

/-- The next token, left where it is. -/
def peekWith (read : Reader Token) : Reader Token := do
  match (← get).ahead with
  | some token => return token
  | none =>
    let token ← read
    modify fun s => { s with ahead := some token }
    return token

/-- Leaves the token that was looked at. -/
def drop : Reader Unit := modify fun s => { s with ahead := none }

mutual

/-- The parts of a word up to where it ends. -/
def parts : Nat → Place → Reader Word
  | 0, _ => fail "Syntax error: script too long"
  | fuel + 1, place => do
    match (← get).rest with
    | [] =>
      match place with
      | .plain | .here => return []
      | .quoted | .braces true => fail "Syntax error: Unterminated quoted string"
      | .braces false => fail "Syntax error: Missing '\x7d'"
      | .arithmetic _ => fail "Syntax error: Missing '))'"
    | c :: cs =>
      let one (part : Part) : Reader Word := do return consPart part (← parts fuel place)
      if c = '\\' then
        match cs with
        | '\n' :: _ =>
          advance 1
          endLine
          parts fuel place
        | [] =>
          advance 1
          one (charPart place '\\')
        | d :: _ =>
          advance 1
          takeChar d
          if !place.isQuoted || place.escapes.contains d then one (.quoted d.toString)
          else one (.quoted (String.ofList ['\\', d]))
      else if c = '$' then
        advance 1
        let part ← dollar fuel place.isQuoted
        one part
      else if c = '\x60' then
        advance 1
        let part ← backquote fuel place.isQuoted
        one part
      else
        match place with
        | .plain =>
          if endsWord c then return []
          else if c = '\'' || c = '"' then do
            let quoted ← quotes fuel c
            return quoted ++ (← parts fuel place)
          else
            advance 1
            one (.plain c.toString)
        | .quoted =>
          takeChar c
          if c = '"' then return [] else one (.quoted c.toString)
        | .braces inQuotes =>
          if c = '\x7d' then
            advance 1
            return []
          else if c = '"' || (c = '\'' && !inQuotes) then do
            let quoted ← quotes fuel c
            return quoted ++ (← parts fuel place)
          else
            takeChar c
            one (charPart place c)
        | .arithmetic depth =>
          takeChar c
          if c = '(' then
            return consPart (.quoted "(") (← parts fuel (.arithmetic (depth + 1)))
          else if c = ')' then
            match depth, cs with
            | depth + 1, _ => return consPart (.quoted ")") (← parts fuel (.arithmetic depth))
            | 0, ')' :: _ =>
              advance 1
              return []
            | 0, _ => one (.quoted ")")
          else one (.quoted c.toString)
        | .here =>
          takeChar c
          one (.quoted c.toString)

/-- The parts in quotes of one kind, at least one. -/
def quotes : Nat → Char → Reader Word
  | 0, _ => fail "Syntax error: script too long"
  | fuel + 1, quote => do
    advance 1
    if quote = '\'' then
      let text := (← get).rest.takeWhile (· ≠ '\'')
      takeChars text
      if (← get).rest.isEmpty then fail "Syntax error: Unterminated quoted string"
      advance 1
      return [.quoted (String.ofList text)]
    else
      match ← parts fuel .quoted with
      | [] => return [.quoted ""]
      | inner => return inner

/-- What stands behind a dollar sign. -/
def dollar : Nat → Bool → Reader Part
  | 0, _ => fail "Syntax error: script too long"
  | fuel + 1, quoted => do
    match (← get).rest with
    | '(' :: '(' :: _ =>
      advance 2
      let expression ← parts fuel (.arithmetic 0)
      return .arithmetic quoted expression
    | '(' :: _ =>
      advance 1
      let body ← enclosed fuel
      return .commands quoted body
    | '\x7b' :: _ =>
      advance 1
      parameter fuel quoted
    | c :: cs =>
      let name := if isNameStart c then c :: cs.takeWhile isNameChar
        else if c.isDigit || isSpecial c then [c] else []
      if name.isEmpty then return if quoted then .quoted "$" else .plain "$"
      advance name.length
      return .parameter quoted (String.ofList name) .keep []
    | [] => return if quoted then .quoted "$" else .plain "$"

/-- A parameter behind its opening brace. -/
def parameter : Nat → Bool → Reader Part
  | 0, _ => fail "Syntax error: script too long"
  | fuel + 1, quoted => do
    let rest := (← get).rest
    let ofLength := match rest with
      | '#' :: cs =>
        let name := parameterName cs
        !name.isEmpty && (cs.drop name.length).head? = some '\x7d'
      | _ => false
    if ofLength then
      let name := parameterName rest.tail
      advance (name.length + 2)
      return .parameter quoted (String.ofList name) .length []
    let name := parameterName rest
    advance name.length
    let behind := rest.drop name.length
    let (change, count) := if !name.isEmpty then changeAt behind
      else (.bad, if behind.head? = some '\x7d' then 0 else 1)
    takeChars (behind.take count)
    let inQuotes := match change with
      | .cut _ _ => false
      | _ => quoted
    let word ← parts fuel (.braces inQuotes)
    return .parameter quoted (String.ofList name) change word

/-- A command in backquotes, whose lines are counted from 1. -/
def backquote : Nat → Bool → Reader Part
  | 0, _ => fail "Syntax error: script too long"
  | fuel + 1, quoted => do
    let source ← get
    match backquoted quoted source.rest with
    | none =>
      takeChars source.rest
      fail "Syntax error: EOF in backquote substitution"
    | some (text, count) =>
      takeChars (source.rest.take count)
      let body ← within 1 text (body fuel)
      return .commands quoted body

/-- The next token of the source. -/
def token : Nat → Reader Token
  | 0 => fail "Syntax error: script too long"
  | fuel + 1 => do
    skipBlanks ((← get).rest.length + 1)
    let rest := (← get).rest
    match rest with
    | [] => return .eof
    | '\n' :: _ =>
      endLine
      return .newline
    | c :: cs =>
      match signAt? signs rest, signAt? redirectSigns rest with
      | some s, _ =>
        advance s.length
        return .sign s
      | none, some s =>
        advance s.length
        return .redirect none s
      | none, none =>
        match c.isDigit, signAt? redirectSigns cs with
        | true, some s =>
          advance (s.length + 1)
          return .redirect (some (c.toNat - '0'.toNat)) s
        | _, _ => return .word (← parts fuel .plain)

/-- Commands up to something that closes them, which is left; possibly none. -/
def body : Nat → Reader (List Command)
  | 0 => fail "Syntax error: script too long"
  | fuel + 1 => do
    skipNewlines fuel
    if closes (← peekWith (token fuel)) then return []
    else return [← compoundList fuel]

/-- Commands up to a closing parenthesis, which is taken. -/
def enclosed : Nat → Reader (List Command)
  | 0 => fail "Syntax error: script too long"
  | fuel + 1 => do
    let inner ← body fuel
    expectClosing fuel true
    return inner

/-- Takes newlines. -/
def skipNewlines : Nat → Reader Unit
  | 0 => fail "Syntax error: script too long"
  | fuel + 1 => do
    match ← peekWith (token fuel) with
    | .newline =>
      drop
      skipNewlines fuel
    | _ => return ()

/-- Takes a closing parenthesis, which must follow. -/
def expectClosing : Nat → Bool → Reader Unit
  | 0, _ => fail "Syntax error: script too long"
  | fuel + 1, keywordsCount => do
    let token ← peekWith (token fuel)
    if isSign ")" token then drop else unexpected keywordsCount token (some "\")\"")

/-- Takes a keyword that must follow. -/
def expectWord : Nat → String → Reader Unit
  | 0, _ => fail "Syntax error: script too long"
  | fuel + 1, wanted => do
    let token ← peekWith (token fuel)
    if isKeyword wanted token then drop
    else unexpected true token (some ("\"" ++ wanted ++ "\""))

/-- The commands of a line. -/
def listLine : Nat → Reader Command
  | 0 => fail "Syntax error: script too long"
  | fuel + 1 => do
    let command ← andOr fuel
    let (command, more) ← separated fuel command
    let token ← peekWith (token fuel)
    match token with
    | .newline =>
      drop
      return command
    | .eof => return command
    | token =>
      if more then return .seq command (← listLine fuel) else unexpected true token none

/-- A command and the sign behind it, which may put it into the background; tells whether there
was a sign. -/
def separated : Nat → Command → Reader (Command × Bool)
  | 0, _ => fail "Syntax error: script too long"
  | fuel + 1, command => do
    match ← peekWith (token fuel) with
    | .sign ";" =>
      drop
      return (command, true)
    | .sign "&" =>
      drop
      return (.background command, true)
    | _ => return (command, false)

/-- Commands up to something that closes them, which is left. There is at least one, unless the
script ends here, of which whoever waits for the closing will tell. -/
def compoundList : Nat → Reader Command
  | 0 => fail "Syntax error: script too long"
  | fuel + 1 => do
    skipNewlines fuel
    if isEnd (← peekWith (token fuel)) then return default
    let command ← andOr fuel
    let (command, more) ← separated fuel command
    let newline := match ← peekWith (token fuel) with
      | .newline => true
      | _ => false
    if more || newline then
      skipNewlines fuel
      let token ← peekWith (token fuel)
      if closes token then return command
      else return .seq command (← compoundList fuel)
    else return command

/-- Pipelines joined by `&&` and `||`. -/
def andOr : Nat → Reader Command
  | 0 => fail "Syntax error: script too long"
  | fuel + 1 => do
    let first ← pipeline fuel
    joined fuel first

/-- What `&&` and `||` join to a command. -/
def joined : Nat → Command → Reader Command
  | 0, _ => fail "Syntax error: script too long"
  | fuel + 1, command => do
    match ← peekWith (token fuel) with
    | .sign "&&" =>
      drop
      skipNewlines fuel
      let next ← pipeline fuel
      joined fuel (.and command next)
    | .sign "||" =>
      drop
      skipNewlines fuel
      let next ← pipeline fuel
      joined fuel (.or command next)
    | _ => return command

/-- Commands joined by `|`, possibly behind `!`. -/
def pipeline : Nat → Reader Command
  | 0 => fail "Syntax error: script too long"
  | fuel + 1 => do
    if isKeyword "!" (← peekWith (token fuel)) then
      drop
      return .negated (← pipeline fuel)
    else
      let first ← command fuel
      match ← piped fuel with
      | [] => return first
      | rest => return .pipeline (first :: rest)

/-- The commands behind each `|`. -/
def piped : Nat → Reader (List Command)
  | 0 => fail "Syntax error: script too long"
  | fuel + 1 => do
    match ← peekWith (token fuel) with
    | .sign "|" =>
      drop
      skipNewlines fuel
      let next ← command fuel
      return next :: (← piped fuel)
    | _ => return []

/-- One command with its redirections. -/
def command : Nat → Reader Command
  | 0 => fail "Syntax error: script too long"
  | fuel + 1 => do
    let first ← peekWith (token fuel)
    let line := (← get).line
    let compound (read : Reader Command) : Reader Command := do
      drop
      let body ← read
      match ← redirects fuel with
      | [] => return body
      | all => return .redirected line body all
    match first with
    | .sign "(" =>
      compound do
        let body ← compoundList fuel
        expectClosing fuel true
        return .subshell line body
    | .redirect _ _ => simple fuel line [] [] []
    | .word w =>
      match literal? w with
      | some "\x7b" =>
        compound do
          let body ← compoundList fuel
          expectWord fuel "\x7d"
          return body
      | some "if" => compound (ifBody fuel)
      | some "while" => compound (loopBody fuel false)
      | some "until" => compound (loopBody fuel true)
      | some "for" => compound (forBody fuel line)
      | some "case" => compound (caseBody fuel line)
      | some s =>
        if keywords.contains s then unexpected true first none else simple fuel line [] [] []
      | none => simple fuel line [] [] []
    | token => unexpected true token none

/-- What follows `if` or `elif`, up to `fi`. -/
def ifBody : Nat → Reader Command
  | 0 => fail "Syntax error: script too long"
  | fuel + 1 => do
    let condition ← compoundList fuel
    expectWord fuel "then"
    let body ← compoundList fuel
    let token ← peekWith (token fuel)
    if isKeyword "elif" token then
      drop
      return .ifThen condition body (some (← ifBody fuel))
    else if isKeyword "else" token then
      drop
      let otherwise ← compoundList fuel
      expectWord fuel "fi"
      return .ifThen condition body (some otherwise)
    else
      expectWord fuel "fi"
      return .ifThen condition body none

/-- What follows `while` or `until`. -/
def loopBody : Nat → Bool → Reader Command
  | 0, _ => fail "Syntax error: script too long"
  | fuel + 1, negated => do
    let condition ← compoundList fuel
    let body ← doGroup fuel
    return .loop negated condition body

/-- Commands between `do` and `done`. -/
def doGroup : Nat → Reader Command
  | 0 => fail "Syntax error: script too long"
  | fuel + 1 => do
    expectWord fuel "do"
    let body ← compoundList fuel
    expectWord fuel "done"
    return body

/-- What follows `for`. Without `in` the loop goes over the arguments. -/
def forBody : Nat → Nat → Reader Command
  | 0, _ => fail "Syntax error: script too long"
  | fuel + 1, line => do
    match ← peekWith (token fuel) with
    | .word w =>
      match literal? w with
      | some name =>
        if !isName name then fail "Syntax error: Bad for loop variable"
        drop
        skipNewlines fuel
        let words ←
          if isKeyword "in" (← peekWith (token fuel)) then do
            drop
            let words ← wordList fuel
            match ← peekWith (token fuel) with
            | .newline | .sign ";" => drop
            | token => unexpected false token none
            pure words
          else do
            match ← peekWith (token fuel) with
            | .sign ";" => drop
            | _ => pure ()
            pure [[.parameter true "@" .keep []]]
        skipNewlines fuel
        let body ← doGroup fuel
        return .forEach line name words body
      | none => fail "Syntax error: Bad for loop variable"
    | _ => fail "Syntax error: Bad for loop variable"

/-- Words up to another token. -/
def wordList : Nat → Reader (List Word)
  | 0 => fail "Syntax error: script too long"
  | fuel + 1 => do
    match ← peekWith (token fuel) with
    | .word w =>
      drop
      return w :: (← wordList fuel)
    | _ => return []

/-- What follows `case`. -/
def caseBody : Nat → Nat → Reader Command
  | 0, _ => fail "Syntax error: script too long"
  | fuel + 1, line => do
    match ← peekWith (token fuel) with
    | .word w =>
      drop
      skipNewlines fuel
      expectWord fuel "in"
      let all ← clauses fuel
      return .caseOf line w all
    | token => unexpected false token (some "word")

/-- The clauses of a `case` up to `esac`. -/
def clauses : Nat → Reader (List (List Word × Option Command))
  | 0 => fail "Syntax error: script too long"
  | fuel + 1 => do
    skipNewlines fuel
    let first ← peekWith (token fuel)
    if isKeyword "esac" first then
      drop
      return []
    match first with
    | .sign "(" => drop
    | _ => pure ()
    let patterns ← patternList fuel
    expectClosing fuel false
    let inner ← body fuel
    let next ← peekWith (token fuel)
    if isSign ";;" next then
      drop
      return (patterns, inner.head?) :: (← clauses fuel)
    else
      if !isKeyword "esac" next then unexpected true next (some "\";;\"")
      drop
      return [(patterns, inner.head?)]

/-- The patterns of a clause. Whatever stands in the place of a pattern is taken; what is no word
matches nothing. -/
def patternList : Nat → Reader (List Word)
  | 0 => fail "Syntax error: script too long"
  | fuel + 1 => do
    let first ← peekWith (token fuel)
    drop
    let more ← match ← peekWith (token fuel) with
      | .sign "|" => do
        drop
        patternList fuel
      | _ => pure []
    match first with
    | .word w => return w :: more
    | _ => return more

/-- Redirections that follow one another. -/
def redirects : Nat → Reader (List Redirect)
  | 0 => fail "Syntax error: script too long"
  | fuel + 1 => do
    match ← peekWith (token fuel) with
    | .redirect descriptor s =>
      drop
      let one ← redirect fuel descriptor s
      return one :: (← redirects fuel)
    | _ => return []

/-- A redirection behind its sign. -/
def redirect : Nat → Option Nat → String → Reader Redirect
  | 0, _, _ => fail "Syntax error: script too long"
  | fuel + 1, descriptor, s => do
    match ← peekWith (token fuel) with
    | .word w =>
      drop
      let reading := descriptor.getD 0
      let writing := descriptor.getD 1
      match s with
      | "<" => return .path reading .input w
      | ">" => return .path writing .output w
      | ">|" => return .path writing .clobber w
      | ">>" => return .path writing .append w
      | "<>" => return .path reading .both w
      | "<&" => return .path reading .duplicate w
      | ">&" => return .path writing .duplicate w
      | _ =>
        let (delimiter, quoted) := delimiterText w
        let (text, line) ← takeHere (s = "<<-") delimiter
        if quoted then return .here reading [.quoted (String.ofList text)]
        else return .here reading (← within line text (parts fuel .here))
    | token => unexpected false token none

/-- A simple command of which some is read; the lists hold the last first. -/
def simple : Nat → Nat → List (String × Word) → List Word → List Redirect → Reader Command
  | 0, _, _, _, _ => fail "Syntax error: script too long"
  | fuel + 1, line, assignments, words, all => do
    match ← peekWith (token fuel) with
    | .word w =>
      drop
      match words, assignment? w with
      | [], some a => simple fuel line (a :: assignments) [] all
      | _, _ => simple fuel line assignments (w :: words) all
    | .redirect descriptor s =>
      drop
      let one ← redirect fuel descriptor s
      simple fuel line assignments words (one :: all)
    | .sign "(" =>
      match assignments, words, all with
      | [], [w], [] =>
        drop
        expectClosing fuel false
        match literal? w with
        | some name =>
          if !isName name then fail "Syntax error: Bad function name"
          skipNewlines fuel
          let body ← command fuel
          return .define line name body
        | none => fail "Syntax error: Bad function name"
      | _, _, _ => return .simple line assignments.reverse words.reverse all.reverse
    | _ => return .simple line assignments.reverse words.reverse all.reverse

end

/-- Fuel for all that a source holds. -/
def fuelFor (source : Source) : Nat := 8 * source.rest.length + 64

/-- The commands of the next line that has some, and whether the script ends behind them; nothing
if there is no such line. -/
def nextCommand : Reader (Option (Command × Bool)) := do
  let fuel := fuelFor (← get)
  skipNewlines fuel
  match ← peekWith (token fuel) with
  | .eof => return none
  | _ =>
    let command ← listLine fuel
    let atEnd := match (← get).ahead with
      | some .eof => true
      | _ => false
    return some (command, atEnd)

end Reader

end CommandSuite.Shell
