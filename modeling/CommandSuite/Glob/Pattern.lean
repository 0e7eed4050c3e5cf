import CommandSuite.Text.Split

/-!
# Glob patterns

A pattern is read into tokens: characters, `?`, `*`, classes in brackets, and `**`, which must be
a component of its own. Directly behind `[` or `[!` a `]` stands for itself.
-/

namespace CommandSuite.Glob

/-- What is wrong with a pattern. -/
inductive PatternFault where
  | tooManyStars
  | recursiveInComponent
  | openClass
  deriving Repr, DecidableEq

/-- A fault in a pattern, at a character of it. -/
structure PatternError where
  fault : PatternFault
  pos : Nat
  deriving Repr, DecidableEq

/-- The text that reports the error. -/
def PatternError.message (e : PatternError) : String :=
  let what := match e.fault with
    | .tooManyStars => "wildcards are either regular `*` or recursive `**`"
    | .recursiveInComponent => "recursive wildcards must form a single path component"
    | .openClass => "invalid range pattern"
  "Pattern syntax error near position " ++ toString e.pos ++ ": " ++ what

/-- A part of a pattern. -/
inductive Token where
  | char (c : Char)
  | anyChar
  /-- Any number of characters. -/
  | anySequence
  /-- Any number of directories. -/
  | recursive
  /-- A character in one of the ranges, or in none of them. -/
  | class (negated : Bool) (ranges : List (Char × Char))
  deriving Repr, DecidableEq

/-- The ranges of a class; a single character is a range of its own. -/
def classRanges : List Char → List (Char × Char)
  | a :: '-' :: b :: cs => (a, b) :: classRanges cs
  | a :: cs => (a, a) :: classRanges cs
  | [] => []

/-- The inside of a class, of at least one character, and what follows its bracket. -/
def readClass : List Char → Option (List Char × List Char)
  | [] => none
  | c :: cs =>
    match cs.span (· ≠ ']') with
    | (inner, _ :: rest) => some (c :: inner, rest)
    | (_, []) => none

/-- The tokens of the characters from `pos` on, of which the one before is given. Every token
takes a character, so as much fuel as there are characters is enough. -/
def readTokens : Nat → Option Char → Nat → List Char → Except PatternError (List Token)
  | 0, _, _, _ => .ok []
  | _, _, _, [] => .ok []
  | fuel + 1, before, pos, c :: cs =>
    if c = '?' then return .anyChar :: (← readTokens fuel (some c) (pos + 1) cs)
    else if c = '*' then
      match (cs.takeWhile (· = '*')).length with
      | 0 => return .anySequence :: (← readTokens fuel (some c) (pos + 1) cs)
      | 1 =>
        if before = none || before = some '/' then
          match cs.drop 1 with
          | [] => return [.recursive]
          | d :: rest =>
            if d = '/' then return .recursive :: (← readTokens fuel (some '/') (pos + 3) rest)
            else .error ⟨.recursiveInComponent, pos + 2⟩
        else .error ⟨.recursiveInComponent, pos - 1⟩
      | _ => .error ⟨.tooManyStars, pos + 2⟩
    else if c = '[' then
      let negated := cs.head? = some '!'
      match readClass (if negated then cs.tail else cs) with
      | some (inner, rest) =>
        return .class negated (classRanges inner)
          :: (← readTokens fuel (some ']') (pos + (c :: cs).length - rest.length) rest)
      | none => .error ⟨.openClass, pos⟩
    else return .char c :: (← readTokens fuel (some c) (pos + 1) cs)

/-- The tokens of a pattern. -/
def tokens (pattern : List Char) : Except PatternError (List Token) :=
  readTokens pattern.length none 0 pattern

namespace Token

/-- Whether the token stands for the character. -/
def accepts (token : Token) (c : Char) : Bool :=
  match token with
  | .char d => c = d
  | .anyChar => true
  | .class negated ranges => (ranges.any fun r => r.1 ≤ c && c ≤ r.2) != negated
  | .anySequence | .recursive => false

end Token

/-- Whether some end of a text passes the test. -/
def someEnd (test : List Char → Bool) : List Char → Bool
  | [] => test []
  | c :: cs => test (c :: cs) || someEnd test cs

/-- Whether the tokens stand for the whole name. -/
def acceptsName : List Token → List Char → Bool
  | [], cs => cs.isEmpty
  | .anySequence :: ts, cs => someEnd (acceptsName ts) cs
  | .recursive :: ts, cs => someEnd (acceptsName ts) cs
  | _ :: _, [] => false
  | t :: ts, c :: cs => t.accepts c && acceptsName ts cs

/-- A component of a pattern. -/
inductive ComponentPattern where
  /-- A component without wildcards. -/
  | literal (name : String)
  | wild (tokens : List Token)
  /-- Any number of directories. -/
  | recursive
  deriving Repr, DecidableEq

namespace ComponentPattern

/-- The characters of tokens that are nothing else. -/
def literalChars? : List Token → Option (List Char)
  | [] => some []
  | .char c :: ts => (literalChars? ts).map (c :: ·)
  | _ :: _ => none

def ofTokens (ts : List Token) : ComponentPattern :=
  if ts.contains .recursive then recursive
  else
    match literalChars? ts with
    | some cs => literal (String.ofList cs)
    | none => wild ts

/-- Whether a name, and not `.` or `..`, is meant by the component. -/
def accepts (p : ComponentPattern) (name : String) : Bool :=
  match p with
  | literal s => s = name
  | wild ts => acceptsName ts name.toList
  | recursive => true

/-- Whether the component is a wildcard behind a dot: only such may mean `.` and `..`. -/
def startsWithDot : ComponentPattern → Bool
  | wild (.char '.' :: _) => true
  | _ => false

end ComponentPattern

/-- A pattern for paths. -/
structure PathPattern where
  absolute : Bool
  /-- Whether only directories are meant. -/
  directoriesOnly : Bool
  components : List ComponentPattern
  deriving Repr, DecidableEq

/-- Components with each run of recursive ones made one. -/
def mergeRecursive : List ComponentPattern → List ComponentPattern
  | [] => []
  | p :: ps =>
    if p = .recursive && ps.head? = some .recursive then mergeRecursive ps
    else p :: mergeRecursive ps

/-- Pieces without an empty one at the end. -/
def dropLastEmpty (pieces : List (List Char)) : List (List Char) :=
  if pieces.getLast? = some [] then pieces.dropLast else pieces

/-- The pattern of a text. The text must be a pattern as a whole, and each component by itself. -/
def PathPattern.ofText (s : String) : Except PatternError PathPattern := do
  let cs := s.toList
  let _ ← tokens cs
  let absolute := cs.head? = some '/'
  let inner := if absolute then cs.tail else cs
  let parts ← (dropLastEmpty (Text.splitOn '/' inner)).mapM tokens
  let components := if inner.isEmpty then [.literal ""] else parts.map ComponentPattern.ofTokens
  return { absolute
           directoriesOnly := cs.getLast? = some '/'
           components := mergeRecursive components }

end CommandSuite.Glob
