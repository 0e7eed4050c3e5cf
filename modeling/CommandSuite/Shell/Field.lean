import CommandSuite.Glob.Pattern
import CommandSuite.Utility.Regex
import CommandSuite.Machine.Process

/-!
# Fields

What a word stands for is first a row of glyphs, which remember whether they were quoted and
whether they came out of an expansion. `fields` cuts such a row into fields, `pathnames` puts the
names of files for a field that is a pattern.
-/

namespace CommandSuite.Shell

/-- A piece of what a word stands for. -/
inductive Glyph where
  /-- A character; `splits` tells that separators among such characters part fields. -/
  | char (c : Char) (quoted splits : Bool)
  /-- Something quoted that is empty; it makes a field all the same. -/
  | mark
  /-- The end of a field. -/
  | cut
  deriving Repr, DecidableEq

/-- A character, and whether it was quoted. -/
abbrev FieldChar := Char × Bool

namespace Glyph

/-- The glyphs of a text that came out of an expansion. -/
def ofValue (quoted : Bool) (s : String) : List Glyph :=
  if quoted then
    if s.isEmpty then [mark] else s.toList.map fun c => char c true false
  else s.toList.map fun c => char c false true

/-- The glyphs of several texts, each a field of its own. -/
def ofValues (quoted : Bool) : List String → List Glyph
  | [] => []
  | [s] => ofValue quoted s
  | s :: rest => ofValue quoted s ++ cut :: ofValues quoted rest

/-- The glyph as one that came out of an expansion. -/
def split : Glyph → Glyph
  | char c quoted splits => char c quoted (splits || !quoted)
  | g => g

/-- The characters of glyphs that are not cut into fields. -/
def chars (glyphs : List Glyph) : List FieldChar :=
  glyphs.filterMap fun
    | char c quoted _ => some (c, quoted)
    | cut => some (' ', true)
    | mark => none

/-- The text of glyphs that are not cut into fields. -/
def text (glyphs : List Glyph) : String := String.ofList ((chars glyphs).map Prod.fst)

end Glyph

/-! ## Separation -/

/-- The separators of fields when nothing else is said. -/
def defaultSeparators : String := " \t\n"

def isSeparatorSpace (c : Char) : Bool := defaultSeparators.toList.contains c

/-- How far a field has come, latest character first, and whether blanks were just passed behind a
field, so that one more separator would belong to them. -/
structure FieldState where
  field : Option (List FieldChar) := none
  afterSpace : Bool := false

/-- The fields of glyphs. A blank separator ends a field that has begun, another separator also
ends one that is empty. -/
def fieldsFrom (separators : List Char) : FieldState → List Glyph → List (List FieldChar)
  | state, [] => (state.field.map List.reverse).toList
  | state, .mark :: glyphs =>
    fieldsFrom separators { field := some (state.field.getD []) } glyphs
  | state, .cut :: glyphs =>
    (state.field.map List.reverse).toList ++ fieldsFrom separators {} glyphs
  | state, .char c quoted splits :: glyphs =>
    if splits && separators.contains c then
      if isSeparatorSpace c then
        match state.field with
        | some field => field.reverse :: fieldsFrom separators { afterSpace := true } glyphs
        | none => fieldsFrom separators state glyphs
      else
        match state.field with
        | some field => field.reverse :: fieldsFrom separators {} glyphs
        | none =>
          if state.afterSpace then fieldsFrom separators {} glyphs
          else [] :: fieldsFrom separators {} glyphs
    else fieldsFrom separators { field := some ((c, quoted) :: state.field.getD []) } glyphs

def fields (separators : String) (glyphs : List Glyph) : List (List FieldChar) :=
  fieldsFrom separators.toList {} glyphs

/-! ## Patterns -/

/-- The ranges of a class up to its bracket, and what follows. The first character is one even if
it is a bracket. Fuel is the number of characters. -/
def readClassRanges : Nat → Bool → List FieldChar → Option (List (Char × Char) × List FieldChar)
  | 0, _, _ | _, _, [] => none
  | fuel + 1, first, (c, quoted) :: cs =>
    if c = ']' && !quoted && !first then some ([], cs)
    else if c = '[' && !quoted && (cs.head?.map Prod.fst) = some ':' then
      let name := (cs.drop 1).takeWhile fun d => d.1 ≠ ':'
      match cs.drop (1 + name.length) with
      | (':', _) :: (']', _) :: rest => do
        let (ranges, rest) ← readClassRanges fuel false rest
        return (Regex.namedClass (String.ofList (name.map Prod.fst)) ++ ranges, rest)
      | _ => do
        let (ranges, rest) ← readClassRanges fuel false cs
        return ((c, c) :: ranges, rest)
    else
      match cs with
      | ('-', false) :: (d, q) :: rest => do
        if d = ']' && !q then
          let (ranges, rest) ← readClassRanges fuel false cs
          return ((c, c) :: ranges, rest)
        else
          let (ranges, rest) ← readClassRanges fuel false rest
          return ((c, d) :: ranges, rest)
      | _ => do
        let (ranges, rest) ← readClassRanges fuel false cs
        return ((c, c) :: ranges, rest)

/-- The tokens of a pattern: only what is not quoted is a wildcard. Fuel is the number of
characters. -/
def patternFrom : Nat → List FieldChar → List Glob.Token
  | 0, _ | _, [] => []
  | fuel + 1, (c, quoted) :: cs =>
    if quoted then .char c :: patternFrom fuel cs
    else if c = '*' then .anySequence :: patternFrom fuel cs
    else if c = '?' then .anyChar :: patternFrom fuel cs
    else if c = '\\' then
      match cs with
      | (d, _) :: cs => .char d :: patternFrom fuel cs
      | [] => [.char c]
    else if c = '[' then
      let negated := cs.head? = some ('!', false) || cs.head? = some ('^', false)
      match readClassRanges (cs.length + 1) true (if negated then cs.tail else cs) with
      | some (ranges, rest) => .class negated ranges :: patternFrom fuel rest
      | none => .char c :: patternFrom fuel cs
    else .char c :: patternFrom fuel cs

def pattern (field : List FieldChar) : List Glob.Token := patternFrom field.length field

/-- What is left of a value when what a pattern matches is cut off. -/
def cutMatch (atEnd longest : Bool) (tokens : List Glob.Token) (s : String) : String :=
  let cs := s.toList
  let upwards := List.range (cs.length + 1)
  let counts := if longest then upwards.reverse else upwards
  let parts (n : Nat) : List Char × List Char :=
    if atEnd then (cs.drop (cs.length - n), cs.take (cs.length - n)) else (cs.take n, cs.drop n)
  match counts.find? fun n => Glob.acceptsName tokens (parts n).1 with
  | some n => String.ofList (parts n).2
  | none => s

/-! ## Names of files -/

def isWild (field : List FieldChar) : Bool :=
  field.any fun (c, quoted) => !quoted && (c = '*' || c = '?' || c = '[')

/-- The text of a field. -/
def fieldText (field : List FieldChar) : String := String.ofList (field.map Prod.fst)

/-- The components of a field between its slashes. -/
def components : List FieldChar → List (List FieldChar)
  | [] => [[]]
  | (c, quoted) :: cs =>
    if c = '/' then [] :: components cs
    else
      match components cs with
      | first :: rest => ((c, quoted) :: first) :: rest
      | [] => [[(c, quoted)]]

/-- The names in a directory that a pattern matches; one that starts with a dot must be matched by
a dot. -/
def matchingNames (tree : FileTree) (dir : String) (tokens : List Glob.Token) : List String :=
  match tree.node? (Text.ofByteText (if dir.isEmpty then "." else dir)) with
  | some (.directory entries) =>
    let names := "." :: ".." :: entries.map fun e => Text.byteText e.1
    names.filter fun name =>
      Glob.acceptsName tokens name.toList
        && (!name.startsWith "." || tokens.head? = some (.char '.'))
  | _ => []

/-- The paths that components of a pattern match behind a path. -/
def matchingPaths (tree : FileTree) : String → List (List FieldChar) → List String
  | path, [] => if (tree.node? (Text.ofByteText path)).isSome then [path] else []
  | path, part :: rest =>
    let separator := if rest.isEmpty then "" else "/"
    if isWild part then
      (matchingNames tree path (pattern part)).flatMap fun name =>
        let found := path ++ name ++ separator
        matchingPaths tree found rest
    else matchingPaths tree (path ++ fieldText part ++ separator) rest

/-- The names of files for a field that is a pattern and matches some, or else its text. -/
def pathnames (tree : FileTree) (field : List FieldChar) : List String :=
  if isWild field then
    match (matchingPaths tree "" (components field)).mergeSort (· ≤ ·) with
    | [] => [fieldText field]
    | found => found
  else [fieldText field]

end CommandSuite.Shell
