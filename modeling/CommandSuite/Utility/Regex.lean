import CommandSuite.Text.Numeral

/-!
# Regular expressions

Expressions over bytes, in the basic and the extended notation. `Regex.ends` gives every way in
which an expression can match from a place on, `Regex.search?` the leftmost match, and of those
that start there the longest.
-/

namespace CommandSuite

/-- A regular expression. -/
inductive Regex where
  | empty
  | any
  /-- A character in one of the ranges, or in none of them. -/
  | set (negated : Bool) (ranges : List (Char × Char))
  | lineStart
  | lineEnd
  | seq (a b : Regex)
  | alt (a b : Regex)
  /-- As many times as lie between the bounds. -/
  | repeat (least : Nat) (most : Option Nat) (r : Regex)
  | group (number : Nat) (r : Regex)
  /-- What a group has matched. -/
  | again (number : Nat)
  deriving Repr, Inhabited

namespace Regex

/-- A place in a line, and what the groups have matched on the way there. -/
structure Place where
  atStart : Bool
  rest : List Char
  groups : List (Nat × List Char) := []

def Place.advance (place : Place) (count : Nat) : Place :=
  if count = 0 then place
  else { place with atStart := false, rest := place.rest.drop count }

/-- The places to which repeating a step leads. A repetition that moves nowhere is not
repeated. -/
def repeatStep (step : Place → List Place) : Nat → Nat → Option Nat → Place → List Place
  | 0, least, _, place => if least = 0 then [place] else []
  | fuel + 1, least, most, place =>
    let stop := if least = 0 then [place] else []
    if most = some 0 then stop
    else
      let next := (step place).filter fun p => 0 < least || p.rest.length < place.rest.length
      next.flatMap (repeatStep step fuel (least - 1) (most.map (· - 1))) ++ stop

/-- The places to which a match from a place can lead. -/
def ends : Regex → Place → List Place
  | empty, place => [place]
  | any, place => if place.rest.isEmpty then [] else [place.advance 1]
  | set negated ranges, place =>
    match place.rest with
    | [] => []
    | c :: _ =>
      if (ranges.any fun r => r.1 ≤ c && c ≤ r.2) != negated then [place.advance 1] else []
  | lineStart, place => if place.atStart then [place] else []
  | lineEnd, place => if place.rest.isEmpty then [place] else []
  | seq a b, place => (ends a place).flatMap (ends b)
  | alt a b, place => ends a place ++ ends b place
  | .repeat least most r, place =>
    repeatStep (ends r) (place.rest.length + least + 1) least most place
  | group number r, place =>
    (ends r place).map fun p =>
      let matched := place.rest.take (place.rest.length - p.rest.length)
      { p with groups := (number, matched) :: p.groups.filter (·.1 ≠ number) }
  | again number, place =>
    match place.groups.lookup number with
    | some matched => if matched.isPrefixOf place.rest then [place.advance matched.length] else []
    | none => []

/-- The longest match from a place on: where it leads. -/
def longest? (r : Regex) (place : Place) : Option Place :=
  (r.ends place).foldl (fun best p =>
    match best with
    | some b => if p.rest.length < b.rest.length then some p else some b
    | none => some p) none

/-- A match in a line. -/
structure Match where
  before : List Char
  matched : List Char
  place : Place

/-- The leftmost match, the longest of those; `before` is what was passed over. -/
def searchFrom (r : Regex) (atStart : Bool) (before : List Char) : List Char → Option Match
  | [] =>
    (r.longest? { atStart, rest := [] }).map fun place =>
      { before := before.reverse, matched := [], place }
  | c :: cs =>
    match r.longest? { atStart, rest := c :: cs } with
    | some place =>
      some { before := before.reverse
             matched := (c :: cs).take ((c :: cs).length - place.rest.length)
             place }
    | none => searchFrom r false (c :: before) cs

def search? (r : Regex) (line : List Char) : Option Match := r.searchFrom true [] line

/-! ## Notation -/

/-- The named classes of characters. -/
def namedClass : String → List (Char × Char)
  | "alpha" => [('a', 'z'), ('A', 'Z')]
  | "digit" => [('0', '9')]
  | "alnum" => [('a', 'z'), ('A', 'Z'), ('0', '9')]
  | "upper" => [('A', 'Z')]
  | "lower" => [('a', 'z')]
  | "space" => [('\t', '\r'), (' ', ' ')]
  | "blank" => [('\t', '\t'), (' ', ' ')]
  | "punct" => [('!', '/'), (':', '@'), ('[', '\x60'), ('\x7b', '~')]
  | "print" => [(' ', '~')]
  | "graph" => [('!', '~')]
  | "cntrl" => [('\x00', '\x1f'), ('\x7f', '\x7f')]
  | "xdigit" => [('0', '9'), ('a', 'f'), ('A', 'F')]
  | _ => []

/-- The ranges of a class up to its bracket, and what follows. Fuel is the number of
characters. -/
def readRanges : Nat → List Char → Option (List (Char × Char) × List Char)
  | 0, _ | _, [] => none
  | fuel + 1, '[' :: ':' :: cs =>
    let name := cs.takeWhile (· ≠ ':')
    match cs.drop name.length with
    | ':' :: ']' :: ']' :: rest => some (namedClass (String.ofList name), rest)
    | ':' :: ']' :: rest => do
      let (ranges, rest) ← readRanges fuel rest
      return (namedClass (String.ofList name) ++ ranges, rest)
    | _ => none
  | fuel + 1, a :: cs => do
    let (range, rest) := match cs with
      | '-' :: b :: rest => if b = ']' then ((a, a), cs) else ((a, b), rest)
      | _ => ((a, a), cs)
    match rest with
    | ']' :: rest => return ([range], rest)
    | _ =>
      let (ranges, rest) ← readRanges fuel rest
      return (range :: ranges, rest)

/-- A class behind its bracket, and what follows it. -/
def readSet (cs : List Char) : Option (Regex × List Char) := do
  let (negated, cs) := match cs with
    | '^' :: cs => (true, cs)
    | cs => (false, cs)
  let (ranges, rest) ← readRanges (cs.length + 1) cs
  return (set negated ranges, rest)

/-- The bounds of a repetition behind their brace, up to the closing characters. -/
def readBounds (closing : List Char) (cs : List Char) : Option (Nat × Option Nat × List Char) :=
  let low := cs.takeWhile (Text.isDigitOf 10)
  let rest := cs.drop low.length
  let least := Text.ofDigits 10 low
  let (most, rest) := match rest with
    | ',' :: rest =>
      let high := rest.takeWhile (Text.isDigitOf 10)
      (if high.isEmpty then none else some (Text.ofDigits 10 high), rest.drop high.length)
    | rest => (some least, rest)
  if closing.isPrefixOf rest then some (least, most, rest.drop closing.length) else none

/-- A sign of the notation. -/
inductive Sign where
  | char (c : Char)
  | any
  | set (r : Regex)
  | star
  | plus
  | optional
  | bounds (least : Nat) (most : Option Nat)
  | opening
  | closing
  | bar
  | caret
  | dollar
  | again (number : Nat)

/-- The sign at the start of an expression, and what follows it. In the extended notation the
signs stand by themselves and a backslash takes their meaning, in the basic one it is the other
way round for most. -/
def readSign (extended : Bool) : List Char → Option (Sign × List Char)
  | [] => none
  | '\\' :: c :: cs =>
    if Text.isDigitOf 10 c && c ≠ '0' then some (.again (c.toNat - '0'.toNat), cs)
    else if extended then some (.char c, cs)
    else
      match c with
      | '(' => some (.opening, cs)
      | ')' => some (.closing, cs)
      | '|' => some (.bar, cs)
      | '+' => some (.plus, cs)
      | '?' => some (.optional, cs)
      | '\x7b' => (readBounds ['\\', '\x7d'] cs).map fun (least, most, rest) =>
        (.bounds least most, rest)
      | 'n' => some (.char '\n', cs)
      | _ => some (.char c, cs)
  | '[' :: cs => (readSet cs).map fun (r, rest) => (.set r, rest)
  | '.' :: cs => some (.any, cs)
  | '*' :: cs => some (.star, cs)
  | '^' :: cs => some (.caret, cs)
  | '$' :: cs => some (.dollar, cs)
  | c :: cs =>
    if !extended then some (.char c, cs)
    else
      match c with
      | '(' => some (.opening, cs)
      | ')' => some (.closing, cs)
      | '|' => some (.bar, cs)
      | '+' => some (.plus, cs)
      | '?' => some (.optional, cs)
      | '\x7b' => some (match readBounds ['\x7d'] cs with
        | some (least, most, rest) => (.bounds least most, rest)
        | none => (.char c, cs))
      | _ => some (.char c, cs)

/-- The signs of an expression. Fuel is the number of characters. -/
def readSigns (extended : Bool) : Nat → List Char → Option (List Sign)
  | _, [] => some []
  | 0, _ => none
  | fuel + 1, cs => do
    let (sign, rest) ← readSign extended cs
    return sign :: (← readSigns extended fuel rest)

/-- An expression under reading: the alternatives before, what comes before the last piece, and
the last piece. -/
structure Reading where
  alternatives : Option Regex := none
  before : Regex := empty
  last : Option Regex := none

namespace Reading

/-- What was read of the present alternative. -/
def sequence (reading : Reading) : Regex :=
  match reading.last with
  | some r => seq reading.before r
  | none => reading.before

def whole (reading : Reading) : Regex :=
  match reading.alternatives with
  | some a => alt a reading.sequence
  | none => reading.sequence

def push (reading : Reading) (r : Regex) : Reading :=
  { reading with before := reading.sequence, last := some r }

/-- Repeats the last piece; at the start the sign is a character. -/
def again (reading : Reading) (sign : Char) (least : Nat) (most : Option Nat) : Reading :=
  match reading.last with
  | some r => { reading with last := some (.repeat least most r) }
  | none => reading.push (set false [(sign, sign)])

end Reading

/-- Reads signs into the innermost open group; the groups around it are given with their
numbers. -/
def ofSigns (extended : Bool) (count : Nat) (around : List (Nat × Reading)) (reading : Reading) :
    List Sign → Option Regex
  | [] => if around.isEmpty then some reading.whole else none
  | sign :: signs =>
    let go := fun reading => ofSigns extended count around reading signs
    match sign with
    | .char c => go (reading.push (set false [(c, c)]))
    | .any => go (reading.push any)
    | .set r => go (reading.push r)
    | .again n => go (reading.push (again n))
    | .star => go (reading.again '*' 0 none)
    | .plus => go (reading.again '+' 1 none)
    | .optional => go (reading.again '?' 0 (some 1))
    | .bounds least most => go (reading.again '\x7b' least most)
    | .bar => go { alternatives := some reading.whole }
    | .caret =>
      let first :=
        reading.last.isNone && (match reading.before with | .empty => true | _ => false)
      if extended || first then go { reading with before := seq reading.before lineStart }
      else go (reading.push (set false [('^', '^')]))
    | .dollar =>
      let last := match signs with
        | [] | .closing :: _ | .bar :: _ => true
        | _ => false
      if extended || last then go (reading.push lineEnd)
      else go (reading.push (set false [('$', '$')]))
    | .opening => ofSigns extended (count + 1) ((count + 1, reading) :: around) {} signs
    | .closing =>
      match around with
      | (number, outer) :: around =>
        ofSigns extended count around (outer.push (group number reading.whole)) signs
      | [] => if extended then go (reading.push (set false [(')', ')')])) else none

/-- The expression of a text. -/
def ofText? (extended : Bool) (s : String) : Option Regex := do
  ofSigns extended 0 [] {} (← readSigns extended s.length s.toList)

/-- The expression that stands for a text as it is. -/
def literal (s : String) : Regex :=
  s.toList.foldl (fun r c => seq r (set false [(c, c)])) empty

/-- Whether the expression has a group. -/
def hasGroup : Regex → Bool
  | group _ _ => true
  | seq a b | alt a b => a.hasGroup || b.hasGroup
  | .repeat _ _ r => r.hasGroup
  | _ => false

/-- The expression that takes no notice of the case of letters. -/
def foldCase : Regex → Regex
  | set negated ranges =>
    let both (r : Char × Char) : List (Char × Char) :=
      [r, (r.1.toLower, r.2.toLower), (r.1.toUpper, r.2.toUpper)]
    set negated (ranges.flatMap both)
  | seq a b => seq a.foldCase b.foldCase
  | alt a b => alt a.foldCase b.foldCase
  | .repeat least most r => .repeat least most r.foldCase
  | group number r => group number r.foldCase
  | r => r

end Regex

end CommandSuite
