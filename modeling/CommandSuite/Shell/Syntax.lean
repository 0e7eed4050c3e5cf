/-!
# The syntax of scripts

A script is a list of commands. Words are made of parts, since what stands in quotes is kept apart
from what does not: only the latter is split into fields and matched against file names.
-/

namespace CommandSuite.Shell

/-- What is done with the value of a parameter. -/
inductive Change where
  /-- The value is taken as it is. -/
  | keep
  /-- The length of the value is taken. -/
  | length
  /-- A word is taken in the place of a value that is missing (or null, with `orNull`). -/
  | default (orNull : Bool)
  /-- The same, and the parameter gets the word as its value. -/
  | assign (orNull : Bool)
  /-- A missing value is an error, which the word describes. -/
  | require (orNull : Bool)
  /-- The word is taken in the place of a value that is there. -/
  | alternative (orNull : Bool)
  /-- What the pattern matches is cut off, at the start or at the end, as little or as much as
  possible. -/
  | cut (atEnd : Bool) (longest : Bool)
  /-- There is no such change; to take the value is an error. -/
  | bad
  deriving Repr, DecidableEq

/-- Where a redirection leads. -/
inductive Direction where
  | input
  | output
  /-- Output that `noclobber` does not keep off. -/
  | clobber
  | append
  | both
  /-- To where another descriptor leads. -/
  | duplicate
  deriving Repr, DecidableEq

mutual

/-- A part of a word. -/
inductive Part where
  /-- Characters outside quotes. -/
  | plain (s : String)
  /-- Characters in quotes, possibly none. -/
  | quoted (s : String)
  | parameter (quoted : Bool) (name : String) (change : Change) (word : List Part)
  /-- The output of commands. -/
  | commands (quoted : Bool) (body : List Command)
  | arithmetic (quoted : Bool) (expression : List Part)

/-- A redirection of a descriptor. -/
inductive Redirect where
  | path (descriptor : Nat) (direction : Direction) (word : List Part)
  /-- From a text in the script. -/
  | here (descriptor : Nat) (body : List Part)

/-- A command; line numbers are those that messages give. -/
inductive Command where
  | simple (line : Nat) (assignments : List (String × List Part)) (words : List (List Part))
      (redirects : List Redirect)
  | pipeline (commands : List Command)
  | negated (command : Command)
  | and (a b : Command)
  | or (a b : Command)
  | seq (a b : Command)
  | background (command : Command)
  /-- Commands in a process of their own. -/
  | subshell (line : Nat) (body : Command)
  | redirected (line : Nat) (command : Command) (redirects : List Redirect)
  | ifThen (condition body : Command) (otherwise : Option Command)
  /-- A loop that ends when its condition fails, or with `negated`, when it holds. -/
  | loop (negated : Bool) (condition body : Command)
  | forEach (line : Nat) (name : String) (words : List (List Part)) (body : Command)
  | caseOf (line : Nat) (word : List Part) (clauses : List (List (List Part) × Option Command))
  | define (line : Nat) (name : String) (body : Command)

end

instance : Inhabited Part := ⟨.plain ""⟩

instance : Inhabited Command := ⟨.simple 0 [] [] []⟩

/-- A word of a script. -/
abbrev Word := List Part

/-- The text of a word in which nothing is quoted and nothing stands for something else. -/
def literal? : Word → Option String
  | [] => some ""
  | .plain s :: parts => (literal? parts).map (s ++ ·)
  | _ :: _ => none

/-! ## Names -/

def isNameStart (c : Char) : Bool := c.isAlpha || c = '_'

def isNameChar (c : Char) : Bool := c.isAlphanum || c = '_'

def isName (s : String) : Bool :=
  match s.toList with
  | [] => false
  | c :: cs => isNameStart c && cs.all isNameChar

/-- The parameters with a name of one sign. -/
def isSpecial (c : Char) : Bool := "@*#?-$!".toList.contains c

end CommandSuite.Shell
