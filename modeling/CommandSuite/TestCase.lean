import CommandSuite.Invocation

/-!
# Test cases

A test case is a named invocation and the text that its output must contain.
-/

namespace CommandSuite

/-- A named invocation and the text that its output must contain. -/
structure TestCase where
  name : String
  description : Option String
  invocation : Invocation
  expected : String
  deriving Repr, DecidableEq

namespace TestCase

/-- The command as one would type it. -/
def commandLine (c : TestCase) : String := c.invocation.display

/-- The name, with the description if there is one. -/
def label (c : TestCase) : String :=
  match c.description with
  | some description => c.name ++ " - " ++ description
  | none => c.name

end TestCase

end CommandSuite
