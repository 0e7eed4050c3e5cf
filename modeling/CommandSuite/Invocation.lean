import CommandSuite.Text.Quoted

/-!
# Invocations

An invocation says how a process is started: directly, from a program and its arguments, or as a
script that the shell runs. `words` is the argument vector of the process, `display` the line one
would type for it.
-/

namespace CommandSuite

/-- How a process is started. -/
inductive Invocation where
  /-- A program with an argument vector; no shell is involved. -/
  | direct (program : String) (arguments : List String)
  /-- A script run by `sh -c`, with variables added to its environment. -/
  | script (text : String) (environment : List (String × String))
  deriving Repr, DecidableEq

namespace Invocation

/-- The program that runs scripts. -/
def shell : String := "sh"

/-- The program and the arguments it is started with. -/
def words : Invocation → List String
  | direct program arguments => program :: arguments
  | script text _ => [shell, "-c", text]

theorem words_ne_nil (invocation : Invocation) : invocation.words ≠ [] := by
  cases invocation <;> exact List.cons_ne_nil _ _

/-- The invocation as one would type it. -/
def display (invocation : Invocation) : String := Text.commandLine invocation.words

end Invocation

end CommandSuite
