import CommandSuite.Config
import CommandSuite.Text.Blank

/-!
# Entries of a suite

An entry is a case as a suite file writes it, before it is known to make sense. It makes a case if
it has exactly one of an argument list and a script, the script not being blank, and an expected
output; else it has problems, all of which are told at once.
-/

namespace CommandSuite

/-- A case as a suite file writes it. -/
structure Entry where
  description : Option String := none
  arguments : Option (List String) := none
  shell : Option String := none
  expectedOutput : Option String := none
  deriving Repr, DecidableEq

/-- Why an entry makes no case. -/
inductive Problem where
  | invocationRequired
  | conflictingInvocations
  | emptyScript
  | expectationRequired
  deriving Repr, DecidableEq

/-- The text that reports the problem. -/
def Problem.message : Problem → String
  | invocationRequired => "Either 'arguments' or 'shell' is required"
  | conflictingInvocations => "Only one of 'arguments' and 'shell' may be given"
  | emptyScript => "The field 'shell' must not be empty"
  | expectationRequired => "The field 'expected_output' is required"

namespace Entry

/-- The invocation that an entry asks for, if it asks for one, and what is wrong with its form. -/
def invocation (config : Config) (entry : Entry) : Option Invocation × List Problem :=
  match entry.arguments, entry.shell with
  | some arguments, none => (some (config.compilerInvocation arguments), [])
  | none, some script =>
    if Text.isBlank script then (none, [.emptyScript])
    else (some (config.scriptInvocation script), [])
  | some _, some _ => (none, [.conflictingInvocations])
  | none, none => (none, [.invocationRequired])

/-- All problems of an entry, in the order of `Problem`. -/
def problems (config : Config) (entry : Entry) : List Problem :=
  (entry.invocation config).2
    ++ if entry.expectedOutput.isNone then [.expectationRequired] else []

/-- The case that an entry makes, or its problems. -/
def toCase (config : Config) (name : String) (entry : Entry) : Except (List Problem) TestCase :=
  let problems := entry.problems config
  match (entry.invocation config).1, entry.expectedOutput with
  | some invocation, some expected =>
    if problems.isEmpty then .ok { name, description := entry.description, invocation, expected }
    else .error problems
  | _, _ => .error problems

end Entry

/-! ## Named entries -/

/-- Entries by name, in the order of the names: the list with one more entry, or with the entry in
the place of the one of its name. -/
def putEntry (name : String) (entry : Entry) : List (String × Entry) → List (String × Entry)
  | [] => [(name, entry)]
  | (n, e) :: rest =>
    if name < n then (name, entry) :: (n, e) :: rest
    else if name = n then (name, entry) :: rest
    else (n, e) :: putEntry name entry rest

theorem mem_putEntry {name : String} {entry : Entry} {entries : List (String × Entry)}
    {p : String × Entry} (h : p ∈ putEntry name entry entries) : p.1 = name ∨ p ∈ entries := by
  induction entries with
  | nil => simp_all [putEntry]
  | cons q rest ih =>
    obtain ⟨n, e⟩ := q
    simp only [putEntry] at h
    split at h
    · rcases List.mem_cons.1 h with rfl | h <;> simp_all
    · split at h
      · rcases List.mem_cons.1 h with rfl | h <;> simp_all
      · rcases List.mem_cons.1 h with rfl | h
        · simp
        · rcases ih h with h | h <;> simp [h]

theorem pairwise_putEntry {name : String} {entry : Entry} {entries : List (String × Entry)}
    (sorted : entries.Pairwise (·.1 < ·.1)) :
    (putEntry name entry entries).Pairwise (·.1 < ·.1) := by
  induction entries with
  | nil => simp [putEntry]
  | cons q rest ih =>
    obtain ⟨n, e⟩ := q
    obtain ⟨below, tail⟩ := List.pairwise_cons.1 sorted
    simp only [putEntry]
    split
    case isTrue less =>
      refine List.pairwise_cons.2 ⟨fun p hp => ?_, sorted⟩
      rcases List.mem_cons.1 hp with rfl | hp
      · exact less
      · exact String.lt_trans less (below p hp)
    case isFalse notLess =>
      split
      case isTrue same => subst same; exact List.pairwise_cons.2 ⟨below, tail⟩
      case isFalse other =>
        refine List.pairwise_cons.2 ⟨fun p hp => ?_, ih tail⟩
        rcases mem_putEntry hp with h | hp
        · rw [h]
          exact Classical.byContradiction fun notGreater =>
            other (String.le_antisymm (String.not_lt.1 notGreater) (String.not_lt.1 notLess))
        · exact below p hp

/-- The entries of a suite file: one for each name, in the order of the names. -/
structure Suite where
  entries : List (String × Entry)
  sorted : entries.Pairwise (·.1 < ·.1)

namespace Suite

/-- A suite without entries. -/
def empty : Suite := ⟨[], .nil⟩

/-- The suite with one more entry, or with the entry in the place of the one of its name. -/
def put (suite : Suite) (name : String) (entry : Entry) : Suite :=
  ⟨putEntry name entry suite.entries, pairwise_putEntry suite.sorted⟩

/-- Each name with the case that its entry makes, or with its problems. -/
def results (config : Config) (suite : Suite) :
    List (String × Except (List Problem) TestCase) :=
  suite.entries.map fun (name, entry) => (name, entry.toCase config name)

/-- The entries that make no case, with their problems. -/
def problems (config : Config) (suite : Suite) : List (String × List Problem) :=
  (suite.results config).filterMap fun
    | (name, .error problems) => some (name, problems)
    | (_, .ok _) => none

/-- The cases of a suite, or the problems of all entries that make none. -/
def cases (config : Config) (suite : Suite) :
    Except (List (String × List Problem)) (List TestCase) :=
  let problems := suite.problems config
  if problems.isEmpty then
    .ok <| (suite.results config).filterMap fun
      | (_, .ok c) => some c
      | (_, .error _) => none
  else .error problems

end Suite

end CommandSuite
