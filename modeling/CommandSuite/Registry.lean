import CommandSuite.Config
import CommandSuite.Outcome

/-!
# Registries

A registry holds the cases of one run, in the order in which their names came first. A case of a
name that is taken replaces the one there, in its place, so no two cases have one name.
-/

namespace CommandSuite

/-- Cases by name: the case whose name `c` takes, if there is one, and the list with `c` in its
place or at the end. -/
def putCase (c : TestCase) : List TestCase → Option TestCase × List TestCase
  | [] => (none, [c])
  | d :: ds => if d.name = c.name then (some d, c :: ds) else (putCase c ds).map id (d :: ·)

theorem mem_names_putCase (c : TestCase) (cases : List TestCase) (name : String) :
    name ∈ (putCase c cases).2.map TestCase.name ↔
      name = c.name ∨ name ∈ cases.map TestCase.name := by
  induction cases with
  | nil => simp [putCase]
  | cons d ds ih => by_cases h : d.name = c.name <;> grind [putCase]

theorem nodup_names_putCase {c : TestCase} {cases : List TestCase}
    (distinct : (cases.map TestCase.name).Nodup) :
    ((putCase c cases).2.map TestCase.name).Nodup := by
  induction cases with
  | nil => simp [putCase]
  | cons d ds ih =>
    have := mem_names_putCase c ds d.name
    by_cases h : d.name = c.name <;> simp_all [putCase]

/-- Cases under distinct names, and the configuration that they are bound to. -/
structure Registry where
  config : Config
  cases : List TestCase
  distinct : (cases.map TestCase.name).Nodup

namespace Registry

/-- A registry without cases. -/
def empty (config : Config) : Registry := ⟨config, [], by simp⟩

/-- The case of a name. -/
def get? (registry : Registry) (name : String) : Option TestCase :=
  registry.cases.find? (·.name = name)

def size (registry : Registry) : Nat := registry.cases.length

/-- The case that a case replaces, if it replaces one, and the registry with the case in that
place or at the end. -/
def exchange (registry : Registry) (c : TestCase) : Option TestCase × Registry :=
  let put := putCase c registry.cases
  (put.1, ⟨registry.config, put.2, nodup_names_putCase registry.distinct⟩)

/-- The registry with one more case, or with the case in the place of its namesake. -/
def register (registry : Registry) (c : TestCase) : Registry := (registry.exchange c).2

/-- The registry after all these cases, in their order. -/
def registerAll (registry : Registry) (cases : List TestCase) : Registry :=
  cases.foldl register registry

/-- The registry with the cases that every compiler must pass. -/
def withBuiltin (config : Config) : Registry := (empty config).registerAll (builtinCases config)

/-- The outcomes of all cases, each executed once, in the order of the cases. -/
def outcomes {m : Type → Type} [Monad m] (registry : Registry) (execute : Executor m) :
    m (List Outcome) :=
  registry.cases.mapM (evaluate execute)

end Registry

end CommandSuite
