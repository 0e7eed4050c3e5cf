import CommandSuite.Registry

/-!
# Orders of a run

The cases of a registry run one after the other, or at the same time. At the same time every case
has a worker of its own, which executes the command, judges the case by that, and tells of the
outcome, one note after the other; each of these is a step. A schedule says which worker takes the
next step. What is left when the schedule ends is done worker by worker, so that every order of
the steps is that of some schedule.
-/

namespace CommandSuite

/-- How far a worker has come. -/
inductive Progress (α : Type) where
  | waiting
  /-- The command was executed, and the case is not judged yet. -/
  | executed (execution : Execution)
  /-- The case is judged; some notes are not told yet. -/
  | judged (outcome : Outcome) (untold : List α)

/-- A case that is run at the same time as others. -/
structure Worker (α : Type) where
  case : TestCase
  progress : Progress α

variable {α : Type} {m : Type → Type} [Monad m]

namespace Worker

/-- The next step of a worker, and the notes that it tells. -/
def advance (execute : Executor m) (notes : Outcome → List α) (worker : Worker α) :
    m (Worker α × List α) :=
  match worker.progress with
  | .waiting =>
    return ({ worker with progress := .executed (← execute worker.case.invocation) }, [])
  | .executed execution =>
    let outcome := judge worker.case execution
    return ({ worker with progress := .judged outcome (notes outcome) }, [])
  | .judged outcome (note :: untold) =>
    return ({ worker with progress := .judged outcome untold }, [note])
  | .judged _ [] => return (worker, [])

/-- All steps that are left to a worker: its outcome, and the notes that they tell. -/
def finish (execute : Executor m) (notes : Outcome → List α) (worker : Worker α) :
    m (Outcome × List α) :=
  match worker.progress with
  | .waiting => do
    let outcome ← evaluate execute worker.case
    return (outcome, notes outcome)
  | .executed execution =>
    let outcome := judge worker.case execution
    return (outcome, notes outcome)
  | .judged outcome untold => return (outcome, untold)

end Worker

/-- Workers by the indices of their cases, and all notes that were told. -/
structure Crew (α : Type) where
  workers : List (Worker α)
  told : List α

namespace Crew

/-- The workers before their first steps. -/
def ofCases (cases : List TestCase) : Crew α :=
  { workers := cases.map fun c => { case := c, progress := .waiting }, told := [] }

/-- A step of the worker at an index, if there is one. -/
def step (execute : Executor m) (notes : Nat → Outcome → List α) (crew : Crew α) (index : Nat) :
    m (Crew α) :=
  match crew.workers[index]? with
  | none => return crew
  | some worker => do
    let (worker, told) ← worker.advance execute (notes index)
    return { workers := crew.workers.set index worker, told := crew.told ++ told }

/-- All steps that are left to workers, the first of which has the given index. -/
def finishFrom (execute : Executor m) (notes : Nat → Outcome → List α) :
    Nat → List (Worker α) → m (List Outcome × List α)
  | _, [] => return ([], [])
  | index, worker :: workers => do
    let (outcome, told) ← worker.finish execute (notes index)
    let (outcomes, toldLater) ← finishFrom execute notes (index + 1) workers
    return (outcome :: outcomes, told ++ toldLater)

end Crew

/-- The order in which cases are run. -/
inductive RunOrder where
  | sequential
  | parallel (schedule : List Nat)
  deriving Repr, DecidableEq

/-- The outcomes of all cases in the order of the cases, and the notes in the order in which they
are told. -/
def Registry.runAll (registry : Registry) (order : RunOrder) (execute : Executor m)
    (notes : Nat → Outcome → List α) : m (List Outcome × List α) :=
  match order with
  | .sequential => do
    let outcomes ← registry.outcomes execute
    return (outcomes, (outcomes.mapIdx notes).flatten)
  | .parallel schedule => do
    let crew ← schedule.foldlM (Crew.step execute notes) (Crew.ofCases registry.cases)
    let (outcomes, told) ← Crew.finishFrom execute notes 0 crew.workers
    return (outcomes, crew.told ++ told)

end CommandSuite
