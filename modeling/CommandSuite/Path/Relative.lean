import CommandSuite.Path

/-!
# Relative paths

A relative path is a list of steps, up or into a name. `relativeTo path base` is the way from one
directory to a path, and `RelativePath.resolve` follows such a way: it takes each `..` as the
removal of the component before it, without a look at the files.
-/

namespace CommandSuite

open CommandSuite.Path (Component)

/-- A step of a relative path. -/
inductive Step where
  | up
  | name (s : String)
  deriving Repr, DecidableEq

namespace Step

/-- Steps up come before names, names in their own order. -/
def before : Step → Step → Bool
  | up, up => false
  | up, name _ => true
  | name _, up => false
  | name s, name t => s < t

/-- The step as it is written. -/
def text : Step → String
  | up => ".."
  | name s => s

end Step

/-- A path as steps from some directory. -/
structure RelativePath where
  steps : List Step
  deriving Repr, DecidableEq

namespace RelativePath

/-- The steps of components; the root is no step. -/
def ofComponents? (cs : List Component) : Option RelativePath :=
  let step : Component → Option (List Step)
    | .root => none
    | .here => some []
    | .up => some [.up]
    | .name s => some [.name s]
  (cs.mapM step).map fun steps => ⟨steps.flatten⟩

/-- The relative path as it is written. -/
def text (path : RelativePath) : String := "/".intercalate (path.steps.map Step.text)

/-- The order of lists of steps. -/
def stepsBefore : List Step → List Step → Bool
  | [], [] => false
  | [], _ :: _ => true
  | _ :: _, [] => false
  | a :: as, b :: bs => a.before b || (a == b && stepsBefore as bs)

/-- The order of relative paths: step by step. -/
def before (p q : RelativePath) : Bool := stepsBefore p.steps q.steps

/-- Takes one step from a path. At the root there is no step up. -/
def walk (path : List Component) : Step → List Component
  | .up => if path.getLast? = some .root then path else path.dropLast
  | .name s => path ++ [.name s]

/-- The path that the steps lead to from `base`. -/
def resolve (path : RelativePath) (base : List Component) : List Component :=
  path.steps.foldl walk base

/-- The path, from the root on, that the relative path is short for in a directory. -/
def logicalPath (path : RelativePath) (currentDir : String) : String :=
  Path.ofComponents (path.resolve (Path.components currentDir))

end RelativePath

/-! ## The way from one path to another -/

/-- The steps from a base to a path, both given from the root on. What both have in common at
their start is left out; there is no way that would have to undo a `..` of the base. -/
def difference : List Component → List Component → Option (List Component)
  | [], base => some (base.map fun _ => .up)
  | a :: path, [] => some (a :: path)
  | a :: path, b :: base =>
    if a = b then difference path base
    else if b = .up then none
    else some (.up :: base.map (fun _ => .up) ++ a :: path)

/-- A path as seen from a base. A path that is relative already stays as it is. -/
def relativeTo (path base : String) : Option RelativePath :=
  if Path.isAbsolute path then
    if Path.isAbsolute base then
      (difference (Path.components path) (Path.components base)).bind RelativePath.ofComponents?
    else none
  else RelativePath.ofComponents? (Path.components path)

/-! ## Sets of relative paths -/

/-- Relative paths in their order: the list with one more path, if it is not there yet. -/
def insertPath (p : RelativePath) : List RelativePath → List RelativePath
  | [] => [p]
  | q :: qs =>
    if p.before q then p :: q :: qs
    else if p = q then q :: qs
    else q :: insertPath p qs

end CommandSuite
