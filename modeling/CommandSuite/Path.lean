import CommandSuite.Text.Split

/-!
# Path texts

Paths are texts with `/` between their components. Joining is textual: nothing is normalised, so a
joined path shows how it came about. Reading the components drops empty ones and every `.` that
does not stand at the start; `..` is kept.
-/

namespace CommandSuite.Path

/-- Whether the path starts at the root. -/
def isAbsolute (path : String) : Bool := path.toList.head? == some '/'

/-- `path` seen from the directory `dir`. An absolute path ignores the directory; an empty one
names the directory itself, with a `/` at its end. -/
def join (dir path : String) : String :=
  if isAbsolute path then path
  else if dir.isEmpty || dir.toList.getLast? == some '/' then dir ++ path
  else dir ++ "/" ++ path

/-- Whether a program is named by a path, and not by a name that is to be looked up. -/
def isPathLike (program : String) : Bool := program.toList.contains '/'

/-- A component of a path. -/
inductive Component where
  | root
  /-- The `.` at the start of a relative path. -/
  | here
  | up
  | name (s : String)
  deriving Repr, DecidableEq

namespace Component

/-- The component that a piece between slashes stands for, if it stands for one. -/
def ofPiece? (piece : String) : Option Component :=
  if piece = "" || piece = "." then none
  else if piece = ".." then some up
  else some (name piece)

/-- The component as it is written. -/
def text : Component → String
  | root => "/"
  | here => "."
  | up => ".."
  | name s => s

end Component

/-- The components of a path. -/
def components (path : String) : List Component :=
  let pieces := Text.pieces '/' path
  let start :=
    if isAbsolute path then [Component.root]
    else if pieces.head? = some "." then [.here]
    else []
  start ++ pieces.filterMap Component.ofPiece?

/-- The path of components. -/
def ofComponents : List Component → String
  | .root :: cs => "/" ++ "/".intercalate (cs.map Component.text)
  | cs => "/".intercalate (cs.map Component.text)

end CommandSuite.Path
