import CommandSuite.FileTree

/-!
# Finding executables

A program is looked up by its name in lists of directories: first in a list of its own, then in
the search path. Lists are written with colons between the directories; an empty entry is the
working directory, and a name found there stays bare. An entry that starts with `~` is seen from
the home directory.
-/

namespace CommandSuite.Executable

/-- Whether the path names a regular file that may be executed. -/
def isProgram (tree : FileTree) (path : String) : Bool :=
  tree.isRegular path && tree.isExecutable path

/-- The directory that an entry of a list means: `~` in front of it is the home directory. -/
def entryDir (tree : FileTree) (entry : String) : String :=
  match Text.pieces '/' entry with
  | "~" :: rest =>
    let components := rest.filterMap Path.Component.ofPiece?
    components.foldl (fun dir c => Path.join dir c.text) tree.homeDir
  | _ => entry

/-- The directories of a list. -/
def listed (tree : FileTree) (directories : String) : List String :=
  (Text.pieces ':' directories).map (entryDir tree)

/-- The first directory of a list that holds the program, joined with its name. -/
def findInList? (tree : FileTree) (name directories : String) : Option String :=
  ((listed tree directories).map (Path.join · name)).find? (isProgram tree)

/-- The program as the search path gives it. A name of several components is no matter of the
search path: it is seen from the working directory. -/
def findInPath? (tree : FileTree) (searchPath : Option String) (name : String) : Option String :=
  match tree.currentDir with
  | .ok here =>
    if 1 < (Path.components name).length then
      [Path.join here name].find? (isProgram tree)
    else searchPath.bind (findInList? tree name)
  | .error _ => searchPath.bind (findInList? tree name)

/-- The program as a list of directories gives it, or else as the search path does. -/
def find? (tree : FileTree) (searchPath : Option String) (name directories : String) :
    Option String :=
  findInList? tree name directories <|> findInPath? tree searchPath name

/-- The text that reports that there is no such program. -/
def notFoundMessage : String := "cannot find binary path"

end CommandSuite.Executable
