import CommandSuite.Arguments
import CommandSuite.Proofs.Path.Parts

/-!
# Where a program is found

A program is looked up in one directory after the other: in those of a list of its own, and then
in those of the search path. The list is written like a search path, with colons between its
directories, and is given as the text of one directory. So a directory with a colon in its name is
taken for several others, none of which it is, and a directory of the name `~` for the home
directory.

* `find?_eq_some_iff`, `find?_eq_none_iff`: the first directory that holds the program is the one.
* `find?_bare`: what this comes to for a name that is no path, and when the directory that was
  meant is the one that is searched.
-/

namespace CommandSuite

namespace Path

/-- Joining adds nothing but slashes. -/
theorem count_join (dir : String) {path : String} (relative : isAbsolute path = false) {c : Char}
    (other : c ≠ '/') :
    (join dir path).toList.count c = dir.toList.count c + path.toList.count c := by
  have slash : "/".toList.count c = 0 := List.count_eq_zero.2 (by simpa using other)
  rw [join, relative, if_neg Bool.false_ne_true]
  split
  · rw [String.toList_append, List.count_append]
  · rw [String.toList_append, String.toList_append, List.count_append, List.count_append, slash,
      Nat.add_zero]

theorem isAbsolute_of_not_isPathLike {name : String} (bare : ¬ isPathLike name) :
    isAbsolute name = false := by
  rw [isPathLike, List.contains_iff_mem] at bare
  exact isAbsolute_of_slash_notMem bare

theorem empty_join (path : String) : join "" path = path := by
  rw [join]
  split
  · rfl
  · rw [if_pos (by simp), String.empty_append]

/-- A text without slashes has one component at most. -/
theorem length_components_le_one {name : String} (bare : ¬ isPathLike name) :
    (components name).length ≤ 1 := by
  have relative := isAbsolute_of_not_isPathLike bare
  rw [isPathLike, List.contains_iff_mem] at bare
  have alone : Text.pieces '/' name = [name] := by
    rw [Text.pieces, Text.splitOn_eq_singleton bare, List.map_singleton, String.ofList_toList]
  rw [components, relative, if_neg Bool.false_ne_true, alone]
  by_cases here : name = "."
  · subst here
    decide
  · have start : [name].head? ≠ some "." := fun head => here (Option.some.inj head)
    rw [if_neg start, List.nil_append]
    exact List.length_filterMap_le _ _

end Path

namespace Executable

variable {tree : FileTree} {searchPath : Option String} {name list dir p : String}
  {dirs : List String}

/-! ## Directories in their order -/

/-- The directories of the search path; there are none if it is not set. -/
def pathEntries (tree : FileTree) (searchPath : Option String) : List String :=
  searchPath.toList.flatMap (listed tree)

/-- The directories in which a program is looked up, in their order. A name of several components
is seen from the working directory in place of the search path, as long as there is a working
directory. -/
def directories (tree : FileTree) (searchPath : Option String) (name list : String) :
    List String :=
  listed tree list ++
    match tree.currentDir with
    | .ok here =>
      if 1 < (Path.components name).length then [here] else pathEntries tree searchPath
    | .error _ => pathEntries tree searchPath

/-- The directory is the first of several that holds the program. -/
def IsFirst (tree : FileTree) (name : String) (dirs : List String) (dir : String) : Prop :=
  ∃ before after, dirs = before ++ dir :: after ∧ isProgram tree (Path.join dir name) ∧
    ∀ d ∈ before, ¬ isProgram tree (Path.join d name)

theorem IsFirst.mem (first : IsFirst tree name dirs dir) : dir ∈ dirs := by
  obtain ⟨before, after, rfl, _⟩ := first
  exact List.mem_append_right before List.mem_cons_self

theorem IsFirst.isProgram (first : IsFirst tree name dirs dir) :
    isProgram tree (Path.join dir name) := by
  obtain ⟨_, _, _, holds, _⟩ := first
  exact holds

theorem isFirst_cons_of_holds (holds : Executable.isProgram tree (Path.join dir name)) :
    IsFirst tree name (dir :: dirs) dir :=
  ⟨[], dirs, rfl, holds, fun _ => nofun⟩

/-- One list of directories is searched. -/
theorem find?_eq_find?_directories (tree : FileTree) (searchPath : Option String)
    (name list : String) :
    find? tree searchPath name list =
      ((directories tree searchPath name list).map (Path.join · name)).find?
        (isProgram tree) := by
  have inPath : searchPath.bind (findInList? tree name) =
      ((pathEntries tree searchPath).map (Path.join · name)).find? (isProgram tree) := by
    cases searchPath with
    | none => rfl
    | some entries => rw [pathEntries, Option.toList_some, List.flatMap_singleton]; rfl
  have inTurn : find? tree searchPath name list =
      (findInList? tree name list).or (findInPath? tree searchPath name) := by
    rw [find?]
    cases findInList? tree name list <;> rfl
  rw [inTurn, directories, List.map_append, List.find?_append, findInPath?]
  congr 1
  cases tree.currentDir with
  | error e => exact inPath
  | ok here =>
    by_cases several : 1 < (Path.components name).length
    · simp only [if_pos several, List.map_singleton]
    · simp only [if_neg several, inPath]

/-- What is found is the program in the first directory that holds it. -/
theorem find?_eq_some_iff : find? tree searchPath name list = some p ↔
    ∃ dir, IsFirst tree name (directories tree searchPath name list) dir ∧
      p = Path.join dir name := by
  rw [find?_eq_find?_directories, List.find?_map, Option.map_eq_some_iff]
  refine exists_congr fun dir => and_congr ?_ eq_comm
  rw [List.find?_eq_some_iff_append]
  constructor
  · rintro ⟨holds, before, after, split, others⟩
    exact ⟨before, after, split, holds, fun d mem => by simpa using others d mem⟩
  · rintro ⟨before, after, split, holds, others⟩
    exact ⟨holds, before, after, split, fun d mem => by simpa using others d mem⟩

theorem find?_eq_none_iff : find? tree searchPath name list = none ↔
    ∀ dir ∈ directories tree searchPath name list, ¬ isProgram tree (Path.join dir name) := by
  rw [find?_eq_find?_directories, List.find?_map, Option.map_eq_none_iff, List.find?_eq_none]
  rfl

theorem directories_of_bare (bare : ¬ Path.isPathLike name) :
    directories tree searchPath name list = listed tree list ++ pathEntries tree searchPath := by
  have one := Nat.not_lt.2 (Path.length_components_le_one bare)
  rw [directories]
  cases tree.currentDir with
  | error e => rfl
  | ok here => simp only [if_neg one]

/-! ## Entries of a list -/

/-- The path is written from the home directory. -/
def StartsHome (path : String) : Prop := (Text.pieces '/' path).head? = some "~"

instance : DecidablePred StartsHome := fun _ => inferInstanceAs (Decidable (_ = _))

theorem entryDir_of_not_startsHome (tree : FileTree) (away : ¬ StartsHome dir) :
    entryDir tree dir = dir := by
  rw [entryDir]
  split
  case h_1 rest written => exact absurd (by rw [StartsHome, written]; rfl) away
  case h_2 => rfl

/-- What holds of the home directory and is kept by joining what stands in the entry holds of the
directory that the entry means. -/
theorem entryDir_induction {P : String → Prop} (home : StartsHome dir) (start : P tree.homeDir)
    (step : ∀ d part, P d → part ∈ Text.pieces '/' dir → P (Path.join d part)) :
    P (entryDir tree dir) := by
  obtain ⟨rest, written⟩ := List.head?_eq_some_iff.1 home
  rw [entryDir, written]
  refine List.foldlRecOn _ _ start fun d holds c mem => step d c.text holds ?_
  obtain ⟨piece, isPiece, read⟩ := List.mem_filterMap.1 mem
  have text : c.text = piece := by
    rw [Path.Component.ofPiece?] at read
    split at read
    · cases read
    · split at read
      case isTrue up => rw [← Option.some.inj read, up]; rfl
      case isFalse => rw [← Option.some.inj read]; rfl
  rw [text, written]
  exact List.mem_cons_of_mem _ isPiece

theorem isAbsolute_entryDir (tree : FileTree) (home : StartsHome dir) :
    Path.isAbsolute (entryDir tree dir) := by
  refine entryDir_induction (P := fun d => Path.isAbsolute d) home ?_ fun d part rooted _ =>
    Path.isAbsolute_join rooted part
  rw [FileTree.homeDir]
  exact Path.isAbsolute_append (by decide) _

/-- An entry means an absolute directory if it is absolute or written from the home directory. -/
theorem isAbsolute_entryDir_iff (tree : FileTree) :
    Path.isAbsolute (entryDir tree dir) ↔ Path.isAbsolute dir ∨ StartsHome dir := by
  by_cases home : StartsHome dir
  · exact iff_of_true (isAbsolute_entryDir tree home) (.inr home)
  · rw [entryDir_of_not_startsHome tree home, or_iff_left home]

theorem colon_notMem_entryDir (plain : ':' ∉ tree.homeDir.toList) (whole : ':' ∉ dir.toList) :
    ':' ∉ (entryDir tree dir).toList := by
  by_cases home : StartsHome dir
  · refine entryDir_induction (P := fun d => ':' ∉ d.toList) home plain
      fun d part inFront isPart => ?_
    obtain ⟨cs, isCut, rfl⟩ := List.mem_map.1 isPart
    have relative : Path.isAbsolute (String.ofList cs) = false := by
      refine Path.isAbsolute_of_slash_notMem ?_
      rw [String.toList_ofList]
      exact Text.notMem_of_mem_splitOn isCut
    have inPart : ':' ∉ (String.ofList cs).toList := by
      rw [String.toList_ofList]
      exact fun mem => whole (Text.mem_of_mem_of_mem_splitOn isCut mem)
    rw [← List.count_eq_zero, Path.count_join d relative (by decide),
      List.count_eq_zero.2 inFront, List.count_eq_zero.2 inPart]
  · rwa [entryDir_of_not_startsHome tree home]

theorem listed_of_colon_notMem (whole : ':' ∉ dir.toList) :
    listed tree dir = [entryDir tree dir] := by
  rw [listed, Text.pieces, Text.splitOn_eq_singleton whole, List.map_singleton,
    List.map_singleton, String.ofList_toList]

/-- Each directory that is searched for a bare name is what an entry without a colon means. -/
theorem exists_entry_of_mem_directories (bare : ¬ Path.isPathLike name)
    (mem : dir ∈ directories tree searchPath name list) :
    ∃ entry : String, ':' ∉ entry.toList ∧ dir = entryDir tree entry := by
  have inList {text : String} (isListed : dir ∈ listed tree text) :
      ∃ entry : String, ':' ∉ entry.toList ∧ dir = entryDir tree entry := by
    obtain ⟨entry, isPiece, rfl⟩ := List.mem_map.1 isListed
    obtain ⟨cs, isCut, rfl⟩ := List.mem_map.1 isPiece
    refine ⟨_, ?_, rfl⟩
    rw [String.toList_ofList]
    exact Text.notMem_of_mem_splitOn isCut
  rw [directories_of_bare bare, List.mem_append, pathEntries, List.mem_flatMap] at mem
  rcases mem with isListed | ⟨text, _, isListed⟩
  · exact inList isListed
  · exact inList isListed

/-! ## The directory that was meant -/

/-- A directory with a colon gives no path that one without gives. -/
theorem join_ne_join {d : String} (bare : ¬ Path.isPathLike name) (parted : ':' ∈ dir.toList)
    (whole : ':' ∉ d.toList) : Path.join dir name ≠ Path.join d name := by
  intro same
  have relative := Path.isAbsolute_of_not_isPathLike bare
  have counts := congrArg (fun path : String => path.toList.count ':') same
  simp only [Path.count_join _ relative (show ':' ≠ '/' by decide), Nat.add_right_cancel_iff,
    List.count_eq_zero_of_not_mem whole] at counts
  exact Nat.ne_of_gt (List.count_pos_iff.2 parted) counts

/-- What is joined to a directory shows whether this is written from the home directory. -/
theorem startsHome_of_join_eq {d : String} (bare : ¬ Path.isPathLike name) (home : StartsHome dir)
    (same : Path.join dir name = Path.join d name) : StartsHome d := by
  have relative := Path.isAbsolute_of_not_isPathLike bare
  obtain ⟨front, empty, areEmpty, own, joined⟩ := Path.pieces_join dir relative
  obtain ⟨front', empty', _, own', joined'⟩ := Path.pieces_join d relative
  obtain rfl : front = front' := by
    rw [same, joined'] at joined
    exact (List.append_cancel_right joined).symm
  cases front with
  | nil =>
    -- all pieces of such a directory are empty
    rw [StartsHome, own, List.nil_append] at home
    exact absurd (areEmpty _ (List.mem_of_mem_head? home)) (by decide)
  | cons piece front =>
    rw [StartsHome, own] at home
    rw [StartsHome, own']
    exact home

/-- The directory that an entry means is never written from the home directory. -/
theorem not_startsHome_entryDir (tree : FileTree) : ¬ StartsHome (entryDir tree dir) := by
  by_cases home : StartsHome dir
  · intro again
    have rooted := isAbsolute_entryDir tree home
    rw [Path.isAbsolute, beq_iff_eq] at rooted
    obtain ⟨rest, chars⟩ := List.head?_eq_some_iff.1 rooted
    rw [StartsHome, Text.pieces, chars, Text.splitOn, if_pos rfl] at again
    exact absurd (Option.some.inj again) (by decide)
  · rwa [entryDir_of_not_startsHome tree home]

/-- The program in the directory that was meant is found exactly if this is one directory, and not
the home directory in another spelling. -/
theorem find?_eq_some_join_iff (bare : ¬ Path.isPathLike name)
    (plain : ':' ∉ tree.homeDir.toList) (holds : isProgram tree (Path.join dir name)) :
    find? tree searchPath name dir = some (Path.join dir name) ↔
      ':' ∉ dir.toList ∧ ¬ StartsHome dir := by
  constructor
  · intro found
    obtain ⟨d, first, same⟩ := find?_eq_some_iff.1 found
    obtain ⟨entry, whole, rfl⟩ := exists_entry_of_mem_directories bare first.mem
    exact ⟨fun parted => join_ne_join bare parted (colon_notMem_entryDir plain whole) same,
      fun home => not_startsHome_entryDir tree (startsHome_of_join_eq bare home same)⟩
  · rintro ⟨whole, away⟩
    refine find?_eq_some_iff.2 ⟨dir, ?_, rfl⟩
    rw [directories_of_bare bare, listed_of_colon_notMem whole,
      entryDir_of_not_startsHome tree away]
    exact isFirst_cons_of_holds holds

/-- Where the directory that was meant does not hold the program, the search path decides. -/
theorem find?_eq_some_iff_of_not_holds (bare : ¬ Path.isPathLike name) (whole : ':' ∉ dir.toList)
    (away : ¬ StartsHome dir) (lacks : ¬ isProgram tree (Path.join dir name)) :
    find? tree searchPath name dir = some p ↔
      ∃ d, IsFirst tree name (pathEntries tree searchPath) d ∧ p = Path.join d name := by
  rw [find?_eq_some_iff, directories_of_bare bare, listed_of_colon_notMem whole,
    entryDir_of_not_startsHome tree away, List.singleton_append]
  refine exists_congr fun d => and_congr_left fun _ => ⟨?_, ?_⟩
  · rintro ⟨_ | ⟨_, before⟩, after, split, holds, others⟩
    · rw [(List.cons.inj split).1] at lacks
      exact absurd holds lacks
    · exact ⟨before, after, (List.cons.inj split).2, holds, (List.forall_mem_cons.1 others).2⟩
  · rintro ⟨before, after, split, holds, others⟩
    exact ⟨dir :: before, after, by rw [split]; rfl, holds,
      List.forall_mem_cons.2 ⟨lacks, others⟩⟩

/-- **A bare name is looked up in one directory after the other:** in those of the list and then
in those of the search path, and the first that holds the program is the one. If the list is meant
as one directory and holds the program, then the program there is found exactly if the directory
has no colon and is not written from the home directory, provided that the home directory has no
colon itself; if it does not hold the program, then the search path alone decides. The compiler of
a configuration is looked up so in the project root, and stays a name where there is none. -/
theorem find?_bare (bare : ¬ Path.isPathLike name) (tree : FileTree) (searchPath : Option String)
    (dir : String) :
    (∀ p, find? tree searchPath name dir = some p ↔
      ∃ d, IsFirst tree name (listed tree dir ++ pathEntries tree searchPath) d ∧
        p = Path.join d name) ∧
    (find? tree searchPath name dir = none ↔
      ∀ d ∈ listed tree dir ++ pathEntries tree searchPath, ¬ isProgram tree (Path.join d name)) ∧
    (isProgram tree (Path.join dir name) → ':' ∉ tree.homeDir.toList →
      (find? tree searchPath name dir = some (Path.join dir name) ↔
        ':' ∉ dir.toList ∧ ¬ StartsHome dir)) ∧
    (':' ∉ dir.toList → ¬ StartsHome dir → ¬ isProgram tree (Path.join dir name) →
      (∀ p, find? tree searchPath name dir = some p ↔
        ∃ d, IsFirst tree name (pathEntries tree searchPath) d ∧ p = Path.join d name) ∧
      (find? tree searchPath name dir = none ↔
        ∀ d ∈ pathEntries tree searchPath, ¬ isProgram tree (Path.join d name))) ∧
    ∀ a : Arguments, a.compiler = some name → a.interpreter = none → a.projectRoot = dir →
      (isProgram tree (Path.join dir name) → ':' ∉ tree.homeDir.toList →
        ((a.config tree searchPath).binaryPath = Path.join dir name ↔
          ':' ∉ dir.toList ∧ ¬ StartsHome dir)) ∧
      (∀ p, find? tree searchPath name dir = some p →
        (a.config tree searchPath).binaryPath = p) ∧
      (find? tree searchPath name dir = none →
        (a.config tree searchPath).binaryPath = name) := by
  have inOrder : directories tree searchPath name dir =
      listed tree dir ++ pathEntries tree searchPath := directories_of_bare bare
  refine ⟨fun p => ?_, ?_, fun holds plain => find?_eq_some_join_iff bare plain holds,
    fun whole away lacks =>
      ⟨fun p => find?_eq_some_iff_of_not_holds bare whole away lacks, ?_⟩, ?_⟩
  · rw [find?_eq_some_iff, inOrder]
  · rw [find?_eq_none_iff, inOrder]
  · rw [find?_eq_none_iff, inOrder, listed_of_colon_notMem whole,
      entryDir_of_not_startsHome tree away, List.singleton_append, List.forall_mem_cons,
      and_iff_right lacks]
  · rintro a named direct rfl
    have resolved : (a.config tree searchPath).binaryPath =
        (find? tree searchPath name a.projectRoot).getD name := by
      rw [Config.binaryPath, Arguments.config, named, Option.map_some, Option.getD_some,
        Arguments.resolveCompiler, direct, if_neg (by simpa using bare)]
    refine ⟨fun holds plain => ⟨fun same => ?_, fun meant => ?_⟩, fun p found => ?_,
      fun none => ?_⟩
    · rw [resolved] at same
      cases found : find? tree searchPath name a.projectRoot with
      | some p =>
        rw [found, Option.getD_some] at same
        exact (find?_eq_some_join_iff bare plain holds).1 (found.trans (congrArg some same))
      | none =>
        -- the name itself is what a directory without a text gives
        rw [found, Option.getD_none] at same
        have alone : Path.join a.projectRoot name = Path.join "" name :=
          same.symm.trans (Path.empty_join name).symm
        exact ⟨fun parted => join_ne_join bare parted (by decide) alone,
          fun home => absurd (startsHome_of_join_eq bare home alone) (by decide)⟩
    · rw [resolved, (find?_eq_some_join_iff bare plain holds).2 meant, Option.getD_some]
    · rw [resolved, found, Option.getD_some]
    · rw [resolved, none, Option.getD_none]

/-- A compiler in the project root, which is found before the one in the search path. -/
theorem find?_bare_beforePath :
    let program : FileNode := .directory [("tool", .file [] true)]
    let tree : FileTree :=
      { root := .directory [("bin", program), ("root", program), ("work", .directory [])]
        workingDir := ["work"] }
    let a : Arguments := { projectRoot := "../root", compiler := some "tool" }
    ¬ Path.isPathLike "tool" ∧ isProgram tree (Path.join "../root" "tool") ∧
      find? tree (some "/bin") "tool" "../root" = some "../root/tool" ∧
      (a.config tree (some "/bin")).binaryPath = "../root/tool" := by
  intro program tree a
  have bare : ¬ Path.isPathLike "tool" := by decide
  have holds : isProgram tree (Path.join "../root" "tool") := by decide +kernel
  have path : Path.join "../root" "tool" = "../root/tool" := by decide
  have plain : ':' ∉ tree.homeDir.toList := by decide
  have meant : ':' ∉ "../root".toList ∧ ¬ StartsHome "../root" := by decide
  obtain ⟨_, _, found, _, resolved⟩ := find?_bare bare tree (some "/bin") "../root"
  obtain ⟨compiler, _, _⟩ := resolved a rfl rfl rfl
  rw [path] at found compiler holds
  exact ⟨bare, path ▸ holds, (found holds plain).2 meant, (compiler holds plain).2 meant⟩

/-- A program in a directory with a colon in its name is not found there. -/
theorem find?_misses_colon :
    let tree : FileTree :=
      { root := .directory [("work", .directory [("a:b", .directory [("tool", .file [] true)])])]
        workingDir := ["work"] }
    isProgram tree (Path.join "a:b" "tool") ∧ find? tree (some "/bin") "tool" "a:b" = none := by
  intro tree
  decide +kernel

end Executable

end CommandSuite
