import CommandSuite.Proofs.Glob.Retrace
import CommandSuite.Proofs.SuiteFiles

/-!
# Suite files in directories

A directory that matches is searched by a new pattern, which its path is made part of. The path is
thus read as a pattern, and leads back to the directory if it has no wildcards.

* `find_searchPattern`: from a literal path the search finds just what stands below the directory
  under the name of a suite file, and the paths that it writes are no longer than those which lead
  on from the path of the directory.
* `locate_directories` puts this together for all directories that match, and for those that are
  found in them in turn.
-/

namespace CommandSuite.SuiteFiles

open Glob (Found IsLiteral)

/-- A name with the suffix of suite files. -/
def IsSuiteName (name : String) : Prop := suffix.toList <:+ name.toList

instance : DecidablePred IsSuiteName := fun name =>
  inferInstanceAs (Decidable (suffix.toList <:+ name.toList))

/-- A chain of names that ends with the name of a suite file. -/
def IsSuiteChain (names : List String) : Prop :=
  ∃ name, names.getLast? = some name ∧ IsSuiteName name

variable {tree : FileTree} {pattern : String} {found : List Found} {d f : Found} {fuel : Nat}
  {names more : List String} {allowed : String → Prop} {test : FileNode → Bool}

theorem IsSuiteChain.ne_nil (chain : IsSuiteChain names) : names ≠ [] := by
  rintro rfl
  obtain ⟨name, last, _⟩ := chain
  cases last

theorem IsSuiteChain.append (chain : IsSuiteChain more) (names : List String) :
    IsSuiteChain (names ++ more) := by
  obtain ⟨name, last, suite⟩ := chain
  refine ⟨name, ?_, suite⟩
  rw [List.getLast?_append, last]
  rfl

/-! ## The search of a directory -/

/-- The components behind the path of a directory that is searched. -/
def searchComponents : List Glob.ComponentPattern :=
  [.recursive, .wild (.anySequence :: suffix.toList.map .char)]

theorem ofText_searchPattern {dir : String} (literal : IsLiteral dir) :
    Glob.PathPattern.ofText (searchPattern dir) = .ok {
      absolute := Path.isAbsolute dir
      directoriesOnly := false
      components := (Path.parts dir).map .literal ++ searchComponents } := by
  have chars : ("**/*" ++ suffix).toList = "**/*.suite.toml".toList := by decide
  have parts : Path.parts ("**/*" ++ suffix) = ["**", "*.suite.toml"] := by decide
  have whole : ∀ before, before = none ∨ before = some '/' → ∀ pos, ∃ ts,
      Glob.readTokens ("**/*" ++ suffix).toList.length before pos ("**/*" ++ suffix).toList =
        .ok ts := by
    rw [chars]
    rintro before (rfl | rfl) pos <;> exact ⟨_, rfl⟩
  have each : (Path.parts ("**/*" ++ suffix)).mapM (fun part => Glob.tokens part.toList) =
      .ok [[.recursive], .anySequence :: suffix.toList.map .char] := by
    rw [parts]
    rfl
  have read := Glob.ofText_literal_join literal (by decide) (by decide) whole each
  rw [searchPattern, read]
  rfl

/-- **The search of a directory** with a literal path does not fail, and finds what stands below
the directory under the name of a suite file. -/
theorem find_searchPattern (wellFormed : tree.root.wellFormed) (sound : d.Sound tree allowed)
    (literal : IsLiteral d.path) :
    ∃ (here : Found) (inner : List Found), here.place = d.place ∧
      here.front.toList <:+ d.front.toList ∧ IsLiteral here.path ∧
      Glob.find tree (searchPattern d.path) = .ok inner ∧
      ∀ f, f ∈ inner ↔ ∃ names, IsSuiteChain names ∧
        (tree.root.find? (d.place ++ names)).isSome ∧ f = here.down names := by
  have filled := fun part isPart => (sound.parts part isPart).1
  have start : (Found.start tree (Path.isAbsolute d.path)).place = tree.start d.path ∧
      IsLiteral (Found.start tree (Path.isAbsolute d.path)).path := by
    rw [FileTree.start]
    cases Path.isAbsolute d.path with
    | true => exact ⟨rfl, (by decide : IsLiteral "/")⟩
    | false => exact ⟨rfl, (by decide : IsLiteral ".")⟩
  have leads := sound.names.foldlM_parts
  rw [← start.1] at leads
  -- the search comes back to the directory, by a path of its own
  let path := Found.along (Found.start tree (Path.isAbsolute d.path)).path (Path.parts d.path)
  let here : Found := ⟨path, d.place⟩
  let inner := (here.descendants tree.root).filter fun f =>
    (Glob.ComponentPattern.wild (.anySequence :: suffix.toList.map .char)).accepts f.name
  have matched : Glob.find tree (searchPattern d.path) = .ok inner := by
    have all : ∀ found : List Found,
        found.filter (fun f => !false || f.isDirectory tree.root) = found := by
      intro found
      exact List.filter_eq_self.2 fun _ _ => rfl
    rw [Glob.find, ofText_searchPattern literal]
    refine congrArg Except.ok ((all _).trans ?_)
    refine (Glob.findFrom_literals filled leads searchComponents).trans ?_
    exact List.flatMap_singleton' _
  have shorter := Found.suffix_front_along_start tree sound.filled filled d.place
  have hereLiteral : IsLiteral here.path :=
    Found.isLiteral_along start.2 fun part => Glob.isLiteral_of_mem_parts literal
  refine ⟨here, inner, rfl, shorter, hereLiteral, matched, fun f => ?_⟩
  rw [List.mem_filter, Found.mem_descendants_iff wellFormed, Glob.accepts_anySequence]
  constructor
  · rintro ⟨⟨names, filled, there, rfl⟩, suite⟩
    have last := List.getLast?_eq_some_getLast filled
    rw [Found.name, Found.place_down, List.getLast?_append, last] at suite
    exact ⟨names, ⟨_, last, suite⟩, there, rfl⟩
  · rintro ⟨names, chain, there, rfl⟩
    refine ⟨⟨names, chain.ne_nil, there, rfl⟩, ?_⟩
    obtain ⟨name, last, suite⟩ := chain.append here.place
    rw [Found.name, Found.place_down, last]
    exact suite

/-! ## Searches in turn -/

/-- A place where a regular file stands. -/
def IsFile (tree : FileTree) (place : List String) : Prop :=
  (tree.root.find? place).any FileNode.isRegular

instance (tree : FileTree) (place : List String) : Decidable (IsFile tree place) :=
  inferInstanceAs (Decidable (_ = true))

/-- The files that a match should stand for: itself, or if it is a directory, the suite files
below it. -/
structure IsOf (tree : FileTree) (f : Found) (place : List String) : Prop where
  isFile : IsFile tree place
  there : place = f.place ∨
    f.isDirectory tree.root ∧ ∃ names, IsSuiteChain names ∧ place = f.place ++ names

/-- What holds of the searches of directories that match holds of the search for the pattern: it
succeeds, and each file comes from a match. -/
theorem exists_locateWithin (matched : Glob.find tree pattern = .ok found)
    (names : ∀ f ∈ found, tree.Names f.path f.place)
    (search : ∀ f ∈ found, tree.isDirectory f.path →
      ∃ own, locateWithin tree fuel (searchPattern f.path) = .ok own ∧
        ∀ file ∈ own, ∃ place, tree.Names file place ∧ IsOf tree f place) :
    ∃ files, locateWithin tree (fuel + 1) pattern = .ok files ∧
      ∀ file ∈ files, ∃ f ∈ found, ∃ place, tree.Names file place ∧ IsOf tree f place := by
  have each : ∀ f ∈ found, ∃ own, filesAt tree (locateWithin tree fuel) f = .ok own ∧
      ∀ file ∈ own, ∃ place, tree.Names file place ∧ IsOf tree f place := by
    intro f among
    rcases filesAt_cases tree (locateWithin tree fuel) f with
      ⟨regular, stands⟩ | ⟨directory, stands⟩ | stands
    · have isFile : IsFile tree f.place := FileTree.any_find?_of_node? (names f among) regular
      exact ⟨_, stands, List.forall_mem_singleton.2 ⟨_, names f among, isFile, .inl rfl⟩⟩
    · obtain ⟨own, located, below⟩ := search f among directory
      exact ⟨own, stands.trans located, below⟩
    · exact ⟨[], stands, fun _ => nofun⟩
  obtain ⟨files, located⟩ : ∃ files, locateWithin tree (fuel + 1) pattern = .ok files := by
    rw [locateWithin_succ, searchBy, matched]
    rcases mapM_cases (filesAt tree (locateWithin tree fuel)) found with
      ⟨lists, all, _⟩ | ⟨f, among, e, fails, _⟩
    · refine ⟨lists.flatten, ?_⟩
      show (found.mapM (filesAt tree _) >>= fun lists => pure lists.flatten) = _
      rw [all]
      rfl
    · obtain ⟨own, stands, _⟩ := each f among
      cases stands.symm.trans fails
  refine ⟨files, located, fun file mem => ?_⟩
  obtain ⟨found', matched', _, ways⟩ := exists_of_searchBy located
  obtain rfl := Except.ok.inj (matched.symm.trans matched')
  obtain ⟨f, among, own, stands, isOwn⟩ := (ways file).1 mem
  obtain ⟨own', stands', below⟩ := each f among
  obtain rfl := Except.ok.inj (stands.symm.trans stands')
  exact ⟨f, among, below file isOwn⟩

/-- No wildcard is in the path of a directory, nor in the names that lead from there to the
directories whose names end as those of suite files. -/
structure Clear (tree : FileTree) (d : Found) : Prop where
  path : IsLiteral d.path
  inner : ∀ names, IsSuiteChain names →
    (tree.root.find? (d.place ++ names)).any FileNode.isDirectory → ∀ name ∈ names, IsLiteral name

/-- Whether a directory is clear can be told from what is below it. -/
theorem clear_of_forall_descendants (wellFormed : tree.root.wellFormed)
    (literal : IsLiteral d.path)
    (below : ∀ g ∈ d.descendants tree.root, g.isDirectory tree.root → IsSuiteName g.name →
      ∀ name ∈ g.place.drop d.place.length, IsLiteral name) : Clear tree d := by
  refine ⟨literal, fun names chain directory => ?_⟩
  obtain ⟨node, there, _⟩ := (Option.any_eq_true ..).1 directory
  obtain ⟨name, last, suite⟩ := chain.append d.place
  have among : d.down names ∈ d.descendants tree.root :=
    (Found.mem_descendants_iff wellFormed).2 ⟨names, chain.ne_nil, by rw [there]; rfl, rfl⟩
  have literals := below _ among
  rw [Found.isDirectory, Found.node?, Found.name, Found.place_down, List.drop_left, last]
    at literals
  exact literals directory suite

/-- The search of a clear directory succeeds, and leads to suite files below the directory
only. -/
theorem exists_locateWithin_of_clear (wellFormed : tree.root.wellFormed)
    (sound : d.Sound tree allowed) (directory : tree.isDirectory d.path) (clear : Clear tree d)
    (fuel : Nat) :
    ∃ own, locateWithin tree fuel (searchPattern d.path) = .ok own ∧
      ∀ file ∈ own, ∃ place, tree.Names file place ∧ IsOf tree d place := by
  induction fuel generalizing d allowed with
  | zero => exact ⟨[], rfl, fun _ => nofun⟩
  | succ fuel ih =>
    obtain ⟨here, inner, same, _, literal, matched, members⟩ :=
      find_searchPattern wellFormed sound clear.path
    have innerSound := fun f => Glob.sound_of_mem_find (f := f) wellFormed matched
    -- a directory that is found is clear, since it lies below one that is
    have search : ∀ f ∈ inner, tree.isDirectory f.path →
        ∃ own, locateWithin tree fuel (searchPattern f.path) = .ok own ∧
          ∀ file ∈ own, ∃ place, tree.Names file place ∧ IsOf tree f place := by
      intro f among seen
      obtain ⟨way, chain, _, rfl⟩ := (members f).1 among
      have place : (here.down way).place = d.place ++ way := by rw [Found.place_down, same]
      have isDirectory := FileTree.any_find?_of_node? (innerSound _ among).names seen
      refine ih (innerSound _ among) seen
        ⟨?_, fun more moreChain moreDirectory name isMore => ?_⟩
      · rw [place] at isDirectory
        exact Found.isLiteral_down literal (clear.inner way chain isDirectory)
      · rw [place, List.append_assoc] at moreDirectory
        exact clear.inner (way ++ more) (moreChain.append way) moreDirectory name
          (List.mem_append_right way isMore)
    obtain ⟨files, located, origin⟩ :=
      exists_locateWithin matched (fun f among => (innerSound f among).names) search
    refine ⟨files, located, fun file mem => ?_⟩
    obtain ⟨f, among, place, namesFile, isFile, from'⟩ := origin file mem
    obtain ⟨way, chain, _, rfl⟩ := (members f).1 among
    have isDirectory := FileTree.any_find?_of_node? sound.names directory
    refine ⟨place, namesFile, isFile, .inr ⟨isDirectory, ?_⟩⟩
    rw [Found.place_down, same] at from'
    rcases from' with rfl | ⟨_, more, moreChain, rfl⟩
    · exact ⟨way, chain, rfl⟩
    · exact ⟨way ++ more, moreChain.append way, List.append_assoc ..⟩

/-! ## All that a pattern leads to -/

/-- A suite file below a directory that matches is among the files, if the path of the directory
is literal and the system follows the paths of both. -/
theorem exists_mem_of_isLiteral {files : List String} (wellFormed : tree.root.wellFormed)
    (matched : Glob.find tree pattern = .ok found)
    (located : locateWithin tree (fuel + 2) pattern = .ok files) (among : d ∈ found)
    (directory : tree.isDirectory d.path) (literal : IsLiteral d.path)
    (chain : IsSuiteChain names)
    (isFile : IsFile tree (d.place ++ names)) (fits : Path.Fits (d.down names).path) :
    ∃ file ∈ files, tree.Names file (d.place ++ names) := by
  have sound := Glob.sound_of_mem_find wellFormed matched among
  obtain ⟨here, inner, same, shorter, _, searched, members⟩ :=
    find_searchPattern wellFormed sound literal
  have place : (here.down names).place = d.place ++ names := by rw [Found.place_down, same]
  have there : (tree.root.find? (d.place ++ names)).isSome := by
    obtain ⟨node, stands, _⟩ := (Option.any_eq_true ..).1 isFile
    exact Option.isSome_iff_exists.2 ⟨node, stands⟩
  have below : here.down names ∈ inner := (members _).2 ⟨names, chain, there, rfl⟩
  have innerSound := Glob.sound_of_mem_find wellFormed searched below
  -- the path that the search writes is no longer than the one that fits
  have areNames : ∀ name ∈ names, Path.IsName name := fun name mem =>
    ((Found.walk_down wellFormed there).1 name mem).1
  have regular : tree.isRegular (here.down names).path := by
    have ends := Found.suffix_path_down shorter areNames chain.ne_nil
    rw [FileTree.isRegular, FileTree.node?_of_names innerSound.names innerSound.filled
      (fits.of_suffix ends), place]
    exact isFile
  rw [← place]
  exact ⟨_, mem_of_isDirectory located matched among directory searched below regular,
    innerSound.names⟩

/-- The system follows all paths from the matches to what is below them. -/
def InReach (tree : FileTree) (found : List Found) : Prop :=
  ∀ f ∈ found, ∀ names, (tree.root.find? (f.place ++ names)).isSome →
    Path.Fits (f.down names).path

theorem InReach.fits (inReach : InReach tree found) (among : f ∈ found)
    (there : (tree.root.find? f.place).any test) : Path.Fits f.path := by
  obtain ⟨node, stands, _⟩ := (Option.any_eq_true ..).1 there
  exact inReach f among [] (by rw [List.append_nil, stands]; rfl)

/-- Whether the system follows all paths can be told from what is below the matches. -/
theorem inReach_of_forall_descendants (wellFormed : tree.root.wellFormed)
    (below : ∀ f ∈ found, ∀ g ∈ f :: f.descendants tree.root, Path.Fits g.path) :
    InReach tree found := by
  intro f mem names there
  refine below f mem (f.down names) ?_
  by_cases none : names = []
  · subst none
    exact List.mem_cons_self
  · exact List.mem_cons_of_mem _
      ((Found.mem_descendants_iff wellFormed).2 ⟨names, none, there, rfl⟩)

/-- **Directories are searched exactly,** as far as no wildcard is in their paths. In a tree whose
entries have names of their own, each path that matches names its place, and is followed there by
the system if it is within its limits. The search of a directory with a literal path does not fail
and finds just what stands below it under the name of a suite file, so that every suite file there
is among the files of the pattern. If all directories that match are clear, the pattern leads to
files, each of them a regular file that matches or a suite file below a directory that does; and
as long as no path is too long, these are all such files. -/
theorem locate_directories (wellFormed : tree.root.wellFormed)
    (matched : Glob.find tree pattern = .ok found) :
    (∀ f ∈ found, tree.Names f.path f.place ∧
      (Path.Fits f.path → tree.node? f.path = tree.root.find? f.place)) ∧
    (∀ d ∈ found, IsLiteral d.path → ∃ inner, Glob.find tree (searchPattern d.path) = .ok inner ∧
      ∀ place, (∃ f ∈ inner, f.place = place) ↔ ∃ names, IsSuiteChain names ∧
        place = d.place ++ names ∧ (tree.root.find? place).isSome) ∧
    (∀ files, locate tree pattern = .ok files →
      (∀ f ∈ found, tree.isRegular f.path → f.path ∈ files) ∧
      ∀ d ∈ found, tree.isDirectory d.path → IsLiteral d.path → ∀ names, IsSuiteChain names →
        IsFile tree (d.place ++ names) → Path.Fits (d.down names).path →
          ∃ file ∈ files, tree.Names file (d.place ++ names)) ∧
    ((∀ d ∈ found, tree.isDirectory d.path → Clear tree d) →
      ∃ files, locate tree pattern = .ok files ∧
        (∀ file ∈ files, ∃ f ∈ found, ∃ place, tree.Names file place ∧ IsOf tree f place) ∧
        (InReach tree found → ∀ place, (∃ file ∈ files, tree.Names file place) ↔
          IsFile tree place ∧ ((∃ f ∈ found, f.place = place) ∨
            ∃ d ∈ found, d.isDirectory tree.root ∧
              ∃ names, IsSuiteChain names ∧ place = d.place ++ names))) := by
  have sound := fun f => Glob.sound_of_mem_find (f := f) wellFormed matched
  have seen : ∀ f ∈ found, Path.Fits f.path → tree.node? f.path = tree.root.find? f.place :=
    fun f among => FileTree.node?_of_names (sound f among).names (sound f among).filled
  refine ⟨fun f among => ⟨(sound f among).names, seen f among⟩, fun d among literal => ?_,
    fun files located => ⟨fun f among regular => mem_of_isRegular located matched among regular,
      fun d among directory literal names chain isFile fits =>
        exists_mem_of_isLiteral wellFormed matched located among directory literal chain isFile
          fits⟩,
    fun clear => ?_⟩
  · obtain ⟨here, inner, same, _, _, searched, members⟩ :=
      find_searchPattern wellFormed (sound d among) literal
    refine ⟨inner, searched, fun place => ⟨?_, ?_⟩⟩
    · rintro ⟨f, below, rfl⟩
      obtain ⟨names, chain, there, rfl⟩ := (members f).1 below
      rw [Found.place_down, same]
      exact ⟨names, chain, rfl, there⟩
    · rintro ⟨names, chain, rfl, there⟩
      exact ⟨here.down names, (members _).2 ⟨names, chain, there, rfl⟩, by
        rw [Found.place_down, same]⟩
  · obtain ⟨files, located, origin⟩ := exists_locateWithin matched
      (fun f among => (sound f among).names) fun d among directory =>
        exists_locateWithin_of_clear wellFormed (sound d among) directory
          (clear d among directory) _
    refine ⟨files, located, origin, fun inReach place => ⟨?_, ?_⟩⟩
    · rintro ⟨file, mem, namesFile⟩
      obtain ⟨f, among, place', namesFile', isFile, from'⟩ := origin file mem
      obtain rfl : place' = place := Option.some.inj (namesFile'.symm.trans namesFile)
      refine ⟨isFile, ?_⟩
      rcases from' with rfl | ⟨directory, names, chain, rfl⟩
      · exact .inl ⟨f, among, rfl⟩
      · exact .inr ⟨f, among, directory, names, chain, rfl⟩
    · rintro ⟨isFile, ⟨f, among, rfl⟩ | ⟨d, among, directory, names, chain, rfl⟩⟩
      · have regular : tree.isRegular f.path := by
          rw [FileTree.isRegular, seen f among (inReach.fits among isFile)]
          exact isFile
        exact ⟨f.path, mem_of_isRegular located matched among regular, (sound f among).names⟩
      · have isDirectory : tree.isDirectory d.path := by
          rw [FileTree.isDirectory, seen d among (inReach.fits among directory)]
          exact directory
        obtain ⟨node, there, _⟩ := (Option.any_eq_true ..).1 isFile
        have fits := inReach d among names (Option.isSome_iff_exists.2 ⟨node, there⟩)
        exact exists_mem_of_isLiteral wellFormed matched located among isDirectory
          (clear d among isDirectory).path chain isFile fits

/-- A directory with suite files at two depths, one of them in a directory that is named like
one. -/
theorem locate_directories_nested :
    let tree : FileTree :=
      { root := .directory [("all", .directory
          [("cli.suite.toml", .file [] false),
           ("dir.suite.toml", .directory [("flags.suite.toml", .file [] false)]),
           ("notes.toml", .file [] false)])]
        workingDir := [] }
    tree.root.wellFormed ∧ ∃ files, locate tree "*" = .ok files ∧
      (∃ file ∈ files, tree.Names file ["all", "dir.suite.toml", "flags.suite.toml"]) ∧
      ¬ ∃ file ∈ files, tree.Names file ["all", "notes.toml"] := by
  intro tree
  have wellFormed : tree.root.wellFormed := by decide
  have matched : Glob.find tree "*" = .ok [⟨"all", ["all"]⟩] := by decide
  have clear : ∀ d ∈ [(⟨"all", ["all"]⟩ : Found)], tree.isDirectory d.path → Clear tree d := by
    rw [List.forall_mem_singleton]
    exact fun _ => clear_of_forall_descendants wellFormed (by decide) (by decide)
  have inReach : InReach tree [⟨"all", ["all"]⟩] :=
    inReach_of_forall_descendants wellFormed (by decide +kernel)
  obtain ⟨_, _, _, exactly⟩ := locate_directories wellFormed matched
  obtain ⟨files, located, _, places⟩ := exactly clear
  refine ⟨wellFormed, files, located, (places inReach _).2 ⟨by decide, .inr ?_⟩, fun named => ?_⟩
  · exact ⟨_, List.mem_singleton_self _, by decide, ["dir.suite.toml", "flags.suite.toml"],
      ⟨"flags.suite.toml", rfl, by decide⟩, rfl⟩
  · obtain ⟨_, ⟨f, among, same⟩ | ⟨d, among, _, names, ⟨name, last, suite⟩, same⟩⟩ :=
      (places inReach _).1 named
    · rw [List.mem_singleton.1 among] at same
      exact absurd same (by decide)
    · rw [List.mem_singleton.1 among] at same
      obtain rfl : ["notes.toml"] = names := (List.cons.inj same).2
      rw [← Option.some.inj last] at suite
      exact absurd suite (by decide)

/-- A directory with a bracket in its name is not searched: its path is another pattern, or
none. -/
theorem locate_misses_bracket :
    let files : FileNode := .directory [("x.suite.toml", .file [] false)]
    let closed : FileTree := { root := .directory [("[a]", files)], workingDir := [] }
    let opened : FileTree := { root := .directory [("x[", files)], workingDir := [] }
    Glob.find closed "*" = .ok [⟨"[a]", ["[a]"]⟩] ∧
      IsFile closed ["[a]", "x.suite.toml"] ∧ locate closed "*" = .ok [] ∧
      Glob.find opened "*" = .ok [⟨"x[", ["x["]⟩] ∧
      locate opened "*" = .error ⟨.openClass, 1⟩ := by
  intro files closed opened
  decide

end CommandSuite.SuiteFiles
