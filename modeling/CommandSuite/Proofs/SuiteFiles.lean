import CommandSuite.Proofs.ExitCode
import CommandSuite.Proofs.Path.Location
import Mathlib.Data.List.Sort

/-!
# What patterns stand for together

Each pattern stands for paths of its own, and the suite files of several patterns are the union of
these, in the order of the paths. So neither the order in which patterns are given nor how often
matters, and no pattern is without effect.

* `SuiteFiles.Leads` says without fuel and accumulators which files a pattern leads to, and
  `SuiteFiles.StandsFor` what becomes of a pattern that can be followed.
* `SuiteFiles.expand_patterns_union` puts this together, up to the registry and the run of the
  program.
-/

namespace CommandSuite

namespace SuiteFiles

variable {tree : FileTree} {here pattern : String} {patterns : List String}
  {paths : List RelativePath}

/-! ## What a pattern leads to -/

/-- The files that a pattern leads to: those that match, and those that the search of a directory
leads to which matches. -/
inductive Leads (tree : FileTree) : String → String → Prop
  | file {pattern : String} {found : List Glob.Found} {f : Glob.Found}
      (matched : Glob.find tree pattern = .ok found) (among : f ∈ found)
      (regular : tree.isRegular f.path) : Leads tree pattern f.path
  | inside {pattern file : String} {found : List Glob.Found} {f : Glob.Found}
      (matched : Glob.find tree pattern = .ok found) (among : f ∈ found)
      (directory : tree.isDirectory f.path) (search : Leads tree (searchPattern f.path) file) :
      Leads tree pattern file

/-- The files that one match stands for, given the searches of directories. -/
def filesAt (tree : FileTree) (search : String → Except Glob.PatternError (List String))
    (f : Glob.Found) : Except Glob.PatternError (List String) :=
  if tree.isRegular f.path then .ok [f.path]
  else if tree.isDirectory f.path then search (searchPattern f.path)
  else .ok []

variable {search : String → Except Glob.PatternError (List String)} {f : Glob.Found}

theorem filesAt_of_isRegular (regular : tree.isRegular f.path) :
    filesAt tree search f = .ok [f.path] := if_pos regular

theorem filesAt_of_isDirectory (directory : tree.isDirectory f.path) :
    filesAt tree search f = search (searchPattern f.path) := by
  have notRegular : ¬ tree.isRegular f.path := by
    unfold FileTree.isDirectory at directory
    unfold FileTree.isRegular
    obtain ⟨node, there, isDirectory⟩ := (Option.any_eq_true ..).1 directory
    rw [there, Option.any_some]
    cases node <;> simp [FileNode.isDirectory, FileNode.isRegular] at isDirectory ⊢
  rw [filesAt, if_neg notRegular, if_pos directory]

/-- A match is a file, or it is a directory that is searched, or it stands for nothing. -/
theorem filesAt_cases (tree : FileTree) (search : String → Except Glob.PatternError (List String))
    (f : Glob.Found) :
    tree.isRegular f.path ∧ filesAt tree search f = .ok [f.path] ∨
    tree.isDirectory f.path ∧ filesAt tree search f = search (searchPattern f.path) ∨
    filesAt tree search f = .ok [] := by
  by_cases regular : tree.isRegular f.path
  · exact .inl ⟨regular, filesAt_of_isRegular regular⟩
  · by_cases directory : tree.isDirectory f.path
    · exact .inr (.inl ⟨directory, filesAt_of_isDirectory directory⟩)
    · exact .inr (.inr (by rw [filesAt, if_neg regular, if_neg directory]))

/-- The files of a pattern, given the searches of directories. -/
def searchBy (tree : FileTree) (search : String → Except Glob.PatternError (List String))
    (pattern : String) : Except Glob.PatternError (List String) := do
  let found ← Glob.find tree pattern
  let files ← found.mapM (filesAt tree search)
  return files.flatten

theorem locateWithin_succ (tree : FileTree) (fuel : Nat) :
    locateWithin tree (fuel + 1) = searchBy tree (locateWithin tree fuel) := rfl

/-- A search that succeeds has followed every match, and gives what the matches stand for. -/
theorem exists_of_searchBy {files : List String}
    (located : searchBy tree search pattern = .ok files) :
    ∃ found, Glob.find tree pattern = .ok found ∧
      (∀ f ∈ found, ∃ own, filesAt tree search f = .ok own) ∧
      ∀ file, file ∈ files ↔
        ∃ f ∈ found, ∃ own, filesAt tree search f = .ok own ∧ file ∈ own := by
  obtain ⟨found, matched, located⟩ := exists_of_bind_eq_ok located
  obtain ⟨lists, followed, flat⟩ := exists_of_bind_eq_ok located
  obtain rfl : lists.flatten = files := Except.ok.inj flat
  rcases mapM_cases (filesAt tree search) found with
    ⟨lists', followed', all, mem⟩ | ⟨f, _, e, _, fails⟩
  · obtain rfl := Except.ok.inj (followed.symm.trans followed')
    refine ⟨found, matched, all, fun file => ?_⟩
    rw [List.mem_flatten]
    constructor
    · rintro ⟨own, among, mem'⟩
      obtain ⟨f, amongFound, stands⟩ := (mem own).1 among
      exact ⟨f, amongFound, own, stands, mem'⟩
    · rintro ⟨f, amongFound, own, stands, mem'⟩
      exact ⟨own, (mem own).2 ⟨f, amongFound, stands⟩, mem'⟩
  · cases followed.symm.trans fails

theorem leads_of_mem_locateWithin {fuel : Nat} {files : List String} {file : String}
    (located : locateWithin tree fuel pattern = .ok files) (mem : file ∈ files) :
    Leads tree pattern file := by
  induction fuel generalizing pattern files with
  | zero =>
    obtain rfl : [] = files := Except.ok.inj located
    cases mem
  | succ fuel ih =>
    -- the match through which the file came, and what stands there
    obtain ⟨found, matched, _, ways⟩ := exists_of_searchBy located
    obtain ⟨f, among, own, stands, mem⟩ := (ways file).1 mem
    rcases filesAt_cases tree (locateWithin tree fuel) f with
      ⟨regular, alone⟩ | ⟨directory, searched⟩ | nothing
    · obtain rfl := Except.ok.inj (alone.symm.trans stands)
      rw [List.mem_singleton.1 mem]
      exact .file matched among regular
    · exact .inside matched among directory (ih (searched.symm.trans stands) mem)
    · obtain rfl := Except.ok.inj (nothing.symm.trans stands)
      cases mem

theorem mem_of_isRegular {files : List String} {found : List Glob.Found}
    (located : searchBy tree search pattern = .ok files)
    (matched : Glob.find tree pattern = .ok found) (among : f ∈ found)
    (regular : tree.isRegular f.path) : f.path ∈ files := by
  obtain ⟨found', matched', _, ways⟩ := exists_of_searchBy located
  obtain rfl := Except.ok.inj (matched.symm.trans matched')
  exact (ways f.path).2
    ⟨f, among, [f.path], filesAt_of_isRegular regular, List.mem_singleton_self f.path⟩

/-- A file that the search of a directory finds is found by a pattern that the directory
matches. -/
theorem mem_of_isDirectory {fuel : Nat} {files : List String} {found inner : List Glob.Found}
    {d : Glob.Found} (located : locateWithin tree (fuel + 2) pattern = .ok files)
    (matched : Glob.find tree pattern = .ok found) (among : d ∈ found)
    (directory : tree.isDirectory d.path)
    (searched : Glob.find tree (searchPattern d.path) = .ok inner) (below : f ∈ inner)
    (regular : tree.isRegular f.path) : f.path ∈ files := by
  obtain ⟨found', matched', all, ways⟩ := exists_of_searchBy located
  obtain rfl := Except.ok.inj (matched.symm.trans matched')
  obtain ⟨own, stands⟩ := all d among
  refine (ways f.path).2 ⟨d, among, own, stands, ?_⟩
  rw [filesAt_of_isDirectory directory] at stands
  exact mem_of_isRegular stands searched below regular

/-! ## What patterns stand for -/

theorem exists_expand_iff :
    (∃ paths, expand tree here patterns = .ok paths) ↔
      ∀ pattern ∈ patterns, ∃ own, ofPattern tree here pattern = .ok own := by
  rcases expand_cases tree here patterns with
    ⟨paths, expanded, _, each, _⟩ | ⟨p, among, e, fails, all⟩
  · exact ⟨fun _ => each, fun _ => ⟨paths, expanded⟩⟩
  · constructor
    · rintro ⟨paths, expanded⟩
      cases expanded.symm.trans all
    · intro each
      obtain ⟨own, stands⟩ := each p among
      cases stands.symm.trans fails

theorem expand_singleton_eq_error_iff {e : Glob.PatternError} :
    expand tree here [pattern] = .error e ↔ ofPattern tree here pattern = .error e := by
  rcases expand_cases tree here [pattern] with
    ⟨paths, expanded, _, each, _⟩ | ⟨p, among, e', fails, all⟩
  · obtain ⟨own, stands⟩ := each pattern (List.mem_singleton_self pattern)
    rw [expanded, stands]
    exact ⟨nofun, nofun⟩
  · obtain rfl := List.mem_singleton.1 among
    rw [fails, all]

theorem exists_of_expand_error {e : Glob.PatternError}
    (expanded : expand tree here patterns = .error e) :
    ∃ pattern ∈ patterns, expand tree here [pattern] = .error e := by
  rcases expand_cases tree here patterns with ⟨paths, expanded', _⟩ | ⟨p, among, e', fails, all⟩
  · cases expanded.symm.trans expanded'
  · obtain rfl := Except.error.inj (expanded.symm.trans all)
    exact ⟨p, among, expand_singleton_eq_error_iff.2 fails⟩

theorem expand_error_of_mem {e : Glob.PatternError} (among : pattern ∈ patterns)
    (expanded : expand tree here [pattern] = .error e) :
    ∃ e, expand tree here patterns = .error e := by
  rcases expand_cases tree here patterns with ⟨paths, _, _, each, _⟩ | ⟨_, _, e', _, all⟩
  · obtain ⟨own, stands⟩ := each pattern among
    cases stands.symm.trans (expand_singleton_eq_error_iff.1 expanded)
  · exact ⟨e', all⟩

/-- Paths in their order, each once, are one list for each set of paths. -/
theorem eq_of_pairwise_before {as bs : List RelativePath}
    (ordered : as.Pairwise fun p q => p.before q) (ordered' : bs.Pairwise fun p q => p.before q)
    (same : ∀ path, path ∈ as ↔ path ∈ bs) : as = bs := by
  -- a strict order is irreflexive, and antisymmetric since no two paths are before each other
  have irrefl (p : RelativePath) : ¬ p.before p := by
    rw [RelativePath.before_irrefl]
    exact Bool.false_ne_true
  have : Std.Irrefl fun p q : RelativePath => (p.before q : Prop) := ⟨irrefl⟩
  have : Std.Antisymm fun p q : RelativePath => (p.before q : Prop) :=
    ⟨fun p q less more => (irrefl p (RelativePath.before_trans less more)).elim⟩
  exact ordered.eq_of_mem_iff ordered' same

theorem expand_eq_of_same {ps qs : List String} (same : ∀ pattern, pattern ∈ ps ↔ pattern ∈ qs)
    (expanded : expand tree here ps = .ok paths) : expand tree here qs = .ok paths := by
  obtain ⟨paths', expanded'⟩ : ∃ paths', expand tree here qs = .ok paths' := by
    have each := exists_expand_iff.1 ⟨paths, expanded⟩
    exact exists_expand_iff.2 fun pattern among => each pattern ((same pattern).2 among)
  have members : ∀ path, path ∈ paths' ↔ path ∈ paths := by
    intro path
    rw [mem_expand_iff expanded, mem_expand_iff expanded']
    simp only [same]
  rw [expanded']
  congr 1
  exact eq_of_pairwise_before (pairwise_expand expanded') (pairwise_expand expanded) members

theorem expand_append {ps qs : List String} {paths' : List RelativePath}
    (expanded : expand tree here ps = .ok paths) (expanded' : expand tree here qs = .ok paths') :
    ∃ all, expand tree here (ps ++ qs) = .ok all ∧
      ∀ path, path ∈ all ↔ path ∈ paths ∨ path ∈ paths' := by
  have each := exists_expand_iff.1 ⟨paths, expanded⟩
  have each' := exists_expand_iff.1 ⟨paths', expanded'⟩
  obtain ⟨all, expandedAll⟩ : ∃ all, expand tree here (ps ++ qs) = .ok all :=
    exists_expand_iff.2 (List.forall_mem_append.2 ⟨each, each'⟩)
  refine ⟨all, expandedAll, fun path => ?_⟩
  rw [mem_expand_iff expanded, mem_expand_iff expanded', mem_expand_iff expandedAll]
  simp only [List.mem_append, or_and_right, exists_or]

/-- What each pattern stands for by itself is among what all of them stand for. -/
theorem exists_expand_singleton (expanded : expand tree here patterns = .ok paths)
    (among : pattern ∈ patterns) :
    ∃ own, expand tree here [pattern] = .ok own ∧ ∀ path ∈ own, path ∈ paths := by
  have each := exists_expand_iff.1 ⟨paths, expanded⟩
  obtain ⟨own, alone⟩ : ∃ own, expand tree here [pattern] = .ok own :=
    exists_expand_iff.2 (List.forall_mem_singleton.2 (each pattern among))
  refine ⟨own, alone, fun path isOwn => ?_⟩
  obtain ⟨p, same, list, stands, isPath⟩ := (mem_expand_iff alone).1 isOwn
  obtain rfl := List.mem_singleton.1 same
  exact (mem_expand_iff expanded).2 ⟨p, among, list, stands, isPath⟩

/-- A pattern that can be followed stands for the files that it leads to, or for itself if there
are none: every file that matches, and every file that the search of a matching directory finds,
has its way among the suite files, and nothing else has. -/
structure StandsFor (tree : FileTree) (here pattern : String) (files : List String)
    (paths : List RelativePath) : Prop where
  located : locate tree pattern = .ok files
  -- directories among the results of a search are searched in turn
  leads : ∀ file ∈ files, Leads tree pattern file
  matched : ∀ found, Glob.find tree pattern = .ok found → ∀ f ∈ found,
    tree.isRegular f.path → f.path ∈ files
  searched : ∀ found, Glob.find tree pattern = .ok found → ∀ d ∈ found,
    tree.isDirectory d.path → ∀ inner, Glob.find tree (searchPattern d.path) = .ok inner →
      ∀ f ∈ inner, tree.isRegular f.path → f.path ∈ files
  ways : ∀ path, path ∈ paths ↔
    ∃ file ∈ if files.isEmpty then [pattern] else files, relativeTo file here = some path
  kept : ∀ file ∈ if files.isEmpty then [pattern] else files,
    ∃ path ∈ paths, relativeTo file here = some path
  nonempty : paths ≠ []

/-- A pattern that can be followed stands for something. -/
theorem exists_standsFor (absolute : Path.isAbsolute here)
    (plain : Path.Component.up ∉ Path.components here)
    (expanded : expand tree here [pattern] = .ok paths) :
    ∃ files, StandsFor tree here pattern files paths := by
  obtain ⟨own, stands⟩ := exists_expand_iff.1 ⟨paths, expanded⟩ pattern (by simp)
  have members : ∀ path, path ∈ paths ↔ path ∈ own := by
    intro path
    rw [mem_expand_iff expanded]
    simp [stands]
  rw [ofPattern] at stands
  obtain ⟨files, located, chosen⟩ := exists_of_bind_eq_ok stands
  have ways : ∀ path, path ∈ paths ↔
      ∃ file ∈ if files.isEmpty then [pattern] else files, relativeTo file here = some path := by
    intro path
    rw [members, ← Except.ok.inj chosen, List.mem_filterMap]
  have kept : ∀ file ∈ if files.isEmpty then [pattern] else files,
      ∃ path ∈ paths, relativeTo file here = some path := by
    intro file among
    obtain ⟨path, way, _⟩ := exists_relativeTo absolute plain file
    exact ⟨path, (ways path).2 ⟨file, among, way⟩, way⟩
  refine ⟨files, located, fun file => leads_of_mem_locateWithin located,
    fun found matched f among regular => mem_of_isRegular located matched among regular,
    fun found matched d among directory inner searched f below regular =>
      mem_of_isDirectory located matched among directory searched below regular,
    ways, kept, ?_⟩
  -- the list that the paths come from is not empty, and none of it is lost
  obtain ⟨file, among⟩ : ∃ file, file ∈ if files.isEmpty then [pattern] else files := by
    cases files with
    | nil => exact ⟨pattern, List.mem_singleton_self pattern⟩
    | cons file files => exact ⟨file, List.mem_cons_self⟩
  obtain ⟨path, isPath, _⟩ := kept file among
  exact List.ne_nil_of_mem isPath

end SuiteFiles

/-! ## What the program builds from them -/

namespace Program

/-- The registry with the cases that every compiler must pass and those of the suite files that
the patterns stand for, file after file. -/
def registryOf (tree : FileTree) (config : Config) (here : String) (patterns : List String) :
    Except Glob.PatternError Registry := do
  let paths ← SuiteFiles.expand tree here patterns
  return (Registry.withBuiltin config).registerAll
    (suiteCases (loadSuites tree config here paths))

variable {tree : FileTree} {here : String} {paths : List RelativePath}

theorem registryOf_of_expand {patterns : List String}
    (expanded : SuiteFiles.expand tree here patterns = .ok paths) (config : Config) :
    registryOf tree config here patterns =
      .ok ((Registry.withBuiltin config).registerAll
        (suiteCases (loadSuites tree config here paths))) := by
  unfold registryOf
  rw [expanded]
  rfl

/-- This registry is the one that the program runs, if it runs any. -/
theorem runUnder_of_registryOf {m : Type → Type} [Monad m] {arguments : Arguments}
    {searchPath : Option String} {registry : Registry} (available : tree.currentDir = .ok here)
    (expanded : SuiteFiles.expand tree here arguments.suites = .ok paths)
    (built :
      registryOf tree (arguments.config tree searchPath) here arguments.suites = .ok registry)
    (schedule : List Nat) (colored : Bool) (execute : Executor m) :
    let reports := suiteReports (loadSuites tree (arguments.config tree searchPath) here paths)
    runUnder schedule arguments tree searchPath colored execute =
      if reports.isEmpty then runCases schedule arguments colored registry execute
      else pure (refuse reports) := by
  have same := (registryOf_of_expand expanded (arguments.config tree searchPath)).symm.trans built
  rw [← Except.ok.inj same]
  exact runUnder_of_expand_ok available expanded schedule searchPath colored execute

/-- Nothing but the suite files that they stand for is seen of the patterns. -/
theorem runUnder_eq_of_expand {m : Type → Type} [Monad m] {ps qs : List String}
    (available : tree.currentDir = .ok here)
    (expanded : SuiteFiles.expand tree here ps = .ok paths)
    (expanded' : SuiteFiles.expand tree here qs = .ok paths) (schedule : List Nat)
    (arguments : Arguments) (searchPath : Option String) (colored : Bool) (execute : Executor m) :
    runUnder schedule { arguments with suites := ps } tree searchPath colored execute =
      runUnder schedule { arguments with suites := qs } tree searchPath colored execute := by
  -- neither the configuration nor the report depends on the patterns
  have config : ∀ patterns,
      ({ arguments with suites := patterns } : Arguments).config tree searchPath =
        arguments.config tree searchPath := fun _ => rfl
  have built := registryOf_of_expand expanded (arguments.config tree searchPath)
  have built' := registryOf_of_expand expanded' (arguments.config tree searchPath)
  rw [← config ps] at built
  rw [← config qs] at built'
  rw [runUnder_of_registryOf available expanded built,
    runUnder_of_registryOf available expanded' built', config, config]
  rfl

end Program

namespace SuiteFiles

open Program (registryOf runUnder)

/-- **Patterns stand for the union of what each stands for.** They fail if one of them fails, and
as that one does; otherwise each of them stands for something, and the suite files of two lists of
patterns together are those of both. So the suite files, the registry that is built from them and
the run of the program are the same for every order of the patterns and every number of times that
one is given. -/
theorem expand_patterns_union {here : String} (absolute : Path.isAbsolute here)
    (plain : Path.Component.up ∉ Path.components here) (tree : FileTree) :
    (∀ patterns,
      ((∃ e, expand tree here patterns = .error e) ↔
        ∃ pattern ∈ patterns, ∃ e, expand tree here [pattern] = .error e) ∧
      ∀ e, expand tree here patterns = .error e →
        ∃ pattern ∈ patterns, expand tree here [pattern] = .error e) ∧
    (∀ ps qs paths paths', expand tree here ps = .ok paths → expand tree here qs = .ok paths' →
      ∃ all, expand tree here (ps ++ qs) = .ok all ∧
        ∀ path, path ∈ all ↔ path ∈ paths ∨ path ∈ paths') ∧
    (∀ patterns paths, expand tree here patterns = .ok paths → ∀ pattern ∈ patterns,
      ∃ files own, expand tree here [pattern] = .ok own ∧ (∀ path ∈ own, path ∈ paths) ∧
        StandsFor tree here pattern files own) ∧
    ∀ ps qs, (∀ pattern, pattern ∈ ps ↔ pattern ∈ qs) →
      ((∃ e, expand tree here ps = .error e) ↔ ∃ e, expand tree here qs = .error e) ∧
      ∀ paths, expand tree here ps = .ok paths →
        expand tree here qs = .ok paths ∧
        (∀ config, ∃ registry, registryOf tree config here ps = .ok registry ∧
          registryOf tree config here qs = .ok registry) ∧
        ∀ (m : Type → Type) [Monad m], tree.currentDir = .ok here →
          ∀ schedule (arguments : Arguments) searchPath colored (execute : Executor m),
          runUnder schedule { arguments with suites := ps } tree searchPath colored execute =
            runUnder schedule { arguments with suites := qs } tree searchPath
              colored execute := by
  have fails : ∀ patterns, (∃ e, expand tree here patterns = .error e) ↔
      ∃ pattern ∈ patterns, ∃ e, expand tree here [pattern] = .error e := by
    intro patterns
    constructor
    · rintro ⟨e, expanded⟩
      obtain ⟨pattern, among, own⟩ := exists_of_expand_error expanded
      exact ⟨pattern, among, e, own⟩
    · rintro ⟨pattern, among, e, expanded⟩
      exact expand_error_of_mem among expanded
  refine ⟨fun patterns => ⟨fails patterns, fun e => exists_of_expand_error⟩,
    fun ps qs paths paths' => expand_append, fun patterns paths expanded pattern among => ?_,
    fun ps qs same => ⟨?_, fun paths expanded => ?_⟩⟩
  · obtain ⟨own, alone, kept⟩ := exists_expand_singleton expanded among
    obtain ⟨files, stands⟩ := exists_standsFor absolute plain alone
    exact ⟨files, own, alone, kept, stands⟩
  · rw [fails, fails]
    simp only [same]
  · have expanded' := expand_eq_of_same same expanded
    have built := Program.registryOf_of_expand expanded
    have built' := Program.registryOf_of_expand expanded'
    exact ⟨expanded', fun config => ⟨_, built config, built' config⟩, fun m _ available =>
      Program.runUnder_eq_of_expand available expanded expanded'⟩

/-- A directory that is searched, and a pattern that leads to no file, given once and twice. -/
theorem expand_patterns_union_repeated :
    let tree : FileTree :=
      { root := .directory [("suites", .directory [("cli.suite.toml", .file [] false)])]
        workingDir := [] }
    let paths : List RelativePath :=
      [⟨[.name "none"]⟩, ⟨[.name "suites", .name "cli.suite.toml"]⟩]
    Path.isAbsolute "/" ∧ Path.Component.up ∉ Path.components "/" ∧
      expand tree "/" ["suites", "none"] = .ok paths ∧
      expand tree "/" ["none", "suites", "none"] = .ok paths ∧
      ∃ files own, StandsFor tree "/" "none" files own := by
  intro tree paths
  have absolute : Path.isAbsolute "/" := by decide
  have plain : Path.Component.up ∉ Path.components "/" := by decide
  have evaluated : (expand tree "/" ["suites", "none"]).toOption = some paths := by decide +kernel
  have expanded : expand tree "/" ["suites", "none"] = .ok paths := by
    cases result : expand tree "/" ["suites", "none"] with
    | error e => rw [result] at evaluated; cases evaluated
    | ok paths' => rw [result] at evaluated; exact congrArg _ (Option.some.inj evaluated)
  obtain ⟨_, _, each, order⟩ := expand_patterns_union absolute plain tree
  obtain ⟨files, own, _, _, stands⟩ := each _ _ expanded "none" (by simp)
  have same : ∀ pattern, pattern ∈ ["suites", "none"] ↔ pattern ∈ ["none", "suites", "none"] := by
    simp
  exact ⟨absolute, plain, expanded, ((order _ _ same).2 paths expanded).1, files, own, stands⟩

end SuiteFiles

end CommandSuite
