import CommandSuite.Proofs.Glob.Search
import CommandSuite.Proofs.SuiteFiles

/-!
# How often a suite file is read

Suite files are a set of relative paths, and each of them is read where it leads to from the
working directory. So a file is read twice if two of its ways are in the set.

* `directWay_of_isStraight`: a way that goes up first and then down, and not back into what it has
  left, is the only such way to where it leads; `isStraight_of_up_notMem`: the way to a path
  without `..` is one.
* `SuiteFiles.not_climbs_of_leads`: what patterns without `..` lead to has none either, as far as
  no name in the tree means it when it is read as a pattern.
* `SuiteFiles.expand_distinct` puts this together for the set.
-/

namespace CommandSuite

open CommandSuite.Path (Component)

/-! ## Straight ways -/

/-- The component that a step is written as. -/
def Step.component : Step → Component
  | up => .up
  | name s => .name s

/-- The way goes up first, but not beyond the root, and then down by names, the first of which is
not the one that it has left: some names of the directory are kept, and the others are left. -/
def RelativePath.IsStraight (base : List String) (path : RelativePath) : Prop :=
  ∃ kept left down : List String, base = kept ++ left ∧
    path.steps = left.map (fun _ => Step.up) ++ down.map Step.name ∧
    ∀ s ∈ left.head?, s ∉ down.head?

/-- The way from a directory to a location, as it is taken to a path without `..`. -/
def directWay (here : String) (location : List String) : Option RelativePath :=
  (difference (.root :: location.map .name) (Path.components here)).bind
    RelativePath.ofComponents?

/-- What both paths have in common at their start is left out of the way. -/
theorem difference_append (front : List Component) (path base : List Component) :
    difference (front ++ path) (front ++ base) = difference path base := by
  induction front with
  | nil => rfl
  | cons c front ih => rw [List.cons_append, List.cons_append, difference, if_pos rfl, ih]

theorem difference_of_head?_ne {left down : List String}
    (part : ∀ s ∈ left.head?, s ∉ down.head?) :
    difference (down.map .name) (left.map .name) =
      some (left.map (fun _ => Component.up) ++ down.map .name) := by
  cases left with
  | nil => cases down <;> rfl
  | cons s left =>
    cases down with
    | nil =>
      rw [List.map_nil, difference, List.append_nil, List.map_map]
      rfl
    | cons t down =>
      have differ : Component.name t ≠ .name s := by
        intro same
        exact part s rfl (by rw [Component.name.inj same]; rfl)
      rw [List.map_cons, List.map_cons, difference, if_neg differ, if_neg (by simp), List.map_map]
      rfl

theorem exists_common_front (base location : List String) :
    ∃ kept left down, base = kept ++ left ∧ location = kept ++ down ∧
      ∀ s ∈ left.head?, s ∉ down.head? := by
  induction base generalizing location with
  | nil => exact ⟨[], [], location, rfl, rfl, by simp⟩
  | cons s base ih =>
    cases location with
    | nil => exact ⟨[], s :: base, [], rfl, rfl, by simp⟩
    | cons t location =>
      by_cases same : s = t
      · obtain ⟨kept, left, down, rfl, rfl, part⟩ := ih location
        exact ⟨s :: kept, left, down, rfl, by rw [same]; rfl, part⟩
      · exact ⟨[], s :: base, t :: location, rfl, rfl, by simpa using Ne.symm same⟩

theorem ofComponents?_map_component (steps : List Step) :
    RelativePath.ofComponents? (steps.map Step.component) = some ⟨steps⟩ := by
  induction steps with
  | nil => rfl
  | cons step steps ih =>
    obtain ⟨lists, all, flat⟩ := Option.map_eq_some_iff.1 ih
    have same : lists.flatten = steps := congrArg RelativePath.steps flat
    cases step <;> simp [RelativePath.ofComponents?, Step.component, all, same]

variable {here : String}

/-- The direct way to what lies behind the names that are kept. -/
theorem directWay_append (absolute : Path.isAbsolute here)
    (plain : Component.up ∉ Path.components here) {kept left down : List String}
    (base : Path.location here = kept ++ left) (part : ∀ s ∈ left.head?, s ∉ down.head?) :
    directWay here (kept ++ down) = some ⟨left.map (fun _ => Step.up) ++ down.map Step.name⟩ := by
  have way : difference (.root :: (kept ++ down).map .name) (Path.components here) =
      some (left.map (fun _ => Component.up) ++ down.map .name) := by
    have behind := difference_append (.root :: kept.map .name) (down.map .name) (left.map .name)
    rw [Path.components_of_isAbsolute absolute plain, base, List.map_append, List.map_append,
      ← List.cons_append, ← List.cons_append, behind, difference_of_head?_ne part]
  have written := ofComponents?_map_component (left.map (fun _ => Step.up) ++ down.map Step.name)
  rw [List.map_append, List.map_map, List.map_map] at written
  rw [directWay, way]
  exact written

/-- To every location there is a direct way, and it is straight. -/
theorem exists_directWay (absolute : Path.isAbsolute here)
    (plain : Component.up ∉ Path.components here) (location : List String) :
    ∃ path, directWay here location = some path ∧ path.IsStraight (Path.location here) := by
  obtain ⟨kept, left, down, base, rfl, part⟩ := exists_common_front (Path.location here) location
  exact ⟨_, directWay_append absolute plain base part, kept, left, down, base, rfl, part⟩

/-- **A straight way is the direct one** to where it leads, and so the only straight one. -/
theorem directWay_of_isStraight (absolute : Path.isAbsolute here)
    (plain : Component.up ∉ Path.components here) {path : RelativePath}
    (straight : path.IsStraight (Path.location here)) :
    directWay here (path.steps.foldl Step.enter (Path.location here)) = some path := by
  obtain ⟨steps⟩ := path
  obtain ⟨kept, left, down, base, rfl, part⟩ := straight
  have components : (left.map (fun _ => Step.up) ++ down.map Step.name).map Step.component =
      left.map (fun _ => Component.up) ++ down.map .name := by
    rw [List.map_append, List.map_map, List.map_map]
    rfl
  have noRoot : Component.root ∉ left.map (fun _ => Component.up) ++ down.map .name := by simp
  obtain ⟨path, read, leads, _⟩ := RelativePath.exists_ofComponents? noRoot
  rw [← components, ofComponents?_map_component] at read
  obtain rfl := Option.some.inj read
  rw [leads, base, Path.foldl_enter_undone, Path.foldl_enter_names]
  exact directWay_append absolute plain base part

theorem ofComponents?_here (cs : List Component) :
    RelativePath.ofComponents? (.here :: cs) = RelativePath.ofComponents? cs := by
  cases read : RelativePath.ofComponents? cs with
  | none =>
    have none := Option.map_eq_none_iff.1 read
    simp [RelativePath.ofComponents?, none]
  | some path =>
    obtain ⟨lists, all, flat⟩ := Option.map_eq_some_iff.1 read
    simp [RelativePath.ofComponents?, all, ← flat]

/-- A path without `..` is reached by the direct way. -/
theorem relativeTo_eq_directWay (absolute : Path.isAbsolute here)
    (plain : Component.up ∉ Path.components here) {file : String}
    (forth : Component.up ∉ Path.components file) :
    relativeTo file here = directWay here (Path.location (Path.join here file)) := by
  rw [relativeTo, directWay]
  cases rooted : Path.isAbsolute file with
  | true => rw [if_pos rfl, if_pos absolute, Path.join, if_pos rooted,
      Path.components_of_isAbsolute rooted forth]
  | false =>
    obtain ⟨names, read⟩ : ∃ names : List String,
        (Text.pieces '/' file).filterMap Component.ofPiece? = names.map .name := by
      refine Path.exists_names_of_up_notMem fun mem => forth ?_
      rw [Path.components]
      exact List.mem_append_right _ mem
    have own : Path.components file = names.map .name ∨
        Path.components file = .here :: names.map .name := by
      rw [Path.components, rooted, if_neg Bool.false_ne_true, read]
      split
      · exact .inr rfl
      · exact .inl rfl
    have place : Path.location (Path.join here file) = Path.location here ++ names := by
      rw [Path.location_join here rooted, ← Path.foldl_enter_components]
      rcases own with same | same
      · rw [same, Path.foldl_enter_names]
      · rw [same, List.foldl_cons, Path.enter, Path.foldl_enter_names]
    have way : difference (.root :: (Path.location here ++ names).map .name)
        (Path.components here) =
        some (names.map .name) := by
      have behind :=
        difference_append (.root :: (Path.location here).map .name) (names.map .name) []
      rw [List.append_nil] at behind
      rw [Path.components_of_isAbsolute absolute plain, List.map_append,
        ← List.cons_append, behind]
      cases names <;> rfl
    rw [if_neg Bool.false_ne_true, place, way, Option.bind_some]
    rcases own with same | same
    · rw [same]
    · rw [same, ofComponents?_here]

theorem isStraight_of_up_notMem (absolute : Path.isAbsolute here)
    (plain : Component.up ∉ Path.components here) {file : String} {path : RelativePath}
    (way : relativeTo file here = some path) (forth : Component.up ∉ Path.components file) :
    path.IsStraight (Path.location here) := by
  obtain ⟨direct, found, straight⟩ :=
    exists_directWay absolute plain (Path.location (Path.join here file))
  rw [← relativeTo_eq_directWay absolute plain forth, way] at found
  rw [Option.some.inj found]
  exact straight

/-! ## What a way resolves to -/

/-- The way to a path leads where the path leads, and through names. -/
theorem leads_of_relativeTo (absolute : Path.isAbsolute here)
    (plain : Component.up ∉ Path.components here) {file : String} {path : RelativePath}
    (way : relativeTo file here = some path) :
    path.steps.foldl Step.enter (Path.location here) = Path.location (Path.join here file) ∧
      ∀ s, Step.name s ∈ path.steps → Path.IsName s := by
  obtain ⟨path', found, leads⟩ := exists_relativeTo absolute plain file
  obtain rfl := Option.some.inj (way.symm.trans found)
  exact leads

/-- Two ways resolve to one path exactly if the paths that they are the ways to have one
location. -/
theorem logicalPath_eq_iff (absolute : Path.isAbsolute here)
    (plain : Component.up ∉ Path.components here) {a b : String} {p q : RelativePath}
    (way : relativeTo a here = some p) (way' : relativeTo b here = some q) :
    p.logicalPath here = q.logicalPath here ↔
      Path.location (Path.join here a) = Path.location (Path.join here b) := by
  obtain ⟨leads, named⟩ := leads_of_relativeTo absolute plain way
  obtain ⟨leads', named'⟩ := leads_of_relativeTo absolute plain way'
  constructor
  · intro same
    have led := (RelativePath.location_logicalPath absolute plain named).2
    have led' := (RelativePath.location_logicalPath absolute plain named').2
    rw [← leads, ← leads', ← led, ← led', same]
  · intro same
    rw [p.logicalPath_eq absolute plain, q.logicalPath_eq absolute plain, leads, leads', same]

/-- Straight ways that resolve to one path are the same. -/
theorem eq_of_isStraight (absolute : Path.isAbsolute here)
    (plain : Component.up ∉ Path.components here) {a b : String} {p q : RelativePath}
    (way : relativeTo a here = some p) (way' : relativeTo b here = some q)
    (resolved : p.logicalPath here = q.logicalPath here)
    (straight : p.IsStraight (Path.location here))
    (straight' : q.IsStraight (Path.location here)) :
    p = q := by
  have location := (logicalPath_eq_iff absolute plain way way').1 resolved
  have direct := directWay_of_isStraight absolute plain straight
  have direct' := directWay_of_isStraight absolute plain straight'
  rw [(leads_of_relativeTo absolute plain way).1, location,
    ← (leads_of_relativeTo absolute plain way').1, direct'] at direct
  exact (Option.some.inj direct).symm

namespace SuiteFiles

variable {tree : FileTree} {patterns : List String} {paths : List RelativePath}

/-! ## Paths without steps up -/

/-- Whether no name in the tree may lead to a parent when it is read as a pattern. -/
def isFlat (root : FileNode) : Bool := root.everyDirectory fun names => names.all fun s =>
  !Glob.climbs s

theorem not_climbs_of_hasName {root : FileNode} {name : String} (flat : isFlat root)
    (there : root.HasName name) : ¬ Glob.climbs name := by
  obtain ⟨place, there⟩ := there
  obtain ⟨child, isChild⟩ := Option.isSome_iff_exists.1 there
  obtain ⟨node, found, isChild⟩ := Option.bind_eq_some_iff.1 isChild
  obtain ⟨entries, rfl, mem⟩ := FileNode.exists_of_child? isChild
  have test := List.all_eq_true.1 (FileNode.test_of_find? flat found) name
    (List.mem_map_of_mem (f := Prod.fst) mem)
  simpa using test

/-- What a pattern that does not climb finds has no part that climbs, and no `..`. -/
theorem not_climbs_of_mem_find {pattern : String} {found : List Glob.Found} {f : Glob.Found}
    (wellFormed : tree.root.wellFormed) (flat : isFlat tree.root)
    (forth : ∀ part ∈ Path.parts pattern, ¬ Glob.climbs part)
    (matched : Glob.find tree pattern = .ok found) (among : f ∈ found) :
    ∀ part ∈ Path.parts f.path, ¬ Glob.climbs part := by
  intro part isPart
  have sound := Glob.sound_of_mem_find wellFormed matched among
  obtain ⟨filled, leads⟩ := sound.parts part isPart
  cases leads with
  | empty => exact absurd rfl filled
  | here => decide
  | up goes =>
    obtain ⟨part, inPattern, climbs⟩ := goes
    exact absurd climbs (forth part inPattern)
  | name _ there => exact not_climbs_of_hasName flat there

theorem not_climbs_of_leads {pattern file : String} (wellFormed : tree.root.wellFormed)
    (flat : isFlat tree.root) (leads : Leads tree pattern file)
    (forth : ∀ part ∈ Path.parts pattern, ¬ Glob.climbs part) :
    ∀ part ∈ Path.parts file, ¬ Glob.climbs part := by
  induction leads with
  | file matched among =>
    exact not_climbs_of_mem_find wellFormed flat forth matched among
  | inside matched among _ _ ih =>
    refine ih ?_
    have behind : Path.parts ("**/*" ++ suffix) = ["**", "*.suite.toml"] := by decide
    rw [searchPattern, Path.parts_join _ (by decide), behind, List.forall_mem_append]
    exact ⟨not_climbs_of_mem_find wellFormed flat forth matched among, by decide⟩

/-- A path that has no part that climbs has no `..`, which is one. -/
theorem up_notMem_of_not_climbs {file : String}
    (forth : ∀ part ∈ Path.parts file, ¬ Glob.climbs part) :
    Component.up ∉ Path.components file := by
  rw [Path.up_mem_components_iff]
  exact fun mem => forth ".." mem (by decide)

/-! ## The set of suite files -/

/-- The path is one that the patterns lead to, and the relative path is the way to it. -/
structure IsWay (tree : FileTree) (here : String) (patterns : List String) (file : String)
    (path : RelativePath) : Prop where
  lead : ∃ pattern ∈ patterns, ∃ files, locate tree pattern = .ok files ∧
    file ∈ if files.isEmpty then [pattern] else files
  way : relativeTo file here = some path

/-- The set holds the ways to what the patterns lead to, and nothing else. -/
theorem mem_iff_exists_isWay (expanded : expand tree here patterns = .ok paths)
    {path : RelativePath} : path ∈ paths ↔ ∃ file, IsWay tree here patterns file path := by
  rw [mem_expand_iff expanded]
  constructor
  · rintro ⟨pattern, among, own, stands, isOwn⟩
    rw [ofPattern] at stands
    obtain ⟨files, located, chosen⟩ := exists_of_bind_eq_ok stands
    rw [← Except.ok.inj chosen] at isOwn
    obtain ⟨file, isFile, way⟩ := List.mem_filterMap.1 isOwn
    exact ⟨file, ⟨pattern, among, files, located, isFile⟩, way⟩
  · rintro ⟨file, ⟨pattern, among, files, located, isFile⟩, way⟩
    have stands : ofPattern tree here pattern =
        .ok ((if files.isEmpty then [pattern] else files).filterMap (relativeTo · here)) := by
      rw [ofPattern, located]
      rfl
    exact ⟨pattern, among, _, stands, List.mem_filterMap.2 ⟨file, isFile, way⟩⟩

theorem IsWay.up_notMem {file : String} {path : RelativePath}
    (isWay : IsWay tree here patterns file path) (wellFormed : tree.root.wellFormed)
    (flat : isFlat tree.root)
    (forth : ∀ pattern ∈ patterns, ∀ part ∈ Path.parts pattern, ¬ Glob.climbs part) :
    Component.up ∉ Path.components file := by
  obtain ⟨⟨pattern, among, files, located, isFile⟩, _⟩ := isWay
  refine up_notMem_of_not_climbs ?_
  split at isFile
  · rw [List.mem_singleton.1 isFile]
    exact forth pattern among
  · exact not_climbs_of_leads wellFormed flat (leads_of_mem_locateWithin located isFile)
      (forth pattern among)

/-- **Suite files are read once,** unless a way to them is not straight. The set holds the ways to
the paths that the patterns lead to and nothing else, and two of them resolve to one path exactly
if these paths have one location. They are the same entry then if both ways are straight, as is
every way to a path without `..`, be it absolute or relative and however it is spelled with dots
and slashes. So no suite file is read twice if no part of a pattern and no name in the tree may
lead to a parent. -/
theorem expand_distinct (absolute : Path.isAbsolute here)
    (plain : Component.up ∉ Path.components here)
    (expanded : expand tree here patterns = .ok paths) :
    (∀ p, p ∈ paths ↔ ∃ file, IsWay tree here patterns file p) ∧
    (∀ a b p q, IsWay tree here patterns a p → IsWay tree here patterns b q →
      (p.logicalPath here = q.logicalPath here ↔
        Path.location (Path.join here a) = Path.location (Path.join here b))) ∧
    (∀ file p, IsWay tree here patterns file p → Component.up ∉ Path.components file →
      p.IsStraight (Path.location here)) ∧
    (∀ p ∈ paths, ∀ q ∈ paths, p.logicalPath here = q.logicalPath here →
      p.IsStraight (Path.location here) → q.IsStraight (Path.location here) → p = q) ∧
    (tree.root.wellFormed → isFlat tree.root →
      (∀ pattern ∈ patterns, ∀ part ∈ Path.parts pattern, ¬ Glob.climbs part) →
        ∀ p ∈ paths, ∀ q ∈ paths, p.logicalPath here = q.logicalPath here → p = q) := by
  have straight : ∀ file p, IsWay tree here patterns file p →
      Component.up ∉ Path.components file → p.IsStraight (Path.location here) :=
    fun file p isWay forth => isStraight_of_up_notMem absolute plain isWay.way forth
  have once : ∀ p ∈ paths, ∀ q ∈ paths, p.logicalPath here = q.logicalPath here →
      p.IsStraight (Path.location here) → q.IsStraight (Path.location here) → p = q := by
    intro p mem q mem' resolved isStraight isStraight'
    obtain ⟨a, isWay⟩ := (mem_iff_exists_isWay expanded).1 mem
    obtain ⟨b, isWay'⟩ := (mem_iff_exists_isWay expanded).1 mem'
    exact eq_of_isStraight absolute plain isWay.way isWay'.way resolved isStraight isStraight'
  refine ⟨fun p => mem_iff_exists_isWay expanded, fun a b p q isWay isWay' =>
    logicalPath_eq_iff absolute plain isWay.way isWay'.way, straight, once,
    fun wellFormed flat forth p mem q mem' resolved => ?_⟩
  obtain ⟨a, isWay⟩ := (mem_iff_exists_isWay expanded).1 mem
  obtain ⟨b, isWay'⟩ := (mem_iff_exists_isWay expanded).1 mem'
  exact once p mem q mem' resolved (straight a p isWay (isWay.up_notMem wellFormed flat forth))
    (straight b q isWay' (isWay'.up_notMem wellFormed flat forth))

/-- One file, named from the working directory, from the root and through its directory. -/
theorem expand_distinct_spellings :
    let tree : FileTree :=
      { root := .directory [("work", .directory [("x.suite.toml", .file [] false)])]
        workingDir := ["work"] }
    Path.isAbsolute "/work" ∧ Component.up ∉ Path.components "/work" ∧
      ∃ paths, expand tree "/work" [".//x.suite.toml", "/work/./x.suite.toml", "."] = .ok paths ∧
        ∀ p ∈ paths, ∀ q ∈ paths, p.logicalPath "/work" = q.logicalPath "/work" → p = q := by
  intro tree
  have absolute : Path.isAbsolute "/work" := by decide
  have plain : Component.up ∉ Path.components "/work" := by decide
  have expanded : expand tree "/work" [".//x.suite.toml", "/work/./x.suite.toml", "."] =
      .ok [⟨[.name "x.suite.toml"]⟩] := by decide +kernel
  exact ⟨absolute, plain, _, expanded,
    (expand_distinct absolute plain expanded).2.2.2.2 (by decide) (by decide) (by decide)⟩

/-- A file that is named twice, once by a way through a directory beside it and back, is read
twice. -/
theorem expand_twice_of_back :
    let tree : FileTree :=
      { root := .directory [("a", .directory []), ("x.suite.toml", .file [] false)],
        workingDir := [] }
    let direct : RelativePath := ⟨[.name "x.suite.toml"]⟩
    let back : RelativePath := ⟨[.name "a", .up, .name "x.suite.toml"]⟩
    expand tree "/" ["x.suite.toml", "a/../x.suite.toml"] = .ok [back, direct] ∧ back ≠ direct ∧
      back.logicalPath "/" = "/x.suite.toml" ∧ direct.logicalPath "/" = "/x.suite.toml" := by
  intro tree direct back
  decide +kernel

end SuiteFiles

end CommandSuite
