import CommandSuite.Proofs.PathOrder

/-!
# Where relative paths lead

A path from the root has a lexical normal form, the names on its way with each `..` taken as the
removal of the name before it: `Path.location`. Two paths with one location are the same file
wherever no link stands in the way.

* `Path.location_join`: a relative path goes on from the location of its directory.
* `foldl_enter_difference`: the way from a base to a path leads there. What is left of the base
  when the two part is undone by steps up, and what both have in common stays, even where the path
  undoes it later.
* `relativeTo_location`: every path has a way from every directory, and the way followed from
  there ends at the location of the path. So the suite files that are found are those that are
  read.
-/

namespace CommandSuite

namespace Path

/-! ## Locations -/

/-- Goes from a location to what a piece of a path says: nothing and `.` stay, `..` goes up, and
stays at the root. -/
def enterPiece (names : List String) (piece : String) : List String :=
  if piece = "" ∨ piece = "." then names
  else if piece = ".." then names.dropLast
  else names ++ [piece]

/-- The lexical normal form of a path from the root on. -/
def location (path : String) : List String := (Text.pieces '/' path).foldl enterPiece []

/-- Goes from a location to what a component says. -/
def enter (names : List String) : Component → List String
  | .root | .here => names
  | .up => names.dropLast
  | .name s => names ++ [s]

/-- Steps up take as many names from the end. -/
theorem foldl_enter_ups {α : Type} (names : List String) (undone : List α) :
    (undone.map fun _ => Component.up).foldl enter names =
      names.take (names.length - undone.length) := by
  induction undone generalizing names with
  | nil => simp
  | cons a undone ih =>
    rw [List.map_cons, List.foldl_cons, ih, enter, List.dropLast_eq_take, List.take_take,
      List.length_take]
    congr 1
    simp only [List.length_cons]
    omega

/-- What was entered behind some names is undone by as many steps up. -/
theorem foldl_enter_undone (names undone : List String) (path : List Component) :
    ((undone.map fun _ => Component.up) ++ path).foldl enter (names ++ undone) =
      path.foldl enter names := by
  rw [List.foldl_append, foldl_enter_ups, List.length_append, Nat.add_sub_cancel, List.take_left]

theorem foldl_enter_names (names more : List String) :
    (more.map Component.name).foldl enter names = names ++ more := by
  induction more generalizing names with
  | nil => exact (List.append_nil names).symm
  | cons s more ih => rw [List.map_cons, List.foldl_cons, ih, enter, List.append_assoc]; rfl

/-- The components of a path lead where its pieces lead. -/
theorem foldl_enter_components (names : List String) (path : String) :
    (components path).foldl enter names = (Text.pieces '/' path).foldl enterPiece names := by
  have pieces : ∀ pieces : List String,
      (pieces.filterMap Component.ofPiece?).foldl enter names =
        pieces.foldl enterPiece names := by
    intro pieces
    rw [List.foldl_filterMap]
    congr 1
    funext names piece
    rw [Component.ofPiece?, enterPiece]
    by_cases stays : piece = "" ∨ piece = "."
    · simp [stays]
    · by_cases goesUp : piece = ".." <;> simp [stays, goesUp, enter]
  rw [components, List.foldl_append, ← pieces]
  congr 1
  split
  · rfl
  · split <;> rfl

/-- A text that stands for itself between slashes. -/
def IsName (s : String) : Prop := Component.ofPiece? s = some (.name s) ∧ '/' ∉ s.toList

theorem IsName.ne_empty {s : String} (isName : IsName s) : s ≠ "" := by
  rintro rfl
  exact absurd isName.1 (by decide)

theorem IsName.ne_dot {s : String} (isName : IsName s) : s ≠ "." := by
  rintro rfl
  exact absurd isName.1 (by decide)

theorem isName_of_mem_components {path s : String} (named : Component.name s ∈ components path) :
    IsName s := by
  rw [components, List.mem_append] at named
  rcases named with start | named
  · split at start
    · simp at start
    · split at start <;> simp at start
  · obtain ⟨piece, mem, read⟩ := List.mem_filterMap.1 named
    obtain ⟨cs, whole, rfl⟩ := List.mem_map.1 mem
    have same : String.ofList cs = s := by
      rw [Component.ofPiece?] at read
      split at read
      · cases read
      · split at read
        · cases read
        · exact Component.name.inj (Option.some.inj read)
    subst same
    exact ⟨read, by rw [String.toList_ofList]; exact Text.notMem_of_mem_splitOn whole⟩

theorem enterPiece_of_isName {s : String} (isName : IsName s) (names : List String) :
    enterPiece names s = names ++ [s] := by
  have read := isName.1
  rw [Component.ofPiece?] at read
  by_cases stays : s = "" ∨ s = "."
  · simp [stays] at read
  · by_cases goesUp : s = ".."
    · simp [goesUp] at read
    · rw [enterPiece, if_neg stays, if_neg goesUp]

/-- The pieces of a path that is written from its names are these, with empty ones around them. -/
theorem pieces_ofComponents {names : List String} (areNames : ∀ s ∈ names, IsName s) :
    ∃ empty, (∀ piece ∈ empty, piece = "") ∧
      Text.pieces '/' (ofComponents (.root :: names.map .name)) = "" :: names ++ empty := by
  have written : (ofComponents (.root :: names.map .name)).toList =
      '/' :: Text.joinWith '/' (names.map String.toList) := by
    rw [ofComponents, List.map_map, String.toList_append, String.toList_intercalate,
      List.map_map, ← Text.intercalate_eq_joinWith]
    rfl
  have split : Text.splitOn '/' ('/' :: Text.joinWith '/' (names.map String.toList)) =
      [] :: Text.splitOn '/' (Text.joinWith '/' (names.map String.toList)) := by
    rw [Text.splitOn, if_pos rfl]
  rw [Text.pieces, written, split]
  cases names with
  | nil => exact ⟨[""], by simp, rfl⟩
  | cons s names =>
    have whole : ∀ p ∈ (s :: names).map String.toList, '/' ∉ p := by
      intro p mem
      obtain ⟨t, isMem, rfl⟩ := List.mem_map.1 mem
      exact (areNames t isMem).2
    have same : (String.ofList ∘ String.toList) = id := by
      funext t
      exact String.ofList_toList
    refine ⟨[], by simp, ?_⟩
    rw [Text.splitOn_joinWith (by simp) whole, List.map_cons, List.map_map, same, List.map_id,
      List.append_nil]

theorem foldl_enterPiece_empty {pieces : List String} (empty : ∀ piece ∈ pieces, piece = "")
    (names : List String) : pieces.foldl enterPiece names = names := by
  induction pieces with
  | nil => rfl
  | cons piece pieces ih =>
    rw [List.forall_mem_cons] at empty
    rw [List.foldl_cons, enterPiece, if_pos (.inl empty.1), ih empty.2]

/-- A path that is written from its names leads to them. -/
theorem location_ofComponents {names : List String} (areNames : ∀ s ∈ names, IsName s) :
    location (ofComponents (.root :: names.map .name)) = names := by
  have entered : ∀ start, names.foldl enterPiece start = start ++ names := by
    induction names with
    | nil => exact fun start => (List.append_nil start).symm
    | cons s names ih =>
      intro start
      rw [List.foldl_cons, enterPiece_of_isName (areNames s (by simp)),
        ih fun t mem => areNames t (List.mem_cons_of_mem _ mem), List.append_assoc]
      rfl
  obtain ⟨empty, areEmpty, pieces⟩ := pieces_ofComponents areNames
  rw [location, pieces, List.foldl_append, foldl_enterPiece_empty areEmpty]
  exact entered []

theorem up_or_name_of_ofPiece? {piece : String} {c : Component}
    (read : Component.ofPiece? piece = some c) : c = .up ∨ ∃ s, c = .name s := by
  rw [Component.ofPiece?] at read
  split at read
  · cases read
  · split at read
    · exact .inl (Option.some.inj read).symm
    · exact .inr ⟨piece, (Option.some.inj read).symm⟩

/-- Pieces none of which is `..` stand for names. -/
theorem exists_names_of_up_notMem {pieces : List String}
    (plain : Component.up ∉ pieces.filterMap Component.ofPiece?) :
    ∃ names : List String, pieces.filterMap Component.ofPiece? = names.map .name := by
  induction pieces with
  | nil => exact ⟨[], rfl⟩
  | cons piece pieces ih =>
    cases read : Component.ofPiece? piece with
    | none =>
      rw [List.filterMap_cons_none read] at plain ⊢
      exact ih plain
    | some c =>
      rw [List.filterMap_cons_some read] at plain ⊢
      rw [List.mem_cons, not_or] at plain
      obtain ⟨names, same⟩ := ih plain.2
      rcases up_or_name_of_ofPiece? read with rfl | ⟨s, rfl⟩
      · exact absurd rfl plain.1
      · exact ⟨s :: names, by rw [same]; rfl⟩

/-- The components of a path from the root on, if it has no `..`. -/
theorem components_of_isAbsolute {path : String} (absolute : isAbsolute path)
    (plain : Component.up ∉ components path) :
    components path = .root :: (location path).map .name := by
  have start : components path =
      .root :: (Text.pieces '/' path).filterMap Component.ofPiece? := by
    rw [components, if_pos absolute]
    rfl
  obtain ⟨names, same⟩ :=
    exists_names_of_up_notMem fun mem => plain (start ▸ List.mem_cons_of_mem _ mem)
  have led : location path = names := by
    rw [location, ← foldl_enter_components, start, same, List.foldl_cons, enter,
      foldl_enter_names]
    rfl
  rw [start, same, led]

/-- The pieces of what is joined to a directory stand behind those of the directory, of which an
empty one at the end is lost. -/
theorem pieces_join (dir : String) {path : String} (relative : isAbsolute path = false) :
    ∃ front empty, (∀ piece ∈ empty, piece = "") ∧ Text.pieces '/' dir = front ++ empty ∧
      Text.pieces '/' (join dir path) = front ++ Text.pieces '/' path := by
  have behind : ∀ (front : List Char) (joined : String),
      joined.toList = front ++ '/' :: path.toList →
      Text.pieces '/' joined =
        (Text.splitOn '/' front).map String.ofList ++ Text.pieces '/' path := by
    intro front joined written
    rw [Text.pieces, written, Text.splitOn_append_cons, List.map_append]
    rfl
  rw [join, relative, if_neg Bool.false_ne_true]
  by_cases empty : dir = ""
  · subst empty
    rw [if_pos (by simp), String.empty_append]
    exact ⟨[], [""], by simp, rfl, rfl⟩
  · by_cases ends : dir.toList.getLast? = some '/'
    · obtain ⟨front, split⟩ := List.getLast?_eq_some_iff.1 ends
      have own : Text.pieces '/' dir = (Text.splitOn '/' front).map String.ofList ++ [""] := by
        rw [Text.pieces, split, Text.splitOn_append_cons, List.map_append]
        rfl
      rw [if_pos (by simp [ends])]
      refine ⟨_, [""], by simp, own, behind front _ ?_⟩
      rw [String.toList_append, split, List.append_assoc]
      rfl
    · rw [if_neg (by simp [ends, empty])]
      exact ⟨_, [], by simp, (List.append_nil _).symm, behind dir.toList _ (by simp)⟩

/-- A relative path goes on from where its directory leads. -/
theorem location_join (dir : String) {path : String} (relative : isAbsolute path = false) :
    location (join dir path) = (Text.pieces '/' path).foldl enterPiece (location dir) := by
  obtain ⟨front, empty, areEmpty, own, joined⟩ := pieces_join dir relative
  rw [location, joined, List.foldl_append, location, own, List.foldl_append,
    foldl_enterPiece_empty areEmpty]

theorem isAbsolute_append {front : String} (absolute : isAbsolute front) (s : String) :
    isAbsolute (front ++ s) := by
  rw [isAbsolute, beq_iff_eq] at absolute ⊢
  rw [String.toList_append, List.head?_append, absolute]
  rfl

theorem isAbsolute_join {dir : String} (absolute : isAbsolute dir) (path : String) :
    isAbsolute (join dir path) := by
  rw [join]
  split
  case isTrue rooted => exact rooted
  case isFalse =>
    split
    · exact isAbsolute_append absolute path
    · exact isAbsolute_append (isAbsolute_append absolute "/") path

theorem isAbsolute_ofComponents (cs : List Component) : isAbsolute (ofComponents (.root :: cs)) :=
  isAbsolute_append rfl _

end Path

open CommandSuite.Path

/-! ## Following a way -/

/-- Goes from a location to what a step says. -/
def Step.enter (names : List String) : Step → List String
  | .up => names.dropLast
  | .name s => names ++ [s]

namespace RelativePath

/-- The steps of components lead where the components lead. -/
theorem exists_ofComponents? {cs : List Component} (noRoot : Component.root ∉ cs) :
    ∃ path, ofComponents? cs = some path ∧
      (∀ names, path.steps.foldl Step.enter names = cs.foldl Path.enter names) ∧
      ∀ s, Step.name s ∈ path.steps → Component.name s ∈ cs := by
  induction cs with
  | nil => exact ⟨⟨[]⟩, rfl, fun _ => rfl, fun _ mem => (List.not_mem_nil mem).elim⟩
  | cons c cs ih =>
    rw [List.mem_cons, not_or] at noRoot
    obtain ⟨⟨steps⟩, read, leads, named⟩ := ih noRoot.2
    have later : ∀ s, Step.name s ∈ steps → Component.name s ∈ c :: cs := fun s mem =>
      List.mem_cons_of_mem _ (named s mem)
    obtain ⟨lists, all, flat⟩ := Option.map_eq_some_iff.1 read
    obtain rfl : lists.flatten = steps := congrArg RelativePath.steps flat
    cases c with
    | root => exact absurd rfl noRoot.1
    | here =>
      refine ⟨⟨lists.flatten⟩, ?_, leads, later⟩
      simp [ofComponents?, all]
    | up =>
      refine ⟨⟨.up :: lists.flatten⟩, ?_, fun names => leads _, fun s mem => later s ?_⟩
      · simp [ofComponents?, all]
      · simpa using mem
    | name t =>
      refine ⟨⟨.name t :: lists.flatten⟩, ?_, fun names => leads _, fun s mem => ?_⟩
      · simp [ofComponents?, all]
      · rcases List.mem_cons.1 mem with same | mem
        · rw [Step.name.inj same]
          exact List.mem_cons_self
        · exact later s mem

/-- A step from a location leads to one. -/
theorem walk_names (names : List String) (step : Step) :
    walk (.root :: names.map .name) step = .root :: (step.enter names).map .name := by
  cases step with
  | name s => simp [walk, Step.enter]
  | up =>
    rcases List.eq_nil_or_concat names with rfl | ⟨names, s, rfl⟩
    · rfl
    · rw [List.concat_eq_append, List.map_append, ← List.cons_append, List.map_singleton, walk,
        List.getLast?_concat, if_neg (by simp), List.dropLast_concat, Step.enter,
        List.dropLast_concat]

theorem resolve_names (path : RelativePath) (names : List String) :
    path.resolve (.root :: names.map .name) =
      .root :: (path.steps.foldl Step.enter names).map .name := by
  obtain ⟨steps⟩ := path
  rw [resolve]
  induction steps generalizing names with
  | nil => rfl
  | cons step steps ih => rw [List.foldl_cons, walk_names, ih, List.foldl_cons]

/-- Steps lead only to names that were there or that they bring. -/
theorem mem_foldl_enter {steps : List Step} {names : List String} {s : String}
    (mem : s ∈ steps.foldl Step.enter names) : s ∈ names ∨ Step.name s ∈ steps := by
  induction steps generalizing names with
  | nil => exact .inl mem
  | cons step steps ih =>
    rcases ih mem with here | later
    · cases step with
      | up => exact .inl ((List.dropLast_sublist names).subset here)
      | name t =>
        rcases List.mem_append.1 here with before | added
        · exact .inl before
        · rw [List.mem_singleton.1 added]
          exact .inr List.mem_cons_self
    · exact .inr (List.mem_cons_of_mem _ later)

/-- The path that a relative path is short for is written from the names that its steps lead
to. -/
theorem logicalPath_eq (path : RelativePath) {base : String} (absolute : isAbsolute base)
    (plain : Component.up ∉ components base) :
    path.logicalPath base =
      ofComponents (.root :: (path.steps.foldl Step.enter (location base)).map .name) := by
  rw [logicalPath, components_of_isAbsolute absolute plain, resolve_names]

/-- A relative path followed from a base leads where its steps lead from there. -/
theorem location_logicalPath {path : RelativePath} {base : String} (absolute : isAbsolute base)
    (plain : Component.up ∉ components base)
    (areNames : ∀ s, Step.name s ∈ path.steps → IsName s) :
    isAbsolute (path.logicalPath base) ∧
      location (path.logicalPath base) = path.steps.foldl Step.enter (location base) := by
  rw [logicalPath_eq path absolute plain]
  refine ⟨isAbsolute_ofComponents _, location_ofComponents fun s mem => ?_⟩
  rcases mem_foldl_enter mem with inBase | inPath
  · refine @isName_of_mem_components base s ?_
    rw [components_of_isAbsolute absolute plain]
    exact List.mem_cons_of_mem _ (List.mem_map_of_mem inBase)
  · exact areNames s inPath

end RelativePath

/-- The way from a base to a path leads from the one to the other. Both go on from `names` here,
which is what they have in common so far. -/
theorem foldl_enter_difference (names rest : List String) (path : List Component) :
    ∃ way, difference path (rest.map .name) = some way ∧
      way.foldl enter (names ++ rest) = path.foldl enter names ∧
      ∀ c ∈ way, c = .up ∨ c ∈ path := by
  induction path generalizing names rest with
  | nil =>
    refine ⟨rest.map fun _ => Component.up, ?_, ?_, by simp⟩
    · rw [difference, List.map_map]
      rfl
    · simpa using foldl_enter_undone names rest []
  | cons a path ih =>
    cases rest with
    | nil => exact ⟨a :: path, rfl, by rw [List.append_nil], fun c mem => .inr mem⟩
    | cons s rest =>
      rw [List.map_cons, difference]
      by_cases same : a = .name s
      · subst same
        obtain ⟨way, found, leads, parts⟩ := ih (names ++ [s]) rest
        rw [if_pos rfl]
        refine ⟨way, found, ?_, fun c mem => (parts c mem).imp id (List.mem_cons_of_mem _)⟩
        rw [← List.append_cons names s rest] at leads
        exact leads
      · rw [if_neg same, if_neg (by simp), List.map_map]
        refine ⟨((s :: rest).map fun _ => Component.up) ++ a :: path, rfl,
          foldl_enter_undone names (s :: rest) (a :: path), fun c mem => ?_⟩
        rcases List.mem_append.1 mem with undone | mem
        · obtain ⟨_, _, rfl⟩ := List.mem_map.1 undone
          exact .inl rfl
        · exact .inr mem

/-- The root stands only in front of a path. -/
theorem Path.components_eq (path : String) :
    ∃ cs, Component.root ∉ cs ∧
      components path = if isAbsolute path then .root :: cs else cs := by
  have pieces : Component.root ∉ (Text.pieces '/' path).filterMap Component.ofPiece? := by
    intro mem
    obtain ⟨piece, _, read⟩ := List.mem_filterMap.1 mem
    rcases up_or_name_of_ofPiece? read with same | ⟨s, same⟩ <;> cases same
  rw [components]
  split
  · exact ⟨_, pieces, rfl⟩
  · refine ⟨_, ?_, rfl⟩
    rw [List.mem_append, not_or]
    refine ⟨?_, pieces⟩
    split <;> simp

/-- The way from a directory to a path leads where the path leads. -/
theorem exists_relativeTo {base : String} (absolute : isAbsolute base)
    (plain : Component.up ∉ components base) (path : String) :
    ∃ way, relativeTo path base = some way ∧
      way.steps.foldl Step.enter (location base) = location (join base path) ∧
      ∀ s, Step.name s ∈ way.steps → IsName s := by
  obtain ⟨cs, noRoot, split⟩ := Path.components_eq path
  have named : ∀ s, Component.name s ∈ cs → IsName s := by
    intro s mem
    refine @isName_of_mem_components path s ?_
    rw [split]
    split
    · exact List.mem_cons_of_mem _ mem
    · exact mem
  rw [relativeTo]
  cases rooted : isAbsolute path with
  | false =>
    rw [rooted, if_neg Bool.false_ne_true] at split
    obtain ⟨way, found, leads, parts⟩ := RelativePath.exists_ofComponents? noRoot
    rw [if_neg Bool.false_ne_true, split]
    refine ⟨way, found, ?_, fun s mem => named s (parts s mem)⟩
    rw [leads, location_join base rooted, ← foldl_enter_components, split]
  | true =>
    rw [rooted, if_pos rfl] at split
    obtain ⟨between, differ, leads, parts⟩ := foldl_enter_difference [] (location base) cs
    have noRoot' : Component.root ∉ between := fun mem =>
      (parts _ mem).elim (by simp) noRoot
    obtain ⟨way, found, followed, steps⟩ := RelativePath.exists_ofComponents? noRoot'
    rw [if_pos rfl, if_pos absolute, split, components_of_isAbsolute absolute plain, difference,
      if_pos rfl, differ]
    refine ⟨way, found, ?_, fun s mem => ?_⟩
    · have joined : join base path = path := by
        rw [join, if_pos rooted]
      have led : location path = cs.foldl enter [] := by
        rw [location, ← foldl_enter_components, split]
        rfl
      rw [followed, joined, led]
      exact leads
    · rcases parts _ (steps s mem) with up | mem
      · cases up
      · exact named s mem

/-- **Every path has a way that leads to it.** From any directory, given from the root on and
without `..`, every path has a way, and this way followed from the directory leads where the path
leads from there. So what the search for suite files finds is what is read later. -/
theorem relativeTo_location {base : String} (absolute : isAbsolute base)
    (plain : Component.up ∉ components base) :
    (∀ path, ∃ way, relativeTo path base = some way ∧
      isAbsolute (way.logicalPath base) ∧ isAbsolute (join base path) ∧
      location (way.logicalPath base) = location (join base path)) ∧
    ∀ tree patterns paths, SuiteFiles.expand tree base patterns = .ok paths →
      ∀ pattern ∈ patterns, ∀ files, SuiteFiles.locate tree pattern = .ok files →
        ∀ file ∈ files, ∃ way ∈ paths,
          location (way.logicalPath base) = location (join base file) := by
  have ways : ∀ path, ∃ way, relativeTo path base = some way ∧
      isAbsolute (way.logicalPath base) ∧ isAbsolute (join base path) ∧
      location (way.logicalPath base) = location (join base path) := by
    intro path
    obtain ⟨way, found, leads, named⟩ := exists_relativeTo absolute plain path
    obtain ⟨rooted, led⟩ := RelativePath.location_logicalPath absolute plain named
    exact ⟨way, found, rooted, isAbsolute_join absolute path, led.trans leads⟩
  refine ⟨ways, fun tree patterns paths expanded pattern mem files located file among => ?_⟩
  obtain ⟨way, found, _, _, led⟩ := ways file
  refine ⟨way, ?_, led⟩
  have stands : SuiteFiles.ofPattern tree base pattern =
      .ok (files.filterMap (relativeTo · base)) := by
    have some : files.isEmpty = false := List.isEmpty_eq_false_iff.2 (List.ne_nil_of_mem among)
    rw [SuiteFiles.ofPattern, located]
    simp only [bind, Except.bind, some]
    rfl
  exact SuiteFiles.mem_of_expand expanded mem stands
    (List.mem_filterMap.2 ⟨file, among, found⟩)

/-- A path that leaves what it has in common with the directory, and goes up beyond the root. -/
theorem relativeTo_location_beyondRoot :
    let base := "/work/suites"
    let path := "/work/../../other//./cli.suite.toml"
    isAbsolute base ∧ Component.up ∉ components base ∧
      ∃ way, relativeTo path base = some way ∧ way.text = "../../../other/cli.suite.toml" ∧
        location (way.logicalPath base) = ["other", "cli.suite.toml"] := by
  intro base path
  have absolute : isAbsolute base := by decide
  have plain : Component.up ∉ components base := by decide
  obtain ⟨way, found, _, _, led⟩ := (relativeTo_location absolute plain).1 path
  have same : some way = some ⟨[.up, .up, .up, .name "other", .name "cli.suite.toml"]⟩ :=
    found.symm.trans (by decide)
  refine ⟨absolute, plain, way, found, ?_, led.trans (by decide)⟩
  rw [Option.some.inj same]
  decide

end CommandSuite
