import CommandSuite.Proofs.SuiteFiles.Distinct
import CommandSuite.Proofs.SuiteFiles.SuiteDepth
import Mathlib.Data.List.Chain
import Mathlib.Order.WellFounded

/-!
# Searches that call searches

A directory that a search finds is searched in turn, by a pattern that its path is made part of.
What such a search finds need not lie below the directory, and a search may even go round in a
tree and find the directory again; but the path by which it finds it is deeper in suite files.
This is what ends the searches: there is a depth beyond which the system follows no path.

* `Calls` is the call of one search by another, and `suiteDepth_lt_of_calls` says what grows by
  it.
* `length_le_of_grows`: a chain is no longer than what grows along it may get.
* `locateWithin_eq_of_endsWithin`: fuel beyond the longest chain of calls changes nothing.
* `locate_recursion` puts this together.
-/

namespace CommandSuite.SuiteFiles

open Glob (Found)

variable {tree : FileTree} {pattern next : String} {found : List Found} {d : Found} {fuel n : Nat}
  {search search' : String → Except Glob.PatternError (List String)}

/-! ## Calls -/

/-- One search calls another: it finds the path of a directory, which is searched by a pattern of
its own. -/
def Calls (tree : FileTree) (pattern next : String) : Prop :=
  ∃ found, Glob.find tree pattern = .ok found ∧
    ∃ d ∈ found, tree.isDirectory d.path ∧ next = searchPattern d.path

/-- A pattern that is called is deeper in suite files than the one that it is called for. -/
theorem suiteDepth_lt_of_calls (wellFormed : tree.root.wellFormed)
    (call : Calls tree pattern next) : suiteDepth pattern < suiteDepth next := by
  obtain ⟨found, matched, d, mem, _, rfl⟩ := call
  rw [suiteDepth_searchPattern]
  exact Nat.lt_succ_of_le (suiteDepth_le_of_mem_find wellFormed matched mem)

/-- No pattern is called that is deeper than the paths which the system follows allow. -/
theorem suiteDepth_le_of_calls (call : Calls tree pattern next) :
    suiteDepth next ≤ suffixesInPath + 1 := by
  obtain ⟨_, _, d, _, seen, rfl⟩ := call
  obtain ⟨node, there, _⟩ := (Option.any_eq_true ..).1 seen
  rw [suiteDepth_searchPattern]
  exact Nat.succ_le_succ (suiteDepth_le_suffixesInPath (by rw [there]; rfl))

theorem wellFounded_calls (wellFormed : tree.root.wellFormed) :
    WellFounded fun next pattern => Calls tree pattern next := by
  let room (pattern : String) : Nat := suffixesInPath + 1 - suiteDepth pattern
  refine Subrelation.wf (r := InvImage (· < ·) room) ?_ (InvImage.wf room Nat.lt_wfRel.wf)
  intro next pattern call
  have more := suiteDepth_lt_of_calls wellFormed call
  have most := suiteDepth_le_of_calls call
  show suffixesInPath + 1 - suiteDepth next < suffixesInPath + 1 - suiteDepth pattern
  omega

/-- A chain is no longer than what grows along it may get, if it keeps to what bounds that. -/
theorem length_le_of_grows {α : Type} {R : α → α → Prop} {P : α → Prop} {depth : α → Nat}
    {bound : Nat} (grows : ∀ a b, P a → R a b → P b ∧ depth a < depth b ∧ depth b ≤ bound)
    {a : α} {chain : List α} (kept : P a) (isChain : (a :: chain).IsChain R) :
    chain.length ≤ bound - depth a := by
  induction chain generalizing a with
  | nil => exact Nat.zero_le _
  | cons b chain ih =>
    obtain ⟨first, rest⟩ := List.isChain_cons_cons.1 isChain
    obtain ⟨keptNext, more, most⟩ := grows a b kept first
    have others := ih keptNext rest
    rw [List.length_cons]
    omega

/-! ## Fuel -/

/-- The chains of calls that start with the pattern have fewer than `n` calls. -/
def EndsWithin (tree : FileTree) (n : Nat) (pattern : String) : Prop :=
  ∀ chain : List String, (pattern :: chain).IsChain (Calls tree) → chain.length < n

theorem EndsWithin.pos (ends : EndsWithin tree n pattern) : 0 < n :=
  ends [] (List.isChain_singleton _)

theorem EndsWithin.of_calls (ends : EndsWithin tree (n + 1) pattern)
    (call : Calls tree pattern next) : EndsWithin tree n next := fun chain isChain =>
  Nat.lt_of_succ_lt_succ (ends (next :: chain) (List.isChain_cons_cons.2 ⟨call, isChain⟩))

theorem endsWithin_suffixesInPath (wellFormed : tree.root.wellFormed) (pattern : String) :
    EndsWithin tree (suffixesInPath + 2) pattern := by
  intro chain isChain
  have rest := length_le_of_grows (P := fun _ => True) (fun pattern next _ call =>
    ⟨trivial, suiteDepth_lt_of_calls wellFormed call, suiteDepth_le_of_calls call⟩)
      trivial isChain
  omega

theorem mapM_congr_of_mem {ε α β : Type} {f g : α → Except ε β} {as : List α}
    (same : ∀ a ∈ as, f a = g a) : as.mapM f = as.mapM g := by
  induction as with
  | nil => rfl
  | cons a as ih =>
    rw [List.forall_mem_cons] at same
    rw [List.mapM_cons, List.mapM_cons, same.1, ih same.2]

/-- Only the searches that are called matter. -/
theorem searchBy_congr (same : ∀ next, Calls tree pattern next → search next = search' next) :
    searchBy tree search pattern = searchBy tree search' pattern := by
  rw [searchBy, searchBy]
  cases matched : Glob.find tree pattern with
  | error e => rfl
  | ok found =>
    have each : ∀ d ∈ found, filesAt tree search d = filesAt tree search' d := by
      intro d mem
      unfold filesAt
      split
      · rfl
      · split
        case isFalse => rfl
        case isTrue directory => exact same _ ⟨found, matched, d, mem, directory, rfl⟩
    show (found.mapM (filesAt tree search) >>= _) = found.mapM (filesAt tree search') >>= _
    rw [mapM_congr_of_mem each]

/-- Fuel for the longest chain of calls is enough. -/
theorem locateWithin_eq_of_endsWithin (ends : EndsWithin tree n pattern) (enough : n ≤ fuel) :
    locateWithin tree fuel pattern = locateWithin tree n pattern := by
  induction n generalizing pattern fuel with
  | zero => exact absurd ends.pos (Nat.lt_irrefl 0)
  | succ n ih =>
    obtain ⟨fuel, rfl⟩ := Nat.exists_eq_add_of_le' (Nat.le_of_add_left_le enough)
    rw [locateWithin_succ, locateWithin_succ]
    exact searchBy_congr fun next call => ih (ends.of_calls call) (Nat.le_of_succ_le_succ enough)

theorem locateWithin_eq_locate (wellFormed : tree.root.wellFormed) (pattern : String)
    (enough : suffixesInPath + 2 ≤ fuel) : locateWithin tree fuel pattern = locate tree pattern :=
  locateWithin_eq_of_endsWithin (endsWithin_suffixesInPath wellFormed pattern) enough

/-- The files of a pattern are those that match and those of the directories that do. -/
theorem locate_eq_searchBy (wellFormed : tree.root.wellFormed) (pattern : String) :
    locate tree pattern = searchBy tree (locate tree) pattern := by
  rw [← locateWithin_eq_locate wellFormed pattern (Nat.le_succ _), locateWithin_succ]
  rfl

/-- There is one way only to search that calls itself in this way. -/
theorem eq_locate_of_searchBy (wellFormed : tree.root.wellFormed)
    (recursive : ∀ pattern, search pattern = searchBy tree search pattern) (pattern : String) :
    search pattern = locate tree pattern := by
  induction pattern using (wellFounded_calls wellFormed).induction with
  | _ pattern ih =>
    rw [recursive, locate_eq_searchBy wellFormed]
    exact searchBy_congr ih

/-! ## Trees in which no name leads up -/

mutual

/-- The number of levels of a tree. -/
def height : FileNode → Nat
  | .directory entries => heightOfEntries entries + 1
  | _ => 1

def heightOfEntries : List (String × FileNode) → Nat
  | [] => 0
  | (_, node) :: entries => max (height node) (heightOfEntries entries)

end

theorem height_le_heightOfEntries {entries : List (String × FileNode)} {e : String × FileNode}
    (mem : e ∈ entries) : height e.2 ≤ heightOfEntries entries := by
  induction entries with
  | nil => cases mem
  | cons first entries ih =>
    rw [heightOfEntries]
    rcases List.mem_cons.1 mem with rfl | later
    · exact Nat.le_max_left _ _
    · exact (ih later).trans (Nat.le_max_right _ _)

/-- Every place is above the last level of the tree. -/
theorem length_lt_height {root : FileNode} {place : List String}
    (there : (root.find? place).isSome) : place.length < height root := by
  induction place generalizing root with
  | nil => cases root <;> exact Nat.succ_pos _
  | cons name place ih =>
    obtain ⟨node, found⟩ := Option.isSome_iff_exists.1 there
    obtain ⟨child, isChild, below⟩ := Option.bind_eq_some_iff.1 found
    obtain ⟨entries, rfl, mem⟩ := FileNode.exists_of_child? isChild
    have inner := ih (Option.isSome_iff_exists.2 ⟨node, below⟩)
    rw [height, List.length_cons]
    exact Nat.succ_lt_succ (inner.trans_le (height_le_heightOfEntries mem))

/-- The parts of a pattern by which a search may go up. -/
def climbCount (pattern : String) : Nat := (Path.parts pattern).countP Glob.climbs

/-- If no name leads up, then a search goes up only by parts of its pattern, so that no path that
it finds goes further down than the tree and these allow. -/
theorem climbCount_le_and_suiteDepth_lt (wellFormed : tree.root.wellFormed)
    (flat : isFlat tree.root) (matched : Glob.find tree pattern = .ok found) (mem : d ∈ found)
    (directory : tree.isDirectory d.path) :
    climbCount d.path ≤ climbCount pattern ∧
      suiteDepth d.path < height tree.root + climbCount pattern := by
  obtain ⟨read, parts, isRead, covers, walk, counted⟩ :=
    Glob.exists_walk_of_mem_find wellFormed matched mem
  have climbs : parts.countP Glob.climbs ≤ climbCount pattern := by
    have components : read.components.countP Glob.ComponentPattern.climbs = _ :=
      Glob.countP_components rfl (by decide) isRead
    simp only [← Glob.climbs_eq] at components
    rw [climbCount, ← components]
    refine covers.le_countP (fun name _ there => not_climbs_of_hasName flat there) ?_
    rintro p part (_ | _ | goes | ⟨_, there⟩) up
    · exact absurd up (by decide)
    · exact absurd up (by decide)
    · exact goes
    · exact absurd up (not_climbs_of_hasName flat there)
  have ups : parts.countP (· == "..") ≤ parts.countP Glob.climbs := by
    refine List.countP_mono_left fun part _ up => ?_
    rw [eq_of_beq up]
    decide
  have levels : _ + parts.countP isSuitePart ≤ d.place.length + parts.countP (· == "..") :=
    walk.length_place_le (by decide) (by decide) (by decide)
  have there : (tree.root.find? d.place).isSome := by
    have names := (Glob.sound_of_mem_find wellFormed matched mem).names
    obtain ⟨node, stands, _⟩ :=
      (Option.any_eq_true ..).1 (FileTree.any_find?_of_node? names directory)
    exact Option.isSome_iff_exists.2 ⟨node, stands⟩
  have least := length_lt_height there
  constructor
  · rw [climbCount, counted Glob.climbs (by decide) (by decide)]
    exact climbs
  · rw [suiteDepth_eq_countP_parts, counted isSuitePart (by decide) (by decide)]
    omega

theorem climbCount_searchPattern (dir : String) :
    climbCount (searchPattern dir) = climbCount dir := by
  have own : (Path.parts ("**/*" ++ suffix)).countP Glob.climbs = 0 := by decide
  rw [climbCount, searchPattern, Path.parts_join dir (by decide), List.countP_append, own,
    Nat.add_zero]
  rfl

/-- In a tree in which no name leads up, the calls end before the limit of the system is met. -/
theorem length_le_of_isFlat (wellFormed : tree.root.wellFormed) (flat : isFlat tree.root)
    {chain : List String} (isChain : (pattern :: chain).IsChain (Calls tree)) :
    chain.length ≤ height tree.root + climbCount pattern := by
  have rest : chain.length ≤ height tree.root + climbCount pattern - suiteDepth pattern := by
    refine length_le_of_grows (P := fun next => climbCount next ≤ climbCount pattern)
      (fun a b few call => ?_) (Nat.le_refl _) isChain
    have grows := suiteDepth_lt_of_calls wellFormed call
    obtain ⟨found, matched, d, mem, directory, rfl⟩ := call
    obtain ⟨fewer, most⟩ := climbCount_le_and_suiteDepth_lt wellFormed flat matched mem directory
    refine ⟨by rw [climbCount_searchPattern]; exact fewer.trans few, grows, ?_⟩
    rw [suiteDepth_searchPattern]
    omega
  omega

/-! ## The recursion -/

/-- **The search for suite files ends,** for every pattern and in every tree, whatever the names
of its directories mean in patterns. What the search of a directory finds has more components with
the suffix than the directory, and the system follows no path with more than `suffixesInPath` of
them. So the calls are well founded and their chains bounded, more fuel than `locate` has changes
nothing, and `locate` is the one function by which the files of a pattern are those that match and
those of the directories that do. In a tree in which no name may mean a parent, the chains are
bounded by the levels of the tree and the parts of the pattern that lead up. -/
theorem locate_recursion (wellFormed : tree.root.wellFormed) :
    (∀ dir found, Glob.find tree (searchPattern dir) = .ok found →
      ∀ f ∈ found, suiteDepth dir < suiteDepth f.path) ∧
    (WellFounded fun next pattern => Calls tree pattern next) ∧
    (∀ chain : List String, chain.IsChain (Calls tree) → chain.length ≤ suffixesInPath + 2) ∧
    (∀ pattern fuel, suffixesInPath + 2 ≤ fuel →
      locateWithin tree fuel pattern = locate tree pattern) ∧
    (∀ pattern, locate tree pattern = searchBy tree (locate tree) pattern) ∧
    (∀ search, (∀ pattern, search pattern = searchBy tree search pattern) →
      ∀ pattern, search pattern = locate tree pattern) ∧
    (isFlat tree.root → ∀ pattern, ∀ chain : List String,
      (pattern :: chain).IsChain (Calls tree) →
        chain.length ≤ height tree.root + climbCount pattern) := by
  refine ⟨fun dir found searched f mem => suiteDepth_lt_of_searched wellFormed searched mem,
    wellFounded_calls wellFormed, fun chain isChain => ?_,
    fun pattern fuel enough => locateWithin_eq_locate wellFormed pattern enough,
    locate_eq_searchBy wellFormed,
    fun search recursive => eq_locate_of_searchBy wellFormed recursive,
    fun flat pattern chain => length_le_of_isFlat wellFormed flat⟩
  cases chain with
  | nil => exact Nat.zero_le _
  | cons pattern chain => exact endsWithin_suffixesInPath wellFormed pattern chain isChain

/-- A directory whose name means its parent when it is read as a pattern, between two with the
suffix. The search of the inner one goes up there and finds it again, by a path of its own, by
which it is searched once more; this ends since each such path is deeper than the one before. -/
theorem locate_recursion_around :
    let tree : FileTree :=
      { root := .directory [("s.suite.toml", .directory [(".*", .directory
          [("s.suite.toml", .directory [("x.suite.toml", .file [] false)])])])]
        workingDir := [] }
    let inner := "s.suite.toml/.*/s.suite.toml"
    let again := "s.suite.toml/../s.suite.toml/.*/s.suite.toml"
    tree.root.wellFormed ∧
      ["*", searchPattern "s.suite.toml", searchPattern inner, searchPattern again].IsChain
        (Calls tree) ∧
      tree.locate again = tree.locate inner ∧ suiteDepth inner < suiteDepth again ∧
      (∀ fuel, suffixesInPath + 2 ≤ fuel → locateWithin tree fuel "*" = locate tree "*") ∧
      locate tree "*" = searchBy tree (locate tree) "*" := by
  intro tree inner again
  have wellFormed : tree.root.wellFormed := by decide
  let place := ["s.suite.toml", ".*", "s.suite.toml"]
  let file := "/x.suite.toml"
  have first : Glob.find tree "*" = .ok [⟨"s.suite.toml", ["s.suite.toml"]⟩] := by decide
  have second : Glob.find tree (searchPattern "s.suite.toml") =
      .ok [⟨inner, place⟩, ⟨inner ++ file, place ++ ["x.suite.toml"]⟩] := by decide +kernel
  have third : Glob.find tree (searchPattern inner) = .ok [⟨again, place⟩,
      ⟨again ++ file, place ++ ["x.suite.toml"]⟩,
      ⟨inner ++ file, place ++ ["x.suite.toml"]⟩] := by
    decide +kernel
  have chain :
      ["*", searchPattern "s.suite.toml", searchPattern inner, searchPattern again].IsChain
      (Calls tree) := by
    simp only [List.isChain_cons_cons, List.isChain_singleton, and_true]
    exact ⟨⟨_, first, _, List.mem_cons_self, by decide +kernel, rfl⟩,
      ⟨_, second, _, List.mem_cons_self, by decide +kernel, rfl⟩,
      ⟨_, third, _, List.mem_cons_self, by decide +kernel, rfl⟩⟩
  obtain ⟨grows, _, _, fuels, recursive, _⟩ := locate_recursion wellFormed
  have same : tree.locate again = tree.locate inner := by decide +kernel
  have deeper := grows _ _ third _ List.mem_cons_self
  exact ⟨wellFormed, chain, same, deeper, fuels "*", recursive "*"⟩

end CommandSuite.SuiteFiles
