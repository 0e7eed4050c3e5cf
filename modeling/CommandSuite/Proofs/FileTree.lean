import CommandSuite.FileTree
import CommandSuite.Proofs.Path.Parts

/-!
# Places in a file tree

A place is the names that lead from the root to a node. A path names the place that it leads to
piece by piece, as for an operating system, whose limits on the lengths of paths and names are
left out there.

* `FileNode.everyDirectory` tests the names in every directory of a tree; a tree is well formed if
  the names of a directory are names, and each of them stands there once.
* `Path.Fits` says which paths are within the limits.
* `FileTree.Names` says what a path names. It holds of whatever the system locates
  (`names_of_locate`), the system locates what is named by a path within its limits
  (`locate_of_names`), and it goes on from a directory to what is joined to it (`names_join`).
-/

namespace CommandSuite

instance : DecidablePred Path.IsName := fun _ => inferInstanceAs (Decidable (_ ∧ _))

namespace FileNode

/-! ## Names in directories -/

mutual

/-- Whether the names in every directory of the tree pass a test. -/
def everyDirectory (test : List String → Bool) : FileNode → Bool
  | directory entries => test (entries.map Prod.fst) && everyDirectoryIn test entries
  | _ => true

def everyDirectoryIn (test : List String → Bool) : List (String × FileNode) → Bool
  | [] => true
  | (_, node) :: entries => everyDirectory test node && everyDirectoryIn test entries

end

/-- Whether the entries of every directory have names that differ and that stand for nothing
else. -/
def wellFormed (root : FileNode) : Bool :=
  root.everyDirectory fun names => decide names.Nodup && names.all fun s => decide (Path.IsName s)

variable {test : List String → Bool} {root node child : FileNode} {place : List String}
  {entries : List (String × FileNode)} {name : String}

theorem everyDirectoryIn_iff :
    everyDirectoryIn test entries ↔ ∀ e ∈ entries, e.2.everyDirectory test := by
  induction entries with
  | nil => simp [everyDirectoryIn]
  | cons e entries ih =>
    obtain ⟨name, node⟩ := e
    rw [everyDirectoryIn, Bool.and_eq_true, ih, List.forall_mem_cons]

theorem everyDirectory_directory : (directory entries).everyDirectory test ↔
    test (entries.map Prod.fst) ∧ ∀ e ∈ entries, e.2.everyDirectory test := by
  rw [everyDirectory, Bool.and_eq_true, everyDirectoryIn_iff]

theorem exists_of_child? (there : node.child? name = some child) :
    ∃ entries, node = directory entries ∧ (name, child) ∈ entries := by
  cases node with
  | directory entries =>
    obtain ⟨before, after, split, _⟩ := List.lookup_eq_some_iff.1 there
    exact ⟨entries, rfl, by rw [show entries = _ from split]; simp⟩
  | _ => cases there

theorem find?_append (node : FileNode) (front back : List String) :
    node.find? (front ++ back) = (node.find? front).bind (·.find? back) := by
  induction front generalizing node with
  | nil => rfl
  | cons name front ih =>
    rw [List.cons_append, find?, find?, Option.bind_assoc]
    congr 1
    funext child
    exact ih child

theorem find?_concat (root : FileNode) (place : List String) (name : String) :
    root.find? (place ++ [name]) = (root.find? place).bind (·.child? name) := by
  rw [find?_append]
  congr 1
  funext node
  rw [find?]
  exact Option.bind_fun_some _

theorem everyDirectory_of_find? (every : root.everyDirectory test)
    (there : root.find? place = some node) : node.everyDirectory test := by
  induction place generalizing root with
  | nil => rwa [← Option.some.inj there]
  | cons name place ih =>
    obtain ⟨child, isChild, below⟩ := Option.bind_eq_some_iff.1 there
    obtain ⟨entries, rfl, mem⟩ := exists_of_child? isChild
    exact ih ((everyDirectory_directory.1 every).2 _ mem) below

/-- What is known of all names in a tree. -/
theorem test_of_find? (every : root.everyDirectory test)
    (there : root.find? place = some (directory entries)) : test (entries.map Prod.fst) :=
  (everyDirectory_directory.1 (everyDirectory_of_find? every there)).1

theorem wellFormed_directory : (directory entries).wellFormed ↔
    (entries.map Prod.fst).Nodup ∧ (∀ e ∈ entries, Path.IsName e.1) ∧
      ∀ e ∈ entries, e.2.wellFormed := by
  rw [wellFormed, everyDirectory_directory, Bool.and_eq_true, decide_eq_true_iff, List.all_map,
    List.all_eq_true, and_assoc]
  simp only [Function.comp_apply, decide_eq_true_iff]
  rfl

theorem wellFormed_of_find? (wellFormed : root.wellFormed)
    (there : root.find? place = some node) :
    node.wellFormed :=
  everyDirectory_of_find? wellFormed there

/-- Names that differ tell the entries apart. -/
theorem child?_of_mem (wellFormed : (directory entries).wellFormed)
    (mem : (name, child) ∈ entries) :
    (directory entries).child? name = some child := by
  have differ := (wellFormed_directory.1 wellFormed).1
  obtain ⟨before, after, rfl⟩ := List.append_of_mem mem
  rw [List.map_append, List.nodup_append, List.map_cons] at differ
  refine List.lookup_eq_some_iff.2
    ⟨before, after, rfl, fun e inFront => bne_iff_ne.2 fun same => ?_⟩
  exact differ.2.2 _ (List.mem_map_of_mem inFront) _ List.mem_cons_self same.symm

/-- Whatever stands in a directory stands under a name. -/
theorem isName_of_child? (wellFormed : root.wellFormed)
    (there : ((root.find? place).bind (·.child? name)).isSome) : Path.IsName name := by
  obtain ⟨child, isChild⟩ := Option.isSome_iff_exists.1 there
  obtain ⟨node, found, isChild⟩ := Option.bind_eq_some_iff.1 isChild
  obtain ⟨entries, rfl, mem⟩ := exists_of_child? isChild
  exact (wellFormed_directory.1 (wellFormed_of_find? wellFormed found)).2.1 _ mem

/-! ## Following pieces -/

/-- Goes from a place to where a piece of a path leads. -/
def enter? (root : FileNode) (place : List String) (piece : String) : Option (List String) :=
  if !(root.find? place).any isDirectory then none
  else if piece = "" ∨ piece = "." then some place
  else if piece = ".." then some place.dropLast
  else if ((root.find? place).bind (·.child? piece)).isSome then some (place ++ [piece])
  else none

/-- What is said of a piece that can be followed. -/
theorem isDirectory_of_enter? {piece : String} {next : List String}
    (entered : root.enter? place piece = some next) : (root.find? place).any isDirectory := by
  rw [enter?] at entered
  split at entered
  case isTrue => cases entered
  case isFalse directory => simpa using directory

theorem enter?_stays {piece : String} (stays : piece = "" ∨ piece = ".")
    (directory : (root.find? place).any isDirectory) : root.enter? place piece = some place := by
  rw [enter?, directory, if_neg (by decide), if_pos stays]

theorem enter?_up (directory : (root.find? place).any isDirectory) :
    root.enter? place ".." = some place.dropLast := by
  rw [enter?, directory, if_neg (by decide), if_neg (by decide), if_pos rfl]

/-- A name is followed to an entry of its directory. -/
theorem enter?_name {s : String} (isName : Path.IsName s)
    (there : ((root.find? place).bind (·.child? s)).isSome) :
    root.enter? place s = some (place ++ [s]) := by
  obtain ⟨child, isChild⟩ := Option.isSome_iff_exists.1 there
  obtain ⟨node, found, isChild⟩ := Option.bind_eq_some_iff.1 isChild
  obtain ⟨entries, rfl, _⟩ := exists_of_child? isChild
  have directory : (root.find? place).any isDirectory := by rw [found]; rfl
  have read := isName.1
  rw [Path.Component.ofPiece?] at read
  have moves : ¬ (s = "" ∨ s = ".") := by
    intro stays
    simp [stays] at read
  have down : s ≠ ".." := by
    rintro rfl
    simp at read
  rw [enter?, directory, if_neg (by decide), if_neg moves, if_neg down, if_pos there]

/-- Pieces that stay lead nowhere else. -/
theorem eq_of_foldlM_enter? {pieces next : List String} (stay : ∀ s ∈ pieces, s = "" ∨ s = ".")
    (entered : pieces.foldlM root.enter? place = some next) : next = place := by
  induction pieces generalizing place with
  | nil => exact (Option.some.inj entered).symm
  | cons s pieces ih =>
    rw [List.forall_mem_cons] at stay
    obtain ⟨middle, first, rest⟩ := Option.bind_eq_some_iff.1 entered
    rw [enter?_stays stay.1 (isDirectory_of_enter? first)] at first
    rw [ih stay.2 rest, Option.some.inj first]

theorem foldlM_enter?_append {front back next : List String} :
    (front ++ back).foldlM root.enter? place = some next ↔
      ∃ middle, front.foldlM root.enter? place = some middle ∧
        back.foldlM root.enter? middle = some next := by
  rw [List.foldlM_append]
  exact Option.bind_eq_some_iff

end FileNode

/-! ## Limits of the system -/

namespace Path

/-- The path is within the limits of the system: those on the bytes of a path and of each name in
it, and the one that no name has a NUL. -/
structure Fits (path : String) : Prop where
  noNul : '\x00' ∉ path.toList
  short : path.utf8ByteSize < 4096
  shortPieces : ∀ piece ∈ Text.pieces '/' path, piece.utf8ByteSize ≤ 255

instance : DecidablePred Fits := fun path =>
  decidable_of_iff
    ('\x00' ∉ path.toList ∧ path.utf8ByteSize < 4096 ∧
      ∀ piece ∈ Text.pieces '/' path, piece.utf8ByteSize ≤ 255)
    ⟨fun ⟨noNul, short, shortPieces⟩ => ⟨noNul, short, shortPieces⟩,
      fun fits => ⟨fits.noNul, fits.short, fits.shortPieces⟩⟩

theorem utf8ByteSize_le_of_suffix {s t : String} (ends : s.toList <:+ t.toList) :
    s.utf8ByteSize ≤ t.utf8ByteSize := by
  obtain ⟨front, split⟩ := ends
  have whole : t = String.ofList front ++ s := by
    rw [← String.toList_inj, String.toList_append, String.toList_ofList, split]
  rw [whole, String.utf8ByteSize_append]
  exact Nat.le_add_left _ _

/-- The end of a path is within the limits if the path is. -/
theorem Fits.of_suffix {path rest : String} (fits : Fits path)
    (ends : rest.toList <:+ path.toList) :
    Fits rest where
  noNul mem := fits.noNul (ends.mem mem)
  short := Nat.lt_of_le_of_lt (utf8ByteSize_le_of_suffix ends) fits.short
  shortPieces piece isPiece := by
    obtain ⟨cs, isCut, rfl⟩ := List.mem_map.1 isPiece
    obtain ⟨front, split⟩ := ends
    obtain ⟨whole, isWhole, inside⟩ := Text.exists_suffix_of_mem_splitOn front isCut
    rw [split] at isWhole
    refine Nat.le_trans (utf8ByteSize_le_of_suffix ?_)
      (fits.shortPieces (String.ofList whole) (List.mem_map_of_mem isWhole))
    rwa [String.toList_ofList, String.toList_ofList]

end Path

namespace FileTree

/-- The place from which a path leads. -/
def start (tree : FileTree) (path : String) : List String :=
  if Path.isAbsolute path then [] else tree.workingDir

/-- The path leads to the place: each of its pieces is an entry of the directory where it is met,
or stays there, or goes up. -/
def Names (tree : FileTree) (path : String) (place : List String) : Prop :=
  (Text.pieces '/' path).foldlM tree.root.enter? (tree.start path) = some place

variable {tree : FileTree} {path : String} {place : List String}

theorem enter?_of_enter {root : FileNode} {here next : List String} {piece : String}
    (entered : enter root here piece = .ok next) : root.enter? here piece = some next := by
  unfold enter at entered
  split at entered
  case h_1 entries there =>
    have directory : (root.find? here).any FileNode.isDirectory := by rw [there]; rfl
    have child : ((root.find? here).bind (·.child? piece)) = entries.lookup piece := by
      rw [there]
      rfl
    rw [FileNode.enter?, directory, if_neg (by decide), child]
    simp only [Bool.or_eq_true, decide_eq_true_eq] at entered
    split at entered
    · rw [if_pos ‹_›, Except.ok.inj entered]
    · rw [if_neg ‹_›]
      split at entered
      · rw [if_pos ‹_›, Except.ok.inj entered]
      · rw [if_neg ‹_›]
        split at entered
        · cases entered
        · split at entered
          · rw [if_pos ‹_›, Except.ok.inj entered]
          · cases entered
  case h_2 => cases entered
  case h_3 => cases entered

theorem utf8ByteSize_le_of_enter {root : FileNode} {here next : List String} {piece : String}
    (entered : enter root here piece = .ok next) : piece.utf8ByteSize ≤ 255 := by
  unfold enter at entered
  split at entered
  case h_1 =>
    split at entered
    case isTrue stays =>
      rcases (by simpa using stays : piece = "" ∨ piece = ".") with rfl | rfl <;> decide
    case isFalse =>
      split at entered
      case isTrue up => rw [up]; decide
      case isFalse =>
        split at entered
        · cases entered
        case isFalse short => exact Nat.not_lt.1 short
  case h_2 => cases entered
  case h_3 => cases entered

/-- What the system locates is what the path names. -/
theorem names_of_locate (located : tree.locate path = .ok place) : tree.Names path place := by
  have follow {pieces here : List String}
      (followed : pieces.foldlM (enter tree.root) here = .ok place) :
      pieces.foldlM tree.root.enter? here = some place := by
    induction pieces generalizing here with
    | nil => exact congrArg some (Except.ok.inj followed)
    | cons piece pieces ih =>
      cases entered : enter tree.root here piece with
      | error e =>
        rw [List.foldlM_cons, entered] at followed
        cases followed
      | ok next =>
        rw [List.foldlM_cons, entered] at followed
        rw [List.foldlM_cons, enter?_of_enter entered]
        exact ih followed
  unfold locate at located
  split at located
  · cases located
  · split at located
    · cases located
    · split at located
      · cases located
      · exact follow located

/-- What the system says of a piece that is not too long for a name. -/
theorem enter_of_enter? {root : FileNode} {here next : List String} {piece : String}
    (short : piece.utf8ByteSize ≤ 255) (entered : root.enter? here piece = some next) :
    enter root here piece = .ok next := by
  have directory := FileNode.isDirectory_of_enter? entered
  rw [FileNode.enter?, directory, if_neg (by decide)] at entered
  obtain ⟨node, there, isDirectory⟩ := (Option.any_eq_true ..).1 directory
  cases node with
  | directory entries =>
    have child : ((root.find? here).bind (·.child? piece)) = entries.lookup piece := by
      rw [there]
      rfl
    rw [child] at entered
    rw [enter, there]
    simp only [Bool.or_eq_true, decide_eq_true_eq, if_neg (Nat.not_lt.2 short)]
    split at entered
    · rw [if_pos ‹_›, Option.some.inj entered]
    · rw [if_neg ‹_›]
      split at entered
      · rw [if_pos ‹_›, Option.some.inj entered]
      · rw [if_neg ‹_›]
        split at entered
        · rw [if_pos ‹_›, Option.some.inj entered]
        · cases entered
  | _ => cases isDirectory

/-- What a path names is what the system locates, if the path is within its limits. -/
theorem locate_of_names (names : tree.Names path place) (filled : path ≠ "")
    (fits : Path.Fits path) : tree.locate path = .ok place := by
  have follow {pieces here : List String} (short : ∀ piece ∈ pieces, piece.utf8ByteSize ≤ 255)
      (followed : pieces.foldlM tree.root.enter? here = some place) :
      pieces.foldlM (enter tree.root) here = .ok place := by
    induction pieces generalizing here with
    | nil => exact congrArg Except.ok (Option.some.inj followed)
    | cons piece pieces ih =>
      rw [List.forall_mem_cons] at short
      obtain ⟨next, entered, rest⟩ := Option.bind_eq_some_iff.1 followed
      rw [List.foldlM_cons, enter_of_enter? short.1 entered]
      exact ih short.2 rest
  have noNulIn : path.toList.contains '\x00' = false := by
    rw [List.contains_eq_mem, decide_eq_false_iff_not]
    exact fits.noNul
  have some : path.isEmpty = false := by simpa using filled
  rw [locate, noNulIn, if_neg Bool.false_ne_true, some, if_neg Bool.false_ne_true,
    if_neg (Nat.not_le.2 fits.short)]
  exact follow fits.shortPieces names

theorem node?_of_locate (located : tree.locate path = .ok place) :
    tree.node? path = tree.root.find? place := by
  rw [node?, node, located]
  cases there : tree.root.find? place <;> simp only [bind, Except.bind, there] <;> rfl

theorem exists_locate_of_node? {node : FileNode} (there : tree.node? path = some node) :
    ∃ place, tree.locate path = .ok place ∧ tree.root.find? place = some node := by
  cases located : tree.locate path with
  | ok place => exact ⟨place, rfl, node?_of_locate located ▸ there⟩
  | error e =>
    rw [node?, FileTree.node, located] at there
    cases there

/-- The system follows only paths within its limits. -/
theorem fits_of_node? (there : (tree.node? path).isSome) : Path.Fits path := by
  obtain ⟨node, seen⟩ := Option.isSome_iff_exists.1 there
  obtain ⟨place, located, _⟩ := exists_locate_of_node? seen
  have follow {pieces here next : List String}
      (followed : pieces.foldlM (enter tree.root) here = .ok next) :
      ∀ piece ∈ pieces, piece.utf8ByteSize ≤ 255 := by
    induction pieces generalizing here with
    | nil => exact fun _ => nofun
    | cons piece pieces ih =>
      cases entered : enter tree.root here piece with
      | error e =>
        rw [List.foldlM_cons, entered] at followed
        cases followed
      | ok middle =>
        rw [List.foldlM_cons, entered] at followed
        exact List.forall_mem_cons.2 ⟨utf8ByteSize_le_of_enter entered, ih followed⟩
  unfold locate at located
  split at located
  · cases located
  case isFalse noNul =>
    split at located
    · cases located
    · split at located
      · cases located
      case isFalse short =>
        rw [List.contains_eq_mem, decide_eq_true_iff] at noNul
        exact ⟨noNul, Nat.not_le.1 short, follow located⟩

/-- What the system finds by a path is what the path names. -/
theorem any_find?_of_node? {test : FileNode → Bool} (names : tree.Names path place)
    (seen : (tree.node? path).any test) : (tree.root.find? place).any test := by
  obtain ⟨node, there, holds⟩ := (Option.any_eq_true ..).1 seen
  obtain ⟨place', located, stands⟩ := exists_locate_of_node? there
  obtain rfl := Option.some.inj ((names_of_locate located).symm.trans names)
  rw [stands]
  exact holds

/-- Within its limits, the system finds by a path what the path names. -/
theorem node?_of_names (names : tree.Names path place) (filled : path ≠ "")
    (fits : Path.Fits path) : tree.node? path = tree.root.find? place :=
  node?_of_locate (locate_of_names names filled fits)

/-- The parts of a path lead where the path leads. -/
theorem Names.foldlM_parts (names : tree.Names path place) :
    (Path.parts path).foldlM tree.root.enter? (tree.start path) = some place := by
  obtain ⟨front, back, frontEmpty, backEmpty, split⟩ := Path.exists_pieces_eq path
  rw [Names, split] at names
  obtain ⟨last, names, behind⟩ := FileNode.foldlM_enter?_append.1 names
  obtain ⟨first, before, names⟩ := FileNode.foldlM_enter?_append.1 names
  rw [FileNode.eq_of_foldlM_enter? (fun s mem => .inl (frontEmpty s mem)) before] at names
  rw [FileNode.eq_of_foldlM_enter? (fun s mem => .inl (backEmpty s mem)) behind]
  exact names

/-- What is joined to a path is followed from the place that the path names. -/
theorem names_join {dir : String} {here : List String} (names : tree.Names dir here)
    (relative : Path.isAbsolute path = false)
    (behind : (Text.pieces '/' path).foldlM tree.root.enter? here = some place) :
    tree.Names (Path.join dir path) place := by
  obtain ⟨front, empty, areEmpty, own, joined⟩ := Path.pieces_join dir relative
  rw [Names, own] at names
  obtain ⟨middle, before, stays⟩ := FileNode.foldlM_enter?_append.1 names
  rw [FileNode.eq_of_foldlM_enter? (fun s mem => .inl (areEmpty s mem)) stays] at behind
  rw [Names, joined, start, Path.isAbsolute_join_relative dir relative]
  exact FileNode.foldlM_enter?_append.2 ⟨middle, before, behind⟩

end FileTree

end CommandSuite
