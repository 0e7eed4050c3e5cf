import CommandSuite.Glob.Search
import CommandSuite.Proofs.FileTree
import CommandSuite.Proofs.Glob.Pattern

/-!
# What a search finds

A search goes from what it has found to what it finds next by one part: an entry of a directory,
`.`, `..` or nothing. So all that is known of a path that was found is derived from what one part
does to it.

* `Found.StepBy` is such a step and `Found.Walk` a chain of them; `Covers` says which walks the
  components of a pattern allow, and `findFrom_induction` is the induction over the steps of a
  search.
* `Found.Sound` says what holds of all that is found: the path names the place, and its parts are
  names of the tree, or dots where the pattern may mean them.
* `Found.mem_descendants_iff`: what is below a directory is what chains of names lead to.
-/

namespace CommandSuite

namespace FileNode

/-- Some directory of the tree has an entry of this name. -/
def HasName (root : FileNode) (name : String) : Prop :=
  ∃ place, ((root.find? place).bind (·.child? name)).isSome

end FileNode

namespace Glob

namespace Found

variable {root : FileNode} {f g : Found} {part name : String} {p : ComponentPattern}

/-! ## Steps -/

/-- One part leads from what was found to what is found next. -/
structure StepBy (root : FileNode) (part : String) (f g : Found) : Prop where
  written : part ≠ "" ∧ g.path = f.pathTo part ∨ g.path = Path.join f.path part
  leads : root.enter? f.place part = some g.place

/-- The parts by which a search may go on in a tree, given whether it may go up. -/
inductive MayLead (root : FileNode) (goesUp : Prop) : String → Prop
  | empty : MayLead root goesUp ""
  | here : MayLead root goesUp "."
  | up (goes : goesUp) : MayLead root goesUp ".."
  | name {name : String} (isName : Path.IsName name) (there : root.HasName name) :
      MayLead root goesUp name

theorem MayLead.imp {goesUp mayGo : Prop} (leads : MayLead root goesUp part)
    (more : goesUp → mayGo) : MayLead root mayGo part := by
  cases leads with
  | empty => exact .empty
  | here => exact .here
  | up goes => exact .up (more goes)
  | name isName there => exact .name isName there

theorem MayLead.slash_notMem {goesUp : Prop} (leads : MayLead root goesUp part) :
    '/' ∉ part.toList := by
  cases leads with
  | empty | here | up => decide
  | name isName => exact isName.2

/-- An entry of a directory is found by its name. -/
theorem stepBy_entry (isName : Path.IsName name)
    (there : ((root.find? f.place).bind (·.child? name)).isSome) :
    StepBy root name f (f.entry name) where
  written := .inl ⟨isName.ne_empty, rfl⟩
  leads := FileNode.enter?_name isName there

/-- A component without wildcards leads on by itself. -/
theorem stepBy_of_follow (wellFormed : root.wellFormed) (followed : f.follow root name = some g) :
    MayLead root (ComponentPattern.literal name).climbs name ∧ StepBy root name f g := by
  rw [follow] at followed
  split at followed
  · cases followed
  case isFalse listed =>
    have directory : f.isDirectory root := by simpa using listed
    split at followed
    case isTrue here =>
      obtain rfl := Option.some.inj followed
      subst here
      exact ⟨.here, .inl ⟨by decide, rfl⟩, FileNode.enter?_stays (.inr rfl) directory⟩
    case isFalse =>
      split at followed
      case isTrue up =>
        obtain rfl := Option.some.inj followed
        subst up
        exact ⟨.up rfl, .inl ⟨by decide, rfl⟩, FileNode.enter?_up directory⟩
      case isFalse =>
        split at followed
        case isTrue empty =>
          split at followed
          · cases followed
          · obtain rfl := Option.some.inj followed
            subst empty
            exact ⟨.empty, .inr rfl, FileNode.enter?_stays (.inl rfl) directory⟩
        case isFalse =>
          split at followed
          case isTrue there =>
            obtain rfl := Option.some.inj followed
            have isName := FileNode.isName_of_child? wellFormed there
            exact ⟨.name isName ⟨f.place, there⟩, stepBy_entry isName there⟩
          case isFalse => cases followed

/-- A wildcard leads to entries of the directory, and to the dots that it means. -/
theorem exists_stepBy_of_mem_matching (wellFormed : root.wellFormed)
    (mem : g ∈ f.matching root p) :
    ∃ part, p.accepts part ∧ MayLead root p.climbs part ∧ StepBy root part f g := by
  rw [matching] at mem
  split at mem
  case h_2 => cases mem
  case h_1 entries found =>
    have directory : (root.find? f.place).any FileNode.isDirectory := by
      rw [show root.find? f.place = _ from found]
      rfl
    rcases List.mem_append.1 mem with dots | named
    · rw [dotEntries] at dots
      split at dots
      case isFalse => cases dots
      case isTrue dotted =>
        rcases List.mem_append.1 dots with up | here
        · split at up
          case isFalse => cases up
          case isTrue accepted =>
            rw [List.mem_singleton.1 up]
            have climbs : p.climbs := by simp [ComponentPattern.climbs, dotted, accepted]
            exact ⟨"..", accepted, .up climbs, .inr rfl, FileNode.enter?_up directory⟩
        · split at here
          case isFalse => cases here
          case isTrue accepted =>
            rw [List.mem_singleton.1 here]
            exact ⟨".", accepted, .here, .inr rfl, FileNode.enter?_stays (.inr rfl) directory⟩
    · obtain ⟨⟨name, child⟩, isMeant, rfl⟩ := List.mem_map.1 named
      obtain ⟨isEntry, accepted⟩ := List.mem_filter.1 isMeant
      have there : ((root.find? f.place).bind (·.child? name)).isSome := by
        have inner := FileNode.wellFormed_of_find? wellFormed found
        rw [show root.find? f.place = _ from found, Option.bind_some,
          FileNode.child?_of_mem inner isEntry]
        rfl
      have isName := FileNode.isName_of_child? wellFormed there
      exact ⟨name, accepted, .name isName ⟨f.place, there⟩, stepBy_entry isName there⟩

/-! ## Walks -/

/-- One part after the other leads from what was found to what is found in the end. -/
inductive Walk (root : FileNode) : List String → Found → Found → Prop
  | nil {f : Found} : Walk root [] f f
  | cons {part : String} {parts : List String} {f g h : Found} (step : StepBy root part f g)
      (rest : Walk root parts g h) : Walk root (part :: parts) f h

theorem walk_append_iff {front back : List String} :
    Walk root (front ++ back) f g ↔ ∃ h, Walk root front f h ∧ Walk root back h g := by
  induction front generalizing f with
  | nil =>
    constructor
    · exact fun walk => ⟨f, .nil, walk⟩
    · rintro ⟨_, ⟨⟩, walk⟩
      exact walk
  | cons part front ih =>
    constructor
    · rintro (_ | ⟨step, rest⟩)
      obtain ⟨h, before, after⟩ := ih.1 rest
      exact ⟨h, .cons step before, after⟩
    · rintro ⟨h, _ | ⟨step, before⟩, after⟩
      exact .cons step (ih.2 ⟨h, before, after⟩)

/-- What each part of a walk keeps is kept by the walk. -/
theorem Walk.induction {P : Found → Prop} {parts : List String} (walk : Walk root parts f g)
    (step : ∀ part ∈ parts, ∀ f g, P f → StepBy root part f g → P g) (start : P f) : P g := by
  induction walk with
  | nil => exact start
  | cons first _ ih =>
    rw [List.forall_mem_cons] at step
    exact ih step.2 (step.1 _ _ start first)

/-! ## What is below a directory -/

/-- What is found by a chain of names. -/
def down (f : Found) (names : List String) : Found := names.foldl entry f

theorem place_down (f : Found) (names : List String) :
    (f.down names).place = f.place ++ names := by
  induction names generalizing f with
  | nil => exact (List.append_nil _).symm
  | cons name names ih => exact (ih (f.entry name)).trans (List.append_assoc ..)

theorem mem_belowEntries_iff {entries : List (String × FileNode)} :
    g ∈ belowEntries f entries ↔
    ∃ e ∈ entries, g = f.entry e.1 ∨ g ∈ (f.entry e.1).below e.2 := by
  induction entries with
  | nil => simp [belowEntries]
  | cons e entries ih =>
    obtain ⟨name, node⟩ := e
    simp [belowEntries, ih, or_assoc]

/-- What is listed below a node is what chains of names lead to from there. -/
theorem exists_names_of_mem_below {f g : Found} {node : FileNode} (wellFormed : node.wellFormed)
    (mem : g ∈ f.below node) :
    ∃ names, names ≠ [] ∧ (node.find? names).isSome ∧ g = f.down names := by
  cases node with
  | file | program | device => cases mem
  | directory entries =>
    obtain ⟨⟨name, child⟩, isEntry, found⟩ := mem_belowEntries_iff.1 mem
    have isChild := FileNode.child?_of_mem wellFormed isEntry
    rcases found with rfl | deeper
    · exact ⟨[name], List.cons_ne_nil _ _, by rw [FileNode.find?, isChild]; rfl, rfl⟩
    · have inner := (FileNode.wellFormed_directory.1 wellFormed).2.2 _ isEntry
      obtain ⟨names, _, there, rfl⟩ := exists_names_of_mem_below inner deeper
      exact ⟨name :: names, List.cons_ne_nil _ _, by rw [FileNode.find?, isChild]; exact there,
        rfl⟩
termination_by sizeOf node
decreasing_by
  have smaller := List.sizeOf_lt_of_mem isEntry
  simp only [Prod.mk.sizeOf_spec] at smaller
  subst_vars
  simp only [FileNode.directory.sizeOf_spec]
  omega

theorem mem_below_of_names {node : FileNode} {names : List String} (filled : names ≠ [])
    (there : (node.find? names).isSome) : f.down names ∈ f.below node := by
  induction names generalizing f node with
  | nil => exact absurd rfl filled
  | cons name names ih =>
    obtain ⟨node', found⟩ := Option.isSome_iff_exists.1 there
    obtain ⟨child, isChild, below⟩ := Option.bind_eq_some_iff.1 found
    obtain ⟨entries, rfl, isEntry⟩ := FileNode.exists_of_child? isChild
    refine mem_belowEntries_iff.2 ⟨_, isEntry, ?_⟩
    by_cases last : names = []
    · subst last
      exact .inl rfl
    · exact .inr (ih last (Option.isSome_iff_exists.2 ⟨node', below⟩))

/-- **What is below a directory** is what chains of names lead to from there. -/
theorem mem_descendants_iff (wellFormed : root.wellFormed) :
    g ∈ f.descendants root ↔
      ∃ names, names ≠ [] ∧ (root.find? (f.place ++ names)).isSome ∧ g = f.down names := by
  rw [descendants, node?]
  cases there : root.find? f.place with
  | none => simp [FileNode.find?_append, there]
  | some node =>
    have inner := FileNode.wellFormed_of_find? wellFormed there
    simp only [FileNode.find?_append, there, Option.bind_some]
    constructor
    · exact exists_names_of_mem_below inner
    · rintro ⟨names, filled, found, rfl⟩
      exact mem_below_of_names filled found

/-- What a chain of names leads to is reached by a walk. -/
theorem walk_down {names : List String} (wellFormed : root.wellFormed)
    (there : (root.find? (f.place ++ names)).isSome) :
    (∀ name ∈ names, Path.IsName name ∧ root.HasName name) ∧
      Walk root names f (f.down names) := by
  induction names generalizing f with
  | nil => exact ⟨fun _ => nofun, .nil⟩
  | cons name names ih =>
    rw [List.append_cons] at there
    have child : ((root.find? f.place).bind (·.child? name)).isSome := by
      rw [FileNode.find?_append, FileNode.find?_concat] at there
      obtain ⟨node, found⟩ := Option.isSome_iff_exists.1 there
      obtain ⟨inner, isChild, _⟩ := Option.bind_eq_some_iff.1 found
      rw [isChild]
      rfl
    have isName := FileNode.isName_of_child? wellFormed child
    obtain ⟨areNames, walk⟩ := ih (f := f.entry name) there
    exact ⟨List.forall_mem_cons.2 ⟨⟨isName, f.place, child⟩, areNames⟩,
      .cons (stepBy_entry isName child) walk⟩

end Found

/-! ## Searches -/

variable {root : FileNode} {f g : Found}

/-- What the components of a pattern lead by: each by one part that it means, a recursive one by
any chain of names. -/
inductive Covers (root : FileNode) : List ComponentPattern → List String → Prop
  | nil : Covers root [] []
  | part {p : ComponentPattern} {ps : List ComponentPattern} {part : String} {parts : List String}
      (accepted : p.accepts part) (leads : Found.MayLead root p.climbs part)
      (rest : Covers root ps parts) : Covers root (p :: ps) (part :: parts)
  | names {ps : List ComponentPattern} {names parts : List String}
      (areNames : ∀ name ∈ names, Path.IsName name ∧ root.HasName name)
      (rest : Covers root ps parts) : Covers root (.recursive :: ps) (names ++ parts)

/-- What a search finds is reached by a walk that its components cover. -/
theorem exists_walk_of_mem_findFrom (wellFormed : root.wellFormed) :
    ∀ {ps : List ComponentPattern} {f : Found}, g ∈ findFrom root ps f →
      ∃ parts, Covers root ps parts ∧ Found.Walk root parts f g
  | [], f, mem => by
    rw [findFrom, List.mem_singleton] at mem
    exact ⟨[], .nil, mem ▸ .nil⟩
  | .literal name :: ps, f, mem => by
    obtain ⟨next, followed, later⟩ := List.mem_flatMap.1 mem
    obtain ⟨leads, step⟩ := Found.stepBy_of_follow wellFormed (Option.mem_toList.1 followed)
    obtain ⟨parts, covers, walk⟩ := exists_walk_of_mem_findFrom wellFormed later
    exact ⟨name :: parts, .part (decide_eq_true rfl) leads covers, .cons step walk⟩
  | .wild ts :: ps, f, mem => by
    obtain ⟨next, matched, later⟩ := List.mem_flatMap.1 mem
    obtain ⟨part, accepted, leads, step⟩ := Found.exists_stepBy_of_mem_matching wellFormed matched
    obtain ⟨parts, covers, walk⟩ := exists_walk_of_mem_findFrom wellFormed later
    exact ⟨part :: parts, .part accepted leads covers, .cons step walk⟩
  | [.recursive], f, mem => by
    obtain ⟨names, _, there, rfl⟩ :=
      (Found.mem_descendants_iff wellFormed).1 (List.mem_filter.1 mem).1
    obtain ⟨areNames, walk⟩ := Found.walk_down wellFormed there
    exact ⟨names ++ [], .names areNames .nil, (List.append_nil names).symm ▸ walk⟩
  | .recursive :: p :: ps, f, mem => by
    obtain ⟨next, below, later⟩ := List.mem_flatMap.1 mem
    obtain ⟨isBelow, accepted⟩ := List.mem_filter.1 below
    obtain ⟨names, filled, there, rfl⟩ := (Found.mem_descendants_iff wellFormed).1 isBelow
    obtain ⟨areNames, walk⟩ := Found.walk_down wellFormed there
    obtain ⟨parts, covers, onward⟩ := exists_walk_of_mem_findFrom wellFormed later
    -- the last of the names is the part of the component behind
    obtain ⟨front, last, rfl⟩ : ∃ front last, names = front ++ [last] :=
      ⟨_, _, (List.dropLast_concat_getLast filled).symm⟩
    obtain ⟨areFront, isLast⟩ := List.forall_mem_append.1 areNames
    obtain ⟨isName, hasName⟩ := List.forall_mem_singleton.1 isLast
    rw [Found.name, Found.place_down, ← List.append_assoc, List.getLast?_concat,
      Option.getD_some] at accepted
    refine ⟨front ++ last :: parts,
      .names areFront (.part accepted (.name isName hasName) covers), ?_⟩
    rw [List.append_cons]
    exact Found.walk_append_iff.2 ⟨_, walk, onward⟩

/-- What holds at the start of a search and is kept by every step that its components may take
holds of all that it finds. -/
theorem findFrom_induction {P : Found → Prop} {ps : List ComponentPattern}
    (wellFormed : root.wellFormed)
    (step : ∀ p ∈ ps, ∀ f g part, P f → Found.MayLead root p.climbs part →
      Found.StepBy root part f g → P g)
    (start : P f) (mem : g ∈ findFrom root ps f) : P g := by
  obtain ⟨parts, covers, walk⟩ := exists_walk_of_mem_findFrom wellFormed mem
  clear mem
  induction covers generalizing f with
  | nil =>
    cases walk
    exact start
  | part _ leads _ ih =>
    rw [List.forall_mem_cons] at step
    obtain _ | ⟨first, rest⟩ := walk
    exact ih step.2 (step.1 _ _ _ start leads first) rest
  | names areNames _ ih =>
    rw [List.forall_mem_cons] at step
    obtain ⟨h, before, rest⟩ := Found.walk_append_iff.1 walk
    refine ih step.2 (before.induction (fun name mem f g holds first => ?_) start) rest
    exact step.1 f g name holds (.name (areNames name mem).1 (areNames name mem).2) first

/-- Only from a directory is anything found further on. -/
theorem isDirectory_of_mem_findFrom {p : ComponentPattern} {ps : List ComponentPattern}
    (mem : g ∈ findFrom root (p :: ps) f) : f.isDirectory root := by
  cases directory : f.isDirectory root with
  | true => rfl
  | false =>
  have noEntries : ∀ entries, f.node? root ≠ some (.directory entries) := by
    intro entries there
    rw [Found.isDirectory, there] at directory
    cases directory
  cases p with
  | literal name =>
    have nothing : f.follow root name = none := by
      rw [Found.follow, directory]
      rfl
    rw [findFrom, nothing] at mem
    cases mem
  | wild ts =>
    have nothing : f.matching root (.wild ts) = [] := by
      rw [Found.matching]
      split
      · exact absurd ‹_› (noEntries _)
      · rfl
    rw [findFrom, nothing] at mem
    cases mem
  | recursive =>
    have nothing : f.descendants root = [] := by
      rw [Found.descendants]
      split
      case h_1 node there =>
        cases node with
        | directory entries => exact absurd there (noEntries entries)
        | _ => rfl
      case h_2 => rfl
    cases ps with
    | nil =>
      rw [findFrom, nothing] at mem
      cases mem
    | cons p ps =>
      rw [findFrom, nothing] at mem
      cases mem

/-! ## Paths of what is found -/

namespace Found

variable {tree : FileTree} {p : ComponentPattern} {part : String}

/-- What is known of all that is found: the path is not empty and names the place, and each of its
parts is one by which a search may go on. -/
structure Sound (tree : FileTree) (allowed : String → Prop) (f : Found) : Prop where
  filled : f.path ≠ ""
  names : tree.Names f.path f.place
  parts : ∀ part ∈ Path.parts f.path, part ≠ "" ∧ allowed part

/-- A path that is nothing but a dot leads nowhere else. -/
theorem stays_of_isHere (here : f.isHere) :
    Path.isAbsolute f.path = false ∧ ∀ s ∈ Text.pieces '/' f.path, s = "" ∨ s = "." := by
  have alone : Path.components f.path = [.here] := of_decide_eq_true here
  have relative : Path.isAbsolute f.path = false := by
    cases rooted : Path.isAbsolute f.path with
    | false => rfl
    | true =>
      rw [Path.components, if_pos rooted] at alone
      cases alone
  refine ⟨relative, fun s mem => ?_⟩
  rw [Path.components, relative, if_neg Bool.false_ne_true] at alone
  cases read : Path.Component.ofPiece? s with
  | none =>
    rw [Path.Component.ofPiece?] at read
    split at read
    case isTrue stays => simpa using stays
    case isFalse => split at read <;> cases read
  | some c =>
    -- a piece that is read makes a component of its own, and none that is `here`
    have isComponent : c ∈ (Text.pieces '/' f.path).filterMap Path.Component.ofPiece? :=
      List.mem_filterMap.2 ⟨s, mem, read⟩
    have among : c = .here := by
      rw [← List.mem_singleton, ← alone]
      exact List.mem_append_right _ isComponent
    rcases Path.up_or_name_of_ofPiece? read with rfl | ⟨name, rfl⟩ <;> cases among

theorem stays_of_mem_parts (here : f.isHere) (isPart : part ∈ Path.parts f.path) :
    part = "" ∨ part = "." := by
  obtain ⟨front, back, _, _, split⟩ := Path.exists_pieces_eq f.path
  have isPiece : part ∈ Text.pieces '/' f.path := by
    rw [split]
    exact List.mem_append_left back (List.mem_append_right front isPart)
  exact (stays_of_isHere here).2 part isPiece

/-- The working directory is the place of a path that is nothing but a dot. -/
theorem place_of_isHere (here : f.isHere) (names : tree.Names f.path f.place) :
    f.place = tree.workingDir := by
  obtain ⟨relative, stay⟩ := stays_of_isHere here
  rw [FileTree.Names, FileTree.start, relative, if_neg Bool.false_ne_true] at names
  exact FileNode.eq_of_foldlM_enter? stay names

/-- A part that is allowed keeps all that is known. -/
theorem Sound.step {allowed : String → Prop} (sound : f.Sound tree allowed)
    (whole : '/' ∉ part.toList) (isAllowed : allowed part) (stepBy : StepBy tree.root part f g) :
    g.Sound tree allowed := by
  have relative := Path.isAbsolute_of_slash_notMem whole
  have alone : Text.pieces '/' part = [part] := by
    rw [Text.pieces, Text.splitOn_eq_singleton whole, List.map_singleton, String.ofList_toList]
  have entered : (Text.pieces '/' part).foldlM tree.root.enter? f.place = some g.place := by
    rw [alone, List.foldlM_cons, stepBy.leads]
    rfl
  have own : ∀ s ∈ Path.parts part, s ≠ "" ∧ allowed s := by
    intro s mem
    rw [Path.parts_of_slash_notMem whole] at mem
    split at mem
    · cases mem
    case isFalse filled =>
      rw [List.mem_singleton.1 mem]
      exact ⟨filled, isAllowed⟩
  have joined : g.path = Path.join f.path part → g.Sound tree allowed := by
    intro written
    constructor
    · rw [written, Ne, Path.join_eq_empty_iff, not_and]
      exact fun none => absurd none sound.filled
    · rw [written]
      exact FileTree.names_join sound.names relative entered
    · rw [written, Path.parts_join f.path relative]
      exact List.forall_mem_append.2 ⟨sound.parts, own⟩
  rcases stepBy.written with ⟨filled, written⟩ | written
  · rw [pathTo] at written
    split at written
    case isTrue here =>
      constructor
      · rwa [written]
      · rw [written, FileTree.Names, FileTree.start, relative, if_neg Bool.false_ne_true,
          ← place_of_isHere here sound.names]
        exact entered
      · rw [written]
        exact own
    case isFalse => exact joined written
  · exact joined written

/-- Where a search starts. -/
def start (tree : FileTree) (absolute : Bool) : Found :=
  if absolute then ⟨"/", []⟩ else ⟨".", tree.workingDir⟩

theorem sound_start {goesUp : Prop} {absolute : Bool}
    (directory : (start tree absolute).isDirectory tree.root) :
    (start tree absolute).Sound tree (MayLead tree.root goesUp) := by
  cases absolute with
  | true =>
    constructor
    · exact (by decide : "/" ≠ "")
    · have stays : tree.root.enter? [] "" = some [] := FileNode.enter?_stays (.inl rfl) directory
      have pieces : Text.pieces '/' "/" = ["", ""] := by decide
      have top : tree.start "/" = [] := if_pos (by decide)
      show (Text.pieces '/' "/").foldlM tree.root.enter? (tree.start "/") = some []
      rw [pieces, top, List.foldlM_cons, stays]
      exact congrArg (· >>= pure) stays
    · have parts : Path.parts "/" = [] := by decide
      show ∀ part ∈ Path.parts "/", _
      rw [parts]
      exact fun _ => nofun
  | false =>
    constructor
    · exact (by decide : "." ≠ "")
    · have stays : tree.root.enter? tree.workingDir "." = some tree.workingDir :=
        FileNode.enter?_stays (.inr rfl) directory
      have pieces : Text.pieces '/' "." = ["."] := by decide
      have base : tree.start "." = tree.workingDir := if_neg (by decide)
      show (Text.pieces '/' ".").foldlM tree.root.enter? (tree.start ".") = some tree.workingDir
      rw [pieces, base]
      exact congrArg (· >>= pure) stays
    · have parts : Path.parts "." = ["."] := by decide
      show ∀ part ∈ Path.parts ".", _
      rw [parts, List.forall_mem_singleton]
      exact ⟨by decide, .here⟩

end Found

theorem PathPattern.mem_find_iff {tree : FileTree} {pattern : PathPattern} :
    f ∈ pattern.find tree ↔
    f ∈ findFrom tree.root pattern.components (Found.start tree pattern.absolute) ∧
      (!pattern.directoriesOnly || f.isDirectory tree.root) := by
  rw [PathPattern.find, List.mem_filter]
  rfl

/-- **What a search finds.** Each path that a pattern matches names the place that is found with
it, and its parts are names of the tree or dots, the double one only where the pattern may mean
it. -/
theorem sound_of_mem_find {tree : FileTree} {pattern : String} {found : List Found}
    (wellFormed : tree.root.wellFormed) (matched : find tree pattern = .ok found)
    (mem : f ∈ found) :
    f.Sound tree (Found.MayLead tree.root (∃ part ∈ Path.parts pattern, climbs part)) := by
  obtain ⟨read, isRead, all⟩ := exists_of_bind_eq_ok matched
  obtain rfl := Except.ok.inj all
  obtain ⟨absolute, filled, origin⟩ := ofText_cases isRead
  obtain ⟨reached, _⟩ := PathPattern.mem_find_iff.1 mem
  -- there is a first component, so that the start is a directory
  obtain ⟨first, others, split⟩ := List.exists_cons_of_ne_nil filled
  have directory : (Found.start tree read.absolute).isDirectory tree.root := by
    rw [split] at reached
    exact isDirectory_of_mem_findFrom reached
  refine findFrom_induction (P := Found.Sound tree _) wellFormed
    (fun p isComponent f g part sound leads stepBy => ?_) (Found.sound_start directory) reached
  refine sound.step leads.slash_notMem (leads.imp fun goes => ?_) stepBy
  rcases origin p isComponent with rfl | ⟨part, isPart, ts, reads, rfl⟩
  · exact absurd goes (by decide)
  · refine ⟨part, isPart, ?_⟩
    rw [climbs, reads]
    exact goes

end Glob

end CommandSuite
