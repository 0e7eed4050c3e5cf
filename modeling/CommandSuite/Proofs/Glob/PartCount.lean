import CommandSuite.Proofs.Glob.Search

/-!
# How many parts of a kind are in what is found

A search goes by one part for each component of its pattern, and by names for a recursive one. So
the parts of a kind can be counted in the pattern instead of in the paths that match it.

* `countP_components`: the components of a pattern are counted by its parts.
* `Covers.countP_le`, `Covers.le_countP`: there are as many parts of a kind as components that
  mean only such, and no more than components that may mean one, as long as no name is of the
  kind.
* `exists_walk_of_mem_find` tells the parts of a path that is found.
-/

namespace CommandSuite.Glob

variable {root : FileNode} {tree : FileTree} {f g : Found} {pattern : String} {read : PathPattern}
  {found : List Found} {ps : List ComponentPattern} {parts : List String} {part : String}

/-! ## Components of a pattern -/

/-- The component that a part of a pattern stands for, if the part can be read. -/
def ComponentPattern.ofPart? (part : String) : Option ComponentPattern :=
  (tokens part.toList).toOption.map ofTokens

open ComponentPattern (ofPart?)

theorem climbs_eq (part : String) : climbs part = (ofPart? part).any ComponentPattern.climbs := by
  rw [climbs, ofPart?]
  cases tokens part.toList <;> rfl

theorem countP_of_mapM {ε α β : Type} {f : α → Except ε β} {as : List α} {bs : List β}
    (each : as.mapM f = .ok bs) (test : β → Bool) :
    bs.countP test = as.countP fun a => (f a).toOption.any test := by
  induction as generalizing bs with
  | nil =>
    obtain rfl := Except.ok.inj each
    rfl
  | cons a as ih =>
    rw [List.mapM_cons] at each
    obtain ⟨b, first, each⟩ := exists_of_bind_eq_ok each
    obtain ⟨others, rest, each⟩ := exists_of_bind_eq_ok each
    obtain rfl := Except.ok.inj each
    rw [List.countP_cons, List.countP_cons, ih rest, first]
    rfl

section Counted

variable {test : ComponentPattern → Bool} (plain : test .recursive = false)

include plain

theorem countP_mergeRecursive (ps : List ComponentPattern) :
    (mergeRecursive ps).countP test = ps.countP test := by
  induction ps with
  | nil => rfl
  | cons p ps ih =>
    rw [mergeRecursive]
    split
    case isTrue both =>
      have recursive : p = .recursive := by
        rw [Bool.and_eq_true, decide_eq_true_iff] at both
        exact both.1
      rw [ih, List.countP_cons, recursive, plain]
      rfl
    case isFalse => rw [List.countP_cons, List.countP_cons, ih]

/-- The components of a pattern are those of its parts. -/
theorem countP_components (empty : test (.literal "") = false)
    (isRead : PathPattern.ofText pattern = .ok read) :
    read.components.countP test = (Path.parts pattern).countP fun part =>
      (ofPart? part).any test := by
  rw [ofText_eq] at isRead
  obtain ⟨_, _, isRead⟩ := exists_of_bind_eq_ok isRead
  obtain ⟨lists, each, isRead⟩ := exists_of_bind_eq_ok isRead
  obtain rfl := Except.ok.inj isRead
  refine (countP_mergeRecursive plain _).trans ?_
  split
  case isTrue none =>
    have noParts : Path.parts pattern = [] := by
      rw [Path.parts, List.isEmpty_iff.1 none]
      rfl
    rw [noParts, List.countP_singleton, empty]
    rfl
  case isFalse =>
    rw [List.countP_map, countP_of_mapM each]
    simp only [ofPart?, Option.any_map]
    rfl

end Counted

/-- Each part of a pattern that can be read can be read by itself. -/
theorem exists_tokens_of_mem_parts (isRead : PathPattern.ofText pattern = .ok read)
    (isPart : part ∈ Path.parts pattern) : ∃ ts, tokens part.toList = .ok ts := by
  rw [ofText_eq] at isRead
  obtain ⟨_, _, isRead⟩ := exists_of_bind_eq_ok isRead
  obtain ⟨lists, each, _⟩ := exists_of_bind_eq_ok isRead
  rcases mapM_cases (fun part : String => tokens part.toList) (Path.parts pattern) with
    ⟨_, _, all, _⟩ | ⟨_, _, _, _, fails⟩
  · exact all part isPart
  · cases each.symm.trans fails

/-! ## Parts of a walk -/

theorem Covers.slash_notMem (covers : Covers root ps parts) :
    ∀ part ∈ parts, '/' ∉ part.toList := by
  induction covers with
  | nil => exact fun _ => nofun
  | part _ leads _ ih => exact List.forall_mem_cons.2 ⟨leads.slash_notMem, ih⟩
  | names areNames _ ih =>
    exact List.forall_mem_append.2 ⟨fun name mem => (areNames name mem).1.2, ih⟩

section Kinds

variable {test : ComponentPattern → Bool} {kind : String → Bool}

/-- There are as many parts of a kind as components that mean nothing else. -/
theorem Covers.countP_le (covers : Covers root ps parts) (plain : test .recursive = false)
    (means : ∀ p part, test p → p.accepts part → kind part) :
    ps.countP test ≤ parts.countP kind := by
  induction covers with
  | nil => exact Nat.le_refl 0
  | @part p _ part _ accepted _ _ ih =>
    rw [List.countP_cons, List.countP_cons]
    refine Nat.add_le_add ih ?_
    by_cases only : test p
    · exact Nat.le_of_eq ((if_pos only).trans (if_pos (means p part only accepted)).symm)
    · rw [if_neg only]
      exact Nat.zero_le _
  | names _ _ ih =>
    rw [List.countP_cons, plain, if_neg Bool.false_ne_true, List.countP_append]
    exact Nat.le_add_left_of_le ih

/-- There are no more parts of a kind than components that may mean one. -/
theorem Covers.le_countP (covers : Covers root ps parts)
    (noName : ∀ name, Path.IsName name → root.HasName name → ¬ kind name)
    (means : ∀ p part, Found.MayLead root (ComponentPattern.climbs p) part → kind part → test p) :
    parts.countP kind ≤ ps.countP test := by
  induction covers with
  | nil => exact Nat.le_refl 0
  | @part p _ part _ _ leads _ ih =>
    rw [List.countP_cons, List.countP_cons]
    refine Nat.add_le_add ih ?_
    by_cases isKind : kind part
    · exact Nat.le_of_eq ((if_pos isKind).trans (if_pos (means p part leads isKind)).symm)
    · rw [if_neg isKind]
      exact Nat.zero_le _
  | names areNames _ ih =>
    have none : ∀ name ∈ _, ¬ kind name := fun name mem =>
      noName name (areNames name mem).1 (areNames name mem).2
    rw [List.countP_append, List.countP_eq_zero.2 none, Nat.zero_add, List.countP_cons]
    exact Nat.le_add_right_of_le ih

namespace Found

variable (empty : kind "" = false) (here : kind "." = false)

include empty here

/-- A step adds its part to the path. -/
theorem StepBy.countP_parts (step : StepBy root part f g) (whole : '/' ∉ part.toList) :
    (Path.parts g.path).countP kind = (Path.parts f.path).countP kind + [part].countP kind := by
  have relative := Path.isAbsolute_of_slash_notMem whole
  have own : (Path.parts part).countP kind = [part].countP kind := by
    rw [Path.parts_of_slash_notMem whole]
    split
    case isTrue isEmpty => rw [isEmpty, List.countP_singleton, empty]; rfl
    case isFalse => rfl
  have joined : g.path = Path.join f.path part →
      (Path.parts g.path).countP kind = (Path.parts f.path).countP kind + [part].countP kind := by
    intro written
    rw [written, Path.parts_join f.path relative, List.countP_append, own]
  rcases step.written with ⟨_, written⟩ | written
  · rw [pathTo] at written
    split at written
    case isTrue isHere =>
      -- nothing is lost with the dot that the path was
      have none : (Path.parts f.path).countP kind = 0 := by
        refine List.countP_eq_zero.2 fun s isPart => ?_
        rcases stays_of_mem_parts isHere isPart with rfl | rfl
        · exact Bool.eq_false_iff.1 empty
        · exact Bool.eq_false_iff.1 here
      rw [written, own, none, Nat.zero_add]
    case isFalse => exact joined written
  · exact joined written

theorem Walk.countP_parts (walk : Walk root parts f g)
    (whole : ∀ part ∈ parts, '/' ∉ part.toList) :
    (Path.parts g.path).countP kind = (Path.parts f.path).countP kind + parts.countP kind := by
  induction walk with
  | nil => rfl
  | cons step _ ih =>
    rw [List.forall_mem_cons] at whole
    rw [ih whole.2, step.countP_parts empty here whole.1, Nat.add_assoc, ← List.countP_append]
    rfl

/-- Each name leads one level down, and only `..` leads up. -/
theorem Walk.length_place_le (walk : Walk root parts f g) (up : kind ".." = false) :
    f.place.length + parts.countP kind ≤ g.place.length + parts.countP (· == "..") := by
  induction walk with
  | nil => exact Nat.le_refl _
  | @cons part parts f g h step _ ih =>
    have level :
        f.place.length + [part].countP kind ≤ g.place.length + [part].countP (· == "..") := by
      have leads := step.leads
      rw [FileNode.enter?] at leads
      split at leads
      · cases leads
      split at leads
      case isTrue stays =>
        rw [← Option.some.inj leads]
        rcases stays with rfl | rfl
        · rw [List.countP_singleton, empty]
          exact Nat.le_add_right _ _
        · rw [List.countP_singleton, here]
          exact Nat.le_add_right _ _
      case isFalse =>
        split at leads
        case isTrue goesUp =>
          subst goesUp
          rw [← Option.some.inj leads, List.countP_singleton, up, List.length_dropLast]
          show f.place.length ≤ f.place.length - 1 + 1
          omega
        case isFalse =>
          split at leads
          case isTrue =>
            rw [← Option.some.inj leads, List.length_append, List.length_singleton]
            have one : [part].countP kind ≤ 1 := List.countP_le_length
            omega
          case isFalse => cases leads
    rw [List.countP_cons, List.countP_cons]
    rw [List.countP_singleton, List.countP_singleton] at level
    omega

end Found

theorem Found.countP_parts_start (here : kind "." = false) (tree : FileTree) (absolute : Bool) :
    (Path.parts (start tree absolute).path).countP kind = 0 := by
  cases absolute with
  | true =>
    show (Path.parts "/").countP kind = 0
    rw [show Path.parts "/" = [] by decide]
    rfl
  | false =>
    show (Path.parts ".").countP kind = 0
    rw [show Path.parts "." = ["."] by decide, List.countP_singleton, here]
    rfl

end Kinds

/-- What a pattern finds is reached by a walk that its components cover, and the path is made of
the parts of the walk. -/
theorem exists_walk_of_mem_find (wellFormed : tree.root.wellFormed)
    (matched : find tree pattern = .ok found) (mem : f ∈ found) :
    ∃ read parts, PathPattern.ofText pattern = .ok read ∧ Covers tree.root read.components parts ∧
      Found.Walk tree.root parts (Found.start tree read.absolute) f ∧
      ∀ kind : String → Bool, kind "" = false → kind "." = false →
        (Path.parts f.path).countP kind = parts.countP kind := by
  obtain ⟨read, isRead, all⟩ := exists_of_bind_eq_ok matched
  obtain rfl := Except.ok.inj all
  obtain ⟨reached, _⟩ := PathPattern.mem_find_iff.1 mem
  obtain ⟨parts, covers, walk⟩ := exists_walk_of_mem_findFrom wellFormed reached
  refine ⟨read, parts, isRead, covers, walk, fun kind empty here => ?_⟩
  rw [walk.countP_parts empty here covers.slash_notMem]
  refine (congrArg (· + _) (Found.countP_parts_start here tree read.absolute)).trans ?_
  exact Nat.zero_add _

end CommandSuite.Glob
