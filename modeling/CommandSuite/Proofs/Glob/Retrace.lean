import CommandSuite.Proofs.Glob.Search

/-!
# The way back to what was found

The path of a directory that was found becomes part of a pattern, which a search then follows part
by part. It comes to where the path leads, and on the way it writes a path of its own, which may
lack dots and slashes of the one that it follows.

* `findFrom_literals`: the parts of a path that was found lead back to its place.
* `Found.suffix_path_down`: what is found from there has no longer path than it has from the
  directory.
-/

namespace CommandSuite

namespace Glob

variable {root : FileNode} {tree : FileTree} {f g : Found}

/-! ## How paths go on -/

namespace Found

variable {part name : String} {parts : List String}

/-- What stands in front of the next part of a path that goes on. -/
def front (f : Found) : String := f.pathTo ""

theorem pathTo_eq_front_append (f : Found) (relative : Path.isAbsolute part = false) :
    f.pathTo part = f.front ++ part := by
  rw [front, pathTo, pathTo]
  split
  · exact String.empty_append.symm
  · exact Path.join_eq_append f.path relative

theorem front_of_not_isHere (away : ¬ f.isHere) : f.front = Path.join f.path "" := if_neg away

/-- In front of what comes behind a part stands no more than the part, with a slash behind it. -/
theorem suffix_front_pathTo (filled : part ≠ "") (whole : '/' ∉ part.toList)
    (place : List String) :
    (Found.mk (f.pathTo part) place).front.toList <:+
      f.front.toList ++ (part.toList ++ ['/']) := by
  have written := f.pathTo_eq_front_append (Path.isAbsolute_of_slash_notMem whole)
  by_cases here : (Found.mk (f.pathTo part) place).isHere
  · rw [front, pathTo, if_pos here]
    exact List.nil_suffix
  · rw [front_of_not_isHere here, written, Path.join_empty_of_part filled whole,
      String.toList_append, String.toList_append, List.append_assoc]
    exact List.suffix_refl _

/-- Behind a name, a path always goes on with all that it was. -/
theorem front_entry (f : Found) (isName : Path.IsName name) :
    (f.entry name).front = f.front ++ name ++ "/" := by
  have relative := Path.isAbsolute_of_slash_notMem isName.2
  have own : Path.parts name = [name] := by
    rw [Path.parts_of_slash_notMem isName.2, if_neg isName.ne_empty]
  have isPart : name ∈ Path.parts (f.pathTo name) := by
    rw [pathTo]
    split
    · rw [own]
      exact List.mem_singleton_self name
    · rw [Path.parts_join f.path relative, own]
      exact List.mem_concat_self
  have away : ¬ (f.entry name).isHere := fun here =>
    (stays_of_mem_parts here isPart).elim isName.ne_empty isName.ne_dot
  rw [front_of_not_isHere away, entry, pathTo_eq_front_append f relative,
    Path.join_empty_of_part isName.ne_empty isName.2]

/-- The path that a search writes when it follows parts without wildcards. -/
def along (path : String) (parts : List String) : String :=
  parts.foldl (fun path part => (Found.mk path []).pathTo part) path

theorem suffix_front_along (f : Found)
    (each : ∀ part ∈ parts, part ≠ "" ∧ '/' ∉ part.toList) (place : List String) :
    (Found.mk (along f.path parts) place).front.toList <:+
      f.front.toList ++ parts.flatMap (·.toList ++ ['/']) := by
  induction parts generalizing f with
  | nil =>
    rw [List.flatMap_nil, List.append_nil]
    exact List.suffix_refl _
  | cons part parts ih =>
    rw [List.forall_mem_cons] at each
    have first := suffix_front_pathTo (f := f) each.1.1 each.1.2 []
    have rest := ih ⟨f.pathTo part, []⟩ each.2
    obtain ⟨before, split⟩ := first
    rw [List.flatMap_cons, ← List.append_assoc, ← split, List.append_assoc]
    exact rest.trans (List.suffix_append _ _)

/-- The parts of a path lead a search to a path that is no longer when it goes on. -/
theorem suffix_front_along_start (tree : FileTree) (filled : f.path ≠ "")
    (parts : ∀ part ∈ Path.parts f.path, part ≠ "") (place : List String) :
    (Found.mk (along (start tree (Path.isAbsolute f.path)).path (Path.parts f.path))
      place).front.toList
      <:+ f.front.toList := by
  by_cases here : f.isHere
  · -- every part of the path is a dot
    have dots : ∀ ps : List String, (∀ part ∈ ps, part = ".") → along "." ps = "." := by
      intro ps each
      induction ps with
      | nil => rfl
      | cons part ps ih =>
        rw [List.forall_mem_cons] at each
        have same : (Found.mk "." []).pathTo part = "." := by rw [each.1]; decide
        rw [along, List.foldl_cons, same]
        exact ih each.2
    have each : ∀ part ∈ Path.parts f.path, part = "." := fun part isPart =>
      (stays_of_mem_parts here isPart).resolve_left (parts part isPart)
    have path : (start tree (Path.isAbsolute f.path)).path = "." := by
      rw [(stays_of_isHere here).1]
      rfl
    have begin : (Found.mk "." place).front = "" :=
      if_pos (show (Found.mk "." []).isHere by decide)
    rw [path, dots _ each, begin]
    exact List.nil_suffix
  · have whole := Path.toList_join_empty filled
    have begin : (start tree (Path.isAbsolute f.path)).front.toList =
        if Path.isAbsolute f.path then ['/'] else [] := by
      cases Path.isAbsolute f.path with
      | true => exact (by decide : (Found.mk "/" []).front.toList = ['/'])
      | false => exact (by decide : (Found.mk "." []).front.toList = [])
    rw [front_of_not_isHere here, whole, ← begin]
    exact suffix_front_along _ (fun part isPart =>
      ⟨parts part isPart, Path.slash_notMem_of_mem_parts isPart⟩) place

/-- What goes on with names from a shorter path is the end of what does from a longer one. -/
theorem suffix_path_down {names : List String} (shorter : f.front.toList <:+ g.front.toList)
    (areNames : ∀ name ∈ names, Path.IsName name) (some : names ≠ []) :
    (f.down names).path.toList <:+ (g.down names).path.toList := by
  induction names generalizing f g with
  | nil => exact absurd rfl some
  | cons name names ih =>
    rw [List.forall_mem_cons] at areNames
    have relative := Path.isAbsolute_of_slash_notMem areNames.1.2
    by_cases last : names = []
    · subst last
      show (f.pathTo name).toList <:+ (g.pathTo name).toList
      rw [f.pathTo_eq_front_append relative, g.pathTo_eq_front_append relative,
        String.toList_append, String.toList_append]
      exact List.suffix_append_self_iff.2 shorter
    · refine ih (f := f.entry name) (g := g.entry name) ?_ areNames.2 last
      rw [front_entry f areNames.1, front_entry g areNames.1, String.toList_append,
        String.toList_append, String.toList_append, String.toList_append]
      exact List.suffix_append_self_iff.2 (List.suffix_append_self_iff.2 shorter)

end Found

/-! ## Paths that were found as patterns -/

theorem Found.isLiteral_pathTo {part : String} (literal : IsLiteral f.path)
    (partLiteral : IsLiteral part) : IsLiteral (f.pathTo part) := by
  rw [pathTo]
  split
  · exact partLiteral
  · exact isLiteral_join literal partLiteral

theorem Found.isLiteral_down {names : List String} (literal : IsLiteral f.path)
    (namesLiteral : ∀ name ∈ names, IsLiteral name) : IsLiteral (f.down names).path := by
  induction names generalizing f with
  | nil => exact literal
  | cons name names ih =>
    rw [List.forall_mem_cons] at namesLiteral
    exact ih (f := f.entry name) (isLiteral_pathTo literal namesLiteral.1) namesLiteral.2

theorem Found.isLiteral_along {path : String} {parts : List String} (literal : IsLiteral path)
    (partsLiteral : ∀ part ∈ parts, IsLiteral part) : IsLiteral (along path parts) :=
  List.foldlRecOn parts _ literal fun path before part isPart =>
    isLiteral_pathTo (f := ⟨path, []⟩) before (partsLiteral part isPart)

/-- A part that leads on is followed. -/
theorem Found.follow_of_enter? {part : String} {next : List String} (filled : part ≠ "")
    (leads : root.enter? f.place part = some next) :
    f.follow root part = some ⟨f.pathTo part, next⟩ := by
  have directory : (root.find? f.place).any FileNode.isDirectory :=
    FileNode.isDirectory_of_enter? leads
  have listed : f.isDirectory root = true := directory
  rw [FileNode.enter?, directory, if_neg (by decide)] at leads
  rw [follow, listed, if_neg (by decide)]
  by_cases here : part = "."
  · rw [if_pos (.inr here)] at leads
    rw [if_pos here, Option.some.inj leads]
  · rw [if_neg (not_or.2 ⟨filled, here⟩)] at leads
    rw [if_neg here]
    by_cases up : part = ".."
    · rw [if_pos up] at leads
      rw [if_pos up, ← Option.some.inj leads]
      rfl
    · rw [if_neg up] at leads
      rw [if_neg up, if_neg filled]
      split at leads
      case isTrue there =>
        rw [← Option.some.inj leads]
        exact if_pos there
      case isFalse => cases leads

theorem findFrom_literal {part : String} {next : List String} (filled : part ≠ "")
    (leads : root.enter? f.place part = some next) (ps : List ComponentPattern) :
    findFrom root (.literal part :: ps) f = findFrom root ps ⟨f.pathTo part, next⟩ := by
  rw [findFrom, Found.follow_of_enter? filled leads]
  exact List.append_nil _

/-- **Paths lead back.** The parts of a path, taken as components without wildcards, lead a search
to the place to which the path leads. -/
theorem findFrom_literals {parts place : List String} (filled : ∀ part ∈ parts, part ≠ "")
    (leads : parts.foldlM root.enter? f.place = some place) (ps : List ComponentPattern) :
    findFrom root (parts.map .literal ++ ps) f =
      findFrom root ps ⟨Found.along f.path parts, place⟩ := by
  induction parts generalizing f with
  | nil =>
    rw [← Option.some.inj leads]
    rfl
  | cons part parts ih =>
    rw [List.forall_mem_cons] at filled
    obtain ⟨next, first, rest⟩ := Option.bind_eq_some_iff.1 leads
    rw [List.map_cons, List.cons_append, findFrom_literal filled.1 first]
    exact ih (f := ⟨f.pathTo part, next⟩) filled.2 rest

end Glob

end CommandSuite
