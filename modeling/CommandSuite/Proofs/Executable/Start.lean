import CommandSuite.Machine.Process
import CommandSuite.Proofs.Executable
import CommandSuite.Proofs.Shell.Fields
import CommandSuite.Proofs.Text.Utf8

/-!
# Starting what was found

A program that was found is started by its path. The path is absolute if the directory is in which
the program was found, and only then does it name the same file in every working directory. The
working directory itself, which an empty entry of a list stands for, even gives a bare name, and a
bare name is looked up again when it is started.

* `Process.forall_candidates_eq_iff`: only a path is started as it is, whatever the search path.
* `find?_start` tells which of the paths that are found are absolute, and which are started as
  they were found.
-/

namespace CommandSuite

namespace Path

theorem isPathLike_iff {s : String} : isPathLike s ↔ '/' ∈ s.toList := List.contains_iff_mem

/-- A joined path is absolute if one of its parts is. -/
theorem isAbsolute_join_iff {dir path : String} :
    isAbsolute (join dir path) ↔ isAbsolute dir ∨ isAbsolute path := by
  cases rooted : isAbsolute path with
  | true => simp [join, rooted]
  | false => rw [isAbsolute_join_relative dir rooted]; simp

/-- Only what is joined to nothing can stay without a slash. -/
theorem isPathLike_join_iff {dir path : String} :
    isPathLike (join dir path) ↔ dir ≠ "" ∨ isPathLike path := by
  by_cases empty : dir = ""
  · rw [empty, empty_join, or_iff_right (not_not_intro rfl)]
  · refine iff_of_true ?_ (.inl empty)
    rw [isPathLike_iff, join]
    split
    case isTrue rooted =>
      rw [isAbsolute, beq_iff_eq] at rooted
      exact List.mem_of_mem_head? rooted
    case isFalse =>
      split
      case isTrue ends =>
        have last : dir.toList.getLast? = some '/' := by simpa [empty] using ends
        rw [String.toList_append]
        exact List.mem_append_left _ (List.mem_of_getLast? last)
      case isFalse => simp

end Path

namespace Text

/-- A character of one byte is in a byte text if it is in the text. -/
theorem mem_byteText_iff {c : Char} (narrow : c.val.toNat ≤ 0x7f) {s : String} :
    c ∈ (byteText s).toList ↔ c ∈ s.toList := by
  rw [Shell.toList_byteText, List.mem_flatMap]
  constructor
  · rintro ⟨d, mem, inside⟩
    by_cases small : d.val.toNat ≤ 0x7f
    · rw [Shell.byteChars_of_le small, List.mem_singleton] at inside
      exact inside ▸ mem
    · obtain ⟨byte, isByte, rfl⟩ := List.mem_map.1 inside
      have wide := Shell.le_of_mem_utf8EncodeChar (Nat.not_le.1 small) isByte
      have upper : ∀ n < 256, 0x80 ≤ n → 0x7f < (Char.ofNat n).val.toNat := by decide +kernel
      exact absurd narrow (Nat.not_le.2 (upper byte.toNat byte.toNat_lt wide))
  · exact fun mem => ⟨c, mem, Shell.byteChars_of_le narrow ▸ List.mem_singleton_self c⟩

theorem isPathLike_byteText_iff {path : String} :
    Path.isPathLike (byteText path) ↔ Path.isPathLike path := by
  rw [Path.isPathLike_iff, Path.isPathLike_iff, mem_byteText_iff (by decide)]

end Text

namespace FileTree

/-- Only the root matters for an absolute path. -/
theorem node_of_isAbsolute {path : String} (rooted : Path.isAbsolute path) (tree : FileTree)
    (here : List String) : { tree with workingDir := here }.node path = tree.node path := by
  rw [node, node, locate, locate, if_pos rooted, if_pos rooted]

end FileTree

namespace Process

/-- A name that is no path is looked up in the search path: it never stands for itself alone,
whatever the search path is. -/
theorem forall_candidates_eq_iff {name : String} :
    (∀ searchPath, candidates searchPath name = [name]) ↔ Path.isPathLike name := by
  constructor
  · refine fun alone => Decidable.byContradiction fun bare => ?_
    have inDirectory : Path.join "x" name = name := by
      have looked := alone "x"
      rw [candidates, if_neg bare] at looked
      exact (List.cons.inj looked).1
    exact bare (inDirectory ▸ Path.isPathLike_join_iff.2 (.inl (by decide)))
  · intro pathLike searchPath
    rw [candidates, if_pos pathLike]

theorem imageIn_of_isPathLike {name : String} (pathLike : Path.isPathLike name) (tree : FileTree)
    (searchPath : String) (arguments : List String) :
    imageIn tree searchPath name arguments = imageOf tree name arguments 5 name := if_pos pathLike

end Process

namespace Executable

open Text

variable {tree : FileTree} {searchPath : Option String} {name list p : String}

/-- **What is found is a program, but its path need not be absolute:** the path is the name in the
first directory that holds the program, and it is absolute exactly if the directory or the name
is. A directory is if it is listed as such or is written from the home directory. An absolute path
names the same file in every working directory. If the directory is an empty entry and the name is
bare, then the path is bare: starting it means looking it up in the search path there is then.
Every other path is started as it is, whatever the search path, and names what was found. -/
theorem find?_start (found : find? tree searchPath name list = some p) :
    isProgram tree p ∧
    ∃ dir, IsFirst tree name (directories tree searchPath name list) dir ∧
      p = Path.join dir name ∧
      (Path.isAbsolute p ↔ Path.isAbsolute dir ∨ Path.isAbsolute name) ∧
      (∀ entry, entryDir tree entry = dir →
        (Path.isAbsolute dir ↔ Path.isAbsolute entry ∨ StartsHome entry)) ∧
      (Path.isAbsolute p → ∀ here,
        { tree with workingDir := here }.node p = tree.node p) ∧
      ((∀ other, Process.candidates other (byteText p) = [byteText p]) ↔
        dir ≠ "" ∨ Path.isPathLike name) ∧
      (dir ≠ "" ∨ Path.isPathLike name → ∀ other arguments,
        Process.imageIn tree other (byteText p) arguments =
          Process.imageOf tree (byteText p) arguments 5 (byteText p)) ∧
      tree.node (ofByteText (byteText p)) = tree.node p := by
  obtain ⟨dir, first, rfl⟩ := find?_eq_some_iff.1 found
  have started : Path.isPathLike (byteText (Path.join dir name)) ↔
      dir ≠ "" ∨ Path.isPathLike name :=
    isPathLike_byteText_iff.trans Path.isPathLike_join_iff
  refine ⟨first.isProgram, dir, first, rfl, Path.isAbsolute_join_iff,
    fun entry means => means ▸ isAbsolute_entryDir_iff tree,
    fun rooted => FileTree.node_of_isAbsolute rooted tree,
    Process.forall_candidates_eq_iff.trans started,
    fun path other arguments =>
      Process.imageIn_of_isPathLike (started.2 path) tree other arguments, ?_⟩
  rw [ofByteText_byteText]

/-- A program that is found in a list of one relative directory. -/
theorem find?_start_relative :
    let tree : FileTree :=
      { root := .directory [("work", .directory [("loc", .directory [("tool", .file [] true)])])]
        workingDir := ["work"] }
    find? tree none "tool" "loc" = some "loc/tool" ∧ isProgram tree "loc/tool" ∧
      Process.candidates "/bin" (byteText "loc/tool") = [byteText "loc/tool"] := by
  intro tree
  have found : find? tree none "tool" "loc" = some "loc/tool" := by decide +kernel
  obtain ⟨holds, dir, _, path, _, _, _, alone, _⟩ := find?_start found
  have slash : dir ≠ "" := by
    rintro rfl
    exact absurd path (by decide)
  exact ⟨found, holds, alone.2 (.inl slash) "/bin"⟩

/-- A relative directory gives a path that names another file elsewhere. With an empty entry, one
program is found and another one started. -/
theorem find?_notAbsolute :
    let tree : FileTree :=
      { root := .directory
          [("bin", .directory [("tool", .program "other")]),
            ("work", .directory
              [("loc", .directory [("tool", .program "local")]), ("tool", .program "here")])]
        workingDir := ["work"] }
    find? tree (some "/bin") "tool" "loc" = some "loc/tool" ∧ ¬ Path.isAbsolute "loc/tool" ∧
      ¬ isProgram { tree with workingDir := [] } "loc/tool" ∧
      find? tree (some "/bin") "tool" "" = some "tool" ∧
      (Process.imageIn tree "/bin" (byteText "tool") []).toOption.map (·.program) =
        some "other" := by
  intro tree
  decide +kernel

end Executable

end CommandSuite
