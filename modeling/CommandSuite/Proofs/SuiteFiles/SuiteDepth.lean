import CommandSuite.Proofs.Glob.Ending
import CommandSuite.Proofs.Glob.PartCount
import CommandSuite.Proofs.SuiteFiles.Directories
import CommandSuite.Proofs.Text.Utf8

/-!
# How deep a path is in suite files

A directory may be named like a suite file. `SuiteFiles.suiteDepth` counts the components of a
path that are, and this is what grows from a directory that is searched to those that are found in
it, whatever the path of the directory means as a pattern.

* `suiteDepth_le_of_mem_find`: what a pattern finds has as many such components as the pattern.
* `suiteDepth_lt_of_searched`: what the search of a directory finds has more of them than the
  directory.
* `suiteDepth_le_suffixesInPath`: no path that the system follows has more than so many.
-/

namespace CommandSuite

/-! ## Pieces of a text -/

namespace Text

/-- Pieces that are long make a long text. -/
theorem countP_mul_le_length_joinWith {kind : List Char → Bool} {least : Nat}
    (long : ∀ piece, kind piece → least ≤ piece.length) (sep : Char) (pieces : List (List Char)) :
    pieces.countP kind * (least + 1) ≤ (joinWith sep pieces).length + 1 := by
  have one (piece : List Char) : [piece].countP kind * (least + 1) ≤ piece.length + 1 := by
    rw [List.countP_singleton]
    split
    case isTrue isKind => rw [Nat.one_mul]; exact Nat.succ_le_succ (long piece isKind)
    case isFalse => rw [Nat.zero_mul]; exact Nat.zero_le _
  induction pieces with
  | nil => rw [List.countP_nil, Nat.zero_mul]; exact Nat.zero_le _
  | cons piece pieces ih =>
    cases pieces with
    | nil => exact one piece
    | cons next pieces =>
      have first := one piece
      rw [← List.singleton_append, List.countP_append, Nat.add_mul,
        List.singleton_append, joinWith, List.length_append, List.length_cons]
      omega

theorem countP_pieces_mul_le_length {kind : String → Bool} {least : Nat}
    (long : ∀ piece, kind piece → least ≤ piece.toList.length) (sep : Char) (text : String) :
    (pieces sep text).countP kind * (least + 1) ≤ text.toList.length + 1 := by
  have longChars : ∀ piece : List Char, (kind ∘ String.ofList) piece → least ≤ piece.length :=
    fun piece isKind => by simpa using long _ isKind
  have counted := countP_mul_le_length_joinWith longChars sep (splitOn sep text.toList)
  rwa [joinWith_splitOn, ← List.countP_map] at counted

end Text

namespace SuiteFiles

open Glob (Found ComponentPattern)

variable {tree : FileTree} {pattern path dir : String} {found : List Found} {d f : Found}

/-! ## Components with the suffix -/

/-- Whether a part of a path ends as the names of suite files do. -/
def isSuitePart (part : String) : Bool := decide (IsSuiteName part)

/-- How many components of a path end as the names of suite files do. -/
def suiteDepth (path : String) : Nat :=
  (Path.components path).countP fun
    | .name s => isSuitePart s
    | _ => false

theorem suiteDepth_eq_countP_pieces (path : String) :
    suiteDepth path = (Text.pieces '/' path).countP isSuitePart := by
  have read (piece : String) : ((Path.Component.ofPiece? piece).map fun
      | .name s => isSuitePart s
      | _ => false).getD false = isSuitePart piece := by
    rw [Path.Component.ofPiece?]
    split
    case isTrue stays =>
      rcases (by simpa using stays : piece = "" ∨ piece = ".") with rfl | rfl <;> decide
    case isFalse =>
      split
      case isTrue up => rw [up]; decide
      case isFalse => rfl
  rw [suiteDepth, Path.components, List.countP_append, List.countP_filterMap]
  refine (congrArg (· + _) ?_).trans
    ((Nat.zero_add _).trans (List.countP_congr fun piece _ => ?_))
  · split
    · rfl
    · split <;> rfl
  · exact Bool.eq_iff_iff.1 (read piece)

theorem suiteDepth_eq_countP_parts (path : String) :
    suiteDepth path = (Path.parts path).countP isSuitePart := by
  obtain ⟨front, back, frontEmpty, backEmpty, split⟩ := Path.exists_pieces_eq path
  have none {empty : List String} (areEmpty : ∀ s ∈ empty, s = "") :
      empty.countP isSuitePart = 0 :=
    List.countP_eq_zero.2 fun s mem => by rw [areEmpty s mem]; decide
  rw [suiteDepth_eq_countP_pieces, split, List.countP_append, List.countP_append, none frontEmpty,
    none backEmpty, Nat.zero_add, Nat.add_zero]

/-- The pattern by which a directory is searched has one such component more than the
directory. -/
theorem suiteDepth_searchPattern (dir : String) :
    suiteDepth (searchPattern dir) = suiteDepth dir + 1 := by
  have own : (Path.parts ("**/*" ++ suffix)).countP isSuitePart = 1 := by decide
  rw [suiteDepth_eq_countP_parts, suiteDepth_eq_countP_parts, searchPattern,
    Path.parts_join dir (by decide), List.countP_append, own]

/-! ## Growth -/

theorem isPlainEnding_suffix : Glob.IsPlainEnding suffix.toList := by
  have plain : suffix.toList.all fun c => c ∉ ['*', '?', '[', ']', '/'] := by decide
  exact ⟨by decide, fun c mem => of_decide_eq_true (List.all_eq_true.1 plain c mem)⟩

/-- **A part with the suffix is matched by parts with the suffix only,** so that what a pattern
finds has as many of them as the pattern. -/
theorem suiteDepth_le_of_mem_find (wellFormed : tree.root.wellFormed)
    (matched : Glob.find tree pattern = .ok found) (mem : f ∈ found) :
    suiteDepth pattern ≤ suiteDepth f.path := by
  obtain ⟨read, parts, isRead, covers, _, counted⟩ :=
    Glob.exists_walk_of_mem_find wellFormed matched mem
  let ends (p : ComponentPattern) : Bool := p.endsIn suffix.toList
  have demands : ∀ part ∈ Path.parts pattern, isSuitePart part →
      (ComponentPattern.ofPart? part).any ends := by
    intro part isPart isSuite
    obtain ⟨ts, reads⟩ := Glob.exists_tokens_of_mem_parts isRead isPart
    have whole : '/' ∉ part.toList := Path.slash_notMem_of_mem_parts isPart
    rw [ComponentPattern.ofPart?, reads]
    exact ComponentPattern.endsIn_ofTokens isPlainEnding_suffix whole
      (of_decide_eq_true isSuite) reads
  calc suiteDepth pattern
    _ = (Path.parts pattern).countP isSuitePart := suiteDepth_eq_countP_parts pattern
    _ ≤ (Path.parts pattern).countP fun part => (ComponentPattern.ofPart? part).any ends :=
      List.countP_mono_left demands
    _ = read.components.countP ends := (Glob.countP_components rfl (by decide) isRead).symm
    _ ≤ parts.countP isSuitePart := covers.countP_le rfl fun p part isEnd accepted =>
      decide_eq_true (ComponentPattern.endsIn_accepts isEnd accepted)
    _ = (Path.parts f.path).countP isSuitePart :=
      (counted isSuitePart (by decide) (by decide)).symm
    _ = suiteDepth f.path := (suiteDepth_eq_countP_parts f.path).symm

/-- What the search of a directory finds is deeper in suite files than the directory. -/
theorem suiteDepth_lt_of_searched (wellFormed : tree.root.wellFormed)
    (searched : Glob.find tree (searchPattern dir) = .ok found) (mem : f ∈ found) :
    suiteDepth dir < suiteDepth f.path := by
  rw [Nat.lt_iff_add_one_le, ← suiteDepth_searchPattern]
  exact suiteDepth_le_of_mem_find wellFormed searched mem

/-! ## What the system follows -/

/-- A path that the system follows has only so many components with the suffix. -/
theorem suiteDepth_le_suffixesInPath (there : (tree.node? path).isSome) :
    suiteDepth path ≤ suffixesInPath := by
  have long : ∀ piece, isSuitePart piece → suffix.toList.length ≤ piece.toList.length :=
    fun piece isSuite => (of_decide_eq_true isSuite : IsSuiteName piece).length_le
  have counted := Text.countP_pieces_mul_le_length long '/' path
  have bytes := Text.Utf8.length_le_utf8ByteSize path
  have short := (FileTree.fits_of_node? there).short
  rw [← suiteDepth_eq_countP_pieces] at counted
  rw [suffixesInPath, Nat.le_div_iff_mul_le (Nat.add_pos_right _ Nat.one_pos),
    ← String.length_toList]
  omega

end SuiteFiles

end CommandSuite
