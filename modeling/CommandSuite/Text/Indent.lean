import CommandSuite.Text.Lines

/-!
# Indented text

`indentWith margin s` puts the margin in front of every line of `s`. A final line feed is kept and
starts no further line.
-/

namespace CommandSuite.Text

/-- The text with `margin` in front of each of its lines. -/
def indentChars (margin cs : List Char) : List Char :=
  writeLines ((lines cs).map (margin ++ ·)) (endsLine cs)

/-- The text with `margin` in front of each of its lines. -/
def indentWith (margin s : String) : String :=
  String.ofList (indentChars margin.toList s.toList)

/-- The text with `width` spaces in front of each of its lines. -/
def indent (width : Nat) (s : String) : String :=
  indentWith (String.ofList (List.replicate width ' ')) s

theorem toList_indentWith (margin s : String) :
    (indentWith margin s).toList = indentChars margin.toList s.toList :=
  String.toList_ofList

/-- An indented text begins with its margin, even if it is empty. -/
theorem prefix_indentChars (margin cs : List Char) : margin <+: indentChars margin cs := by
  obtain ⟨l, ls, split⟩ := exists_splitLines_eq_cons (chomp cs)
  have first : margin ++ l <+: joinLines ((lines cs).map (margin ++ ·)) := by
    rw [lines, split, List.map_cons]
    exact prefix_joinWith '\n' _ _
  exact ((List.prefix_append margin l).trans first).trans (List.prefix_append _ _)

theorem splitLines_joinLines_margin {margin : List Char} (oneLine : '\n' ∉ margin)
    (cs : List Char) :
    splitLines (joinLines ((splitLines cs).map (margin ++ ·))) =
      (splitLines cs).map (margin ++ ·) := by
  refine splitLines_joinLines ?_ fun line mem => ?_
  · rw [Ne, List.map_eq_nil_iff]
    exact splitLines_ne_nil cs
  · obtain ⟨piece, isPiece, rfl⟩ := List.mem_map.1 mem
    rw [List.mem_append, not_or]
    exact ⟨oneLine, newline_notMem_of_mem_splitLines isPiece⟩

/-- The lines of an indented text are those of the text behind the margin. -/
theorem splitLines_indentChars {margin cs : List Char} (oneLine : '\n' ∉ margin)
    (unended : endsLine cs = false) :
    splitLines (indentChars margin cs) = (splitLines cs).map (margin ++ ·) := by
  rw [indentChars, writeLines, unended, if_neg Bool.false_ne_true, List.append_nil, lines,
    chomp_eq_self unended, splitLines_joinLines_margin oneLine]

/-- An indented text does not end with a line feed of its last line. -/
theorem endsLine_append_joinLines_margin (before : List Char) {margin : List Char}
    (some : margin ≠ []) (oneLine : '\n' ∉ margin) (cs : List Char) :
    endsLine (before ++ joinLines ((splitLines cs).map (margin ++ ·))) = false := by
  obtain ⟨ls, l, split⟩ := exists_splitLines_eq_concat cs
  obtain ⟨inner, joined⟩ := exists_joinWith_concat '\n' (ls.map (margin ++ ·)) (margin ++ l)
  have own : '\n' ∉ l := newline_notMem_of_mem_splitLines (by rw [split]; simp)
  have whole : '\n' ∉ margin ++ l := by
    rw [List.mem_append, not_or]
    exact ⟨oneLine, own⟩
  have visible : margin ++ l ≠ [] := by simp [some]
  rw [split, List.map_append, List.map_singleton, joinLines, joined, ← List.append_assoc,
    endsLine_append _ visible, endsLine_eq_false whole]

theorem indentChars_nil (cs : List Char) : indentChars [] cs = cs := by
  have same : (lines cs).map (fun line => [] ++ line) = lines cs := List.map_id (lines cs)
  rw [indentChars, same, writeLines_lines]

/-- Indented, a text ends with a line feed exactly if it does so without its margin. -/
theorem endsLine_indentChars {margin : List Char} (oneLine : '\n' ∉ margin) (cs : List Char) :
    endsLine (indentChars margin cs) = endsLine cs := by
  by_cases none : margin = []
  · rw [none, indentChars_nil]
  · rw [indentChars, writeLines]
    cases ended : endsLine cs with
    | true =>
      rw [if_pos rfl, endsLine_append _ (List.cons_ne_nil _ _)]
      rfl
    | false =>
      rw [if_neg Bool.false_ne_true, List.append_nil]
      exact endsLine_append_joinLines_margin [] none oneLine (chomp cs)

/-- Of the line feeds of an indented text only the one that ends the text itself can be
dropped. -/
theorem chomp_indentChars {margin : List Char} (oneLine : '\n' ∉ margin) (cs : List Char) :
    chomp (indentChars margin cs) = joinLines ((lines cs).map (margin ++ ·)) :=
  chomp_writeLines (endsLine_indentChars oneLine cs)

/-- The lines of an indented text are those of the text behind the margin, whether or not the text
ends with a line feed. -/
theorem lines_indentChars {margin : List Char} (oneLine : '\n' ∉ margin) (cs : List Char) :
    lines (indentChars margin cs) = (lines cs).map (margin ++ ·) := by
  rw [lines, chomp_indentChars oneLine]
  exact splitLines_joinLines_margin oneLine (chomp cs)

theorem toList_indent (width : Nat) (s : String) :
    (indent width s).toList = indentChars (List.replicate width ' ') s.toList := by
  rw [indent, toList_indentWith, String.toList_ofList]

end CommandSuite.Text
