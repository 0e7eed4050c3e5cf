import CommandSuite.Text.Split

/-!
# Lines

Two views of a text as lines.

* `splitLines` cuts at every line feed, so that the pieces joined by line feeds are the text again
  (`joinLines_splitLines`); a final line feed is followed by an empty piece.
* `lines` takes a final line feed as the end of the last line. A text is its `lines` and whether
  it `endsLine` (`writeLines_lines`).

`displayLines` is the view of a report: no line is started by a final line feed, and a carriage
return just before a line feed belongs to the line end.
-/

namespace CommandSuite.Text

/-- The pieces between line feeds; there is always at least one. -/
def splitLines (cs : List Char) : List (List Char) := splitOn '\n' cs

/-- The pieces with a line feed between any two of them. -/
def joinLines (ls : List (List Char)) : List Char := joinWith '\n' ls

/-- Whether the text ends with a line feed. -/
def endsLine (cs : List Char) : Bool := cs.getLast? == some '\n'

/-- The text without one final line feed. -/
def chomp (cs : List Char) : List Char := if endsLine cs then cs.dropLast else cs

/-- The text without any final line feeds. -/
def chompAll (cs : List Char) : List Char :=
  (cs.reverse.dropWhile (· = '\n')).reverse

/-- The lines of a text; the empty text is one empty line. -/
def lines (cs : List Char) : List (List Char) := splitLines (chomp cs)

/-- The text with these lines, the last of them ended by a line feed if `ended`. -/
def writeLines (ls : List (List Char)) (ended : Bool) : List Char :=
  joinLines ls ++ if ended then ['\n'] else []

/-- A line without one carriage return at its end. -/
def dropReturn (l : List Char) : List Char := if l.getLast? = some '\r' then l.dropLast else l

/-- Lines for display, from the pieces between line feeds. -/
def displayPieces : List (List Char) → List (List Char)
  | [] => []
  | [l] => if l.isEmpty then [] else [l]
  | l :: m :: ls => dropReturn l :: displayPieces (m :: ls)

/-- The lines in which a report shows a text. -/
def displayLines (s : String) : List String :=
  (displayPieces (splitLines s.toList)).map String.ofList

/-! ## The two views lose nothing -/

theorem joinLines_splitLines (cs : List Char) : joinLines (splitLines cs) = cs :=
  joinWith_splitOn '\n' cs

theorem chomp_append_newline (cs : List Char) :
    chomp cs ++ (if endsLine cs then ['\n'] else []) = cs := by
  by_cases h : endsLine cs
  · obtain ⟨ds, rfl⟩ := List.getLast?_eq_some_iff.1 (by simpa [endsLine] using h)
    simp [chomp, endsLine]
  · simp [chomp, h]

theorem writeLines_lines (cs : List Char) : writeLines (lines cs) (endsLine cs) = cs := by
  rw [writeLines, lines, joinLines_splitLines, chomp_append_newline]

theorem eq_of_splitLines_eq {cs ds : List Char} (same : splitLines cs = splitLines ds) :
    cs = ds := by
  rw [← joinLines_splitLines cs, same, joinLines_splitLines]

theorem splitLines_ne_nil (cs : List Char) : splitLines cs ≠ [] := splitOn_ne_nil '\n' cs

theorem exists_splitLines_eq_concat (cs : List Char) : ∃ ls l, splitLines cs = ls ++ [l] := by
  rcases List.eq_nil_or_concat (splitLines cs) with none | ⟨ls, l, split⟩
  · exact absurd none (splitLines_ne_nil cs)
  · exact ⟨ls, l, by rw [split, List.concat_eq_append]⟩

theorem exists_splitLines_eq_cons (cs : List Char) : ∃ l ls, splitLines cs = l :: ls :=
  List.exists_cons_of_ne_nil (splitLines_ne_nil cs)

theorem newline_notMem_of_mem_splitLines {cs l : List Char} (mem : l ∈ splitLines cs) :
    '\n' ∉ l :=
  notMem_of_mem_splitOn mem

theorem splitLines_eq_singleton {cs : List Char} (oneLine : '\n' ∉ cs) : splitLines cs = [cs] :=
  splitOn_eq_singleton oneLine

/-- What holds no line feed goes into the first line of what follows. -/
theorem splitLines_append_of_notMem {as bs m : List Char} {ms : List (List Char)}
    (oneLine : '\n' ∉ as) (right : splitLines bs = m :: ms) :
    splitLines (as ++ bs) = (as ++ m) :: ms :=
  splitOn_append oneLine right

theorem splitLines_joinLines {ls : List (List Char)} (some : ls ≠ [])
    (whole : ∀ l ∈ ls, '\n' ∉ l) : splitLines (joinLines ls) = ls :=
  splitOn_joinWith some whole

theorem splitLines_append_newline (as bs : List Char) :
    splitLines (as ++ '\n' :: bs) = splitLines as ++ splitLines bs :=
  splitOn_append_cons '\n' as bs

theorem chomp_eq_self {cs : List Char} (unended : endsLine cs = false) : chomp cs = cs := by
  rw [chomp, unended, if_neg Bool.false_ne_true]

theorem chomp_concat_newline (cs : List Char) : chomp (cs ++ ['\n']) = cs := by
  rw [chomp, endsLine, List.getLast?_concat, List.dropLast_concat]
  rfl

/-- The end of a text is the end of its last part. -/
theorem endsLine_append (as : List Char) {bs : List Char} (some : bs ≠ []) :
    endsLine (as ++ bs) = endsLine bs := by
  rw [endsLine, endsLine, List.getLast?_append, List.getLast?_eq_some_getLast some,
    Option.some_or]

theorem chomp_append (as : List Char) {bs : List Char} (some : bs ≠ []) :
    chomp (as ++ bs) = as ++ chomp bs := by
  rw [chomp, chomp, endsLine_append as some]
  split
  · exact List.dropLast_append_of_ne_nil some
  · rfl

theorem chomp_append_of_unended {as : List Char} (unended : endsLine as = false)
    (bs : List Char) :
    chomp (as ++ bs) = as ++ chomp bs := by
  by_cases empty : bs = []
  · rw [empty, List.append_nil, chomp_eq_self unended]
    exact (List.append_nil as).symm
  · exact chomp_append as empty

theorem chompAll_concat_newline (cs : List Char) : chompAll (cs ++ ['\n']) = chompAll cs := by
  simp [chompAll]

theorem chompAll_eq_self {cs : List Char} (unended : endsLine cs = false) : chompAll cs = cs := by
  rcases List.eq_nil_or_concat cs with rfl | ⟨before, c, rfl⟩
  · rfl
  · rw [endsLine, List.concat_eq_append, List.getLast?_concat] at unended
    simp_all [chompAll]

theorem endsLine_eq_false {cs : List Char} (oneLine : '\n' ∉ cs) : endsLine cs = false := by
  rw [endsLine, beq_eq_false_iff_ne]
  exact fun ended => oneLine (List.mem_of_getLast? ended)

theorem chomp_writeLines {ls : List (List Char)} {ended : Bool}
    (ends : endsLine (writeLines ls ended) = ended) :
    chomp (writeLines ls ended) = joinLines ls := by
  cases ended with
  | true => exact chomp_concat_newline (joinLines ls)
  | false => exact (chomp_eq_self ends).trans (List.append_nil _)

/-- Lines are those of the text that they are written as, if it ends as it should. -/
theorem lines_writeLines {ls : List (List Char)} {ended : Bool} (some : ls ≠ [])
    (whole : ∀ l ∈ ls, '\n' ∉ l) (ends : endsLine (writeLines ls ended) = ended) :
    lines (writeLines ls ended) = ls := by
  rw [lines, chomp_writeLines ends, splitLines_joinLines some whole]

/-- Texts that are written with a line feed behind each have the lines of all of them. -/
theorem lines_flatMap {texts : List (List Char)} (some : texts ≠ []) :
    lines (texts.flatMap (· ++ ['\n'])) = texts.flatMap splitLines := by
  induction texts with
  | nil => exact absurd rfl some
  | cons text texts ih =>
    cases texts with
    | nil => rw [List.flatMap_singleton, List.flatMap_singleton, lines, chomp_concat_newline]
    | cons next texts =>
      have written : (next :: texts).flatMap (· ++ ['\n']) ≠ [] := by simp
      have chomped : chomp ((text :: next :: texts).flatMap (· ++ ['\n'])) =
          text ++ '\n' :: chomp ((next :: texts).flatMap (· ++ ['\n'])) := by
        rw [List.flatMap_cons, chomp_append _ written, List.append_assoc, List.singleton_append]
      rw [lines, chomped, splitLines_append_newline, ← lines, ih (by simp), ← List.flatMap_cons]

/-- A line that is written last is the last line. -/
theorem getLast?_lines (before : List Char) {line : List Char} (whole : '\n' ∉ line) :
    (lines (before ++ '\n' :: (line ++ ['\n']))).getLast? = some line := by
  have regroup : before ++ '\n' :: (line ++ ['\n']) = (before ++ '\n' :: line) ++ ['\n'] := by
    simp
  have chomped : chomp ((before ++ '\n' :: line) ++ ['\n']) = before ++ '\n' :: line := by
    rw [chomp, endsLine, List.getLast?_concat, List.dropLast_concat]
    rfl
  rw [regroup, lines, chomped, splitLines, splitOn_append_cons, splitOn_eq_singleton whole,
    List.getLast?_concat]

/-! ## Carriage returns -/

theorem mem_of_mem_dropReturn {l : List Char} {c : Char} (mem : c ∈ dropReturn l) : c ∈ l := by
  rw [dropReturn] at mem
  split at mem
  · exact List.dropLast_subset l mem
  · exact mem

theorem dropReturn_eq_self_iff {l : List Char} : dropReturn l = l ↔ l.getLast? ≠ some '\r' := by
  rw [dropReturn]
  split
  case isTrue ended =>
    obtain ⟨before, rfl⟩ := List.getLast?_eq_some_iff.1 ended
    simp
  case isFalse kept => exact ⟨fun _ => kept, fun _ => rfl⟩

theorem dropReturn_append {as : List Char} (kept : as.getLast? ≠ some '\r') (bs : List Char) :
    dropReturn (as ++ bs) = as ++ dropReturn bs := by
  rcases List.eq_nil_or_concat bs with rfl | ⟨before, c, rfl⟩
  · rw [List.append_nil, dropReturn_eq_self_iff.2 kept]
    exact (List.append_nil as).symm
  · rw [dropReturn, dropReturn, List.concat_eq_append, ← List.append_assoc, List.getLast?_concat,
      List.getLast?_concat]
    split
    · rw [List.dropLast_concat, List.dropLast_concat]
    · rw [List.append_assoc]

/-- Every piece but the last is a line that a line feed ends; the last is one only if it is not
empty. -/
theorem displayPieces_concat (ls : List (List Char)) (l : List Char) :
    displayPieces (ls ++ [l]) = ls.map dropReturn ++ if l.isEmpty then [] else [l] := by
  induction ls with
  | nil => rfl
  | cons first ls ih =>
    obtain ⟨next, others, split⟩ : ∃ next others, ls ++ [l] = next :: others :=
      List.exists_cons_of_ne_nil (by simp)
    rw [List.cons_append, split, displayPieces, ← split, ih]
    rfl

theorem newline_notMem_of_mem_displayPieces {ls : List (List Char)} (whole : ∀ l ∈ ls, '\n' ∉ l)
    {l : List Char} (mem : l ∈ displayPieces ls) : '\n' ∉ l := by
  rcases List.eq_nil_or_concat ls with rfl | ⟨before, last, rfl⟩
  · cases mem
  · rw [List.concat_eq_append] at whole mem
    rw [displayPieces_concat, List.mem_append, List.mem_map] at mem
    rcases mem with ⟨piece, isPiece, rfl⟩ | isLast
    · exact fun inside =>
        whole piece (List.mem_append_left _ isPiece) (mem_of_mem_dropReturn inside)
    · split at isLast
      · cases isLast
      · obtain rfl := List.mem_singleton.1 isLast
        exact whole l (List.mem_append_right _ (List.mem_singleton_self l))

theorem newline_notMem_of_mem_displayLines {s line : String} (mem : line ∈ displayLines s) :
    '\n' ∉ line.toList := by
  obtain ⟨piece, isPiece, rfl⟩ := List.mem_map.1 mem
  rw [String.toList_ofList]
  exact newline_notMem_of_mem_displayPieces
    (fun _ isPiece => newline_notMem_of_mem_splitLines isPiece) isPiece

end CommandSuite.Text
