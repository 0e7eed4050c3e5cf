import CommandSuite.Proofs.Report.Frame
import CommandSuite.Proofs.Text.Margin

/-!
# Reading frames

A frame shows all of its text: the text is read from it row by row, whatever its own lines look
like. The rows between top and bottom are taken from behind their margin, and the bottom says
whether a line feed follows the last of them.

* `unframe?`: a frame never shows an empty last line without a line feed behind it, which would be
  taken for the end of the line before it.
* `frame_reads_back`: the reader accepts just the frames and gives their texts, so that no two
  texts have one frame.
-/

namespace CommandSuite

namespace Report

open Text

/-! ## Rows -/

/-- The line that a row of a frame shows behind its margin. -/
def shownLine? : List Char → Option (List Char)
  | '│' :: ' ' :: line => some line
  | _ => none

/-- What a bottom says of the end of the text. -/
def endingOf? (bottom : List Char) : Option Bool :=
  [true, false].find? fun ended => bottom = frameBottom ended

theorem shownLine?_eq_some_iff {row line : List Char} :
    shownLine? row = some line ↔ row = frameMargin ++ line := by
  have margin : frameMargin ++ line = '│' :: ' ' :: line := rfl
  rw [margin]
  constructor
  · intro shown
    unfold shownLine? at shown
    split at shown
    · rw [Option.some.inj shown]
    · cases shown
  · rintro rfl
    rfl

theorem endingOf?_eq_some_iff {bottom : List Char} {ended : Bool} :
    endingOf? bottom = some ended ↔ bottom = frameBottom ended := by
  constructor
  · intro told
    simpa using List.find?_some told
  · rintro rfl
    revert ended
    decide

theorem mapM_shownLine?_eq_some_iff {rows ls : List (List Char)} :
    rows.mapM shownLine? = some ls ↔ rows = ls.map (frameMargin ++ ·) :=
  mapM_eq_some_iff_eq_map fun _ _ => shownLine?_eq_some_iff

/-- A list with something between its ends. -/
theorem eq_cons_concat {α : Type} {rows inner : List α} {top bottom : α}
    (begins : rows.head? = some top) (ends : rows.getLast? = some bottom)
    (between : rows.tail.dropLast = inner) (filled : inner ≠ []) :
    rows = top :: (inner ++ [bottom]) := by
  obtain ⟨rest, rfl⟩ := List.head?_eq_some_iff.1 begins
  rw [List.tail_cons] at between
  rcases List.eq_nil_or_concat rest with rfl | ⟨before, last, rfl⟩
  · exact absurd between.symm filled
  · rw [List.concat_eq_append, ← List.cons_append, List.getLast?_concat] at ends
    rw [List.concat_eq_append, List.dropLast_concat] at between
    rw [List.concat_eq_append, between, Option.some.inj ends]

/-! ## Frames -/

/-- The text that a frame shows, unless this is no frame. The bottom must tell the truth: a text
whose last line is empty ends with the line feed before it. -/
def unframe? (s : String) : Option String := do
  let rows := splitLines s.toList
  let ended ← rows.getLast?.bind endingOf?
  let ls ← rows.tail.dropLast.mapM shownLine?
  let text := writeLines ls ended
  if rows.head? = some frameTop ∧ ls ≠ [] ∧ endsLine text = ended then some (String.ofList text)
  else none

theorem unframe?_frame (content : String) : unframe? (frame content) = some content := by
  have rows := splitLines_frame content
  have last : (splitLines (frame content).toList).getLast? =
      some (frameBottom (endsLine content.toList)) := by
    rw [rows, ← List.cons_append, List.getLast?_concat]
  have inner : (splitLines (frame content).toList).tail.dropLast =
      (lines content.toList).map (frameMargin ++ ·) := by
    rw [rows, List.tail_cons, List.dropLast_concat]
  have filled : lines content.toList ≠ [] := splitLines_ne_nil _
  rw [unframe?, last, inner, Option.bind_some, endingOf?_eq_some_iff.2 rfl,
    mapM_shownLine?_eq_some_iff.2 rfl]
  simp only [Option.bind_eq_bind, Option.bind_some, writeLines_lines, String.ofList_toList]
  exact if_pos ⟨by rw [rows]; rfl, filled, trivial⟩

theorem eq_frame_of_unframe? {s content : String} (read : unframe? s = some content) :
    s = frame content := by
  obtain ⟨ended, told, read⟩ := Option.bind_eq_some_iff.1 read
  obtain ⟨bottom, ends, told⟩ := Option.bind_eq_some_iff.1 told
  obtain ⟨ls, shown, read⟩ := Option.bind_eq_some_iff.1 read
  obtain ⟨⟨begins, filled, honest⟩, made⟩ := Option.ite_none_right_eq_some.1 read
  obtain rfl := Option.some.inj made
  have inner := mapM_shownLine?_eq_some_iff.1 shown
  have rows : splitLines s.toList =
      frameTop :: (ls.map (frameMargin ++ ·) ++ [frameBottom ended]) := by
    rw [← endingOf?_eq_some_iff.1 told]
    exact eq_cons_concat begins ends inner (by simpa using filled)
  have whole : ∀ l ∈ ls, '\n' ∉ l := by
    intro l mem inside
    have isRow : frameMargin ++ l ∈ splitLines s.toList := by
      rw [rows]
      exact List.mem_cons_of_mem _ (List.mem_append_left _ (List.mem_map_of_mem mem))
    exact newline_notMem_of_mem_splitLines isRow (List.mem_append_right _ inside)
  refine String.toList_inj.1 (eq_of_splitLines_eq ?_)
  rw [rows, splitLines_frame, String.toList_ofList, lines_writeLines filled whole honest, honest]

/-- **Frames lose nothing.** The reader accepts just the frames and gives the text of each, be it
empty, end with one line feed or several, or imitate the frame in its own lines. So no two texts
have one frame. -/
theorem frame_reads_back :
    (∀ s content, unframe? s = some content ↔ s = frame content) ∧ Function.Injective frame := by
  refine ⟨fun s content => ⟨eq_frame_of_unframe?, ?_⟩, fun left right same => ?_⟩
  · rintro rfl
    exact unframe?_frame content
  · have both := unframe?_frame left
    rw [same, unframe?_frame] at both
    exact (Option.some.inj both).symm

/-- A text that ends with two line feeds and looks like a frame. -/
example : frame "╭\n│ \n╰\n\n" = "╭\n│ ╭\n│ │ \n│ ╰\n│ \n╰" ∧
    unframe? "╭\n│ ╭\n│ │ \n│ ╰\n│ \n╰" = some "╭\n│ \n╰\n\n" := by
  decide +kernel

end Report

end CommandSuite
