import CommandSuite.Text.Lines
import CommandSuite.Text.Quoted

/-!
# Lines of a command line

Words are typed in one line, if they hold no line feed; a line feed in a word stands between
quotes as it is and starts a line of the command line.

`mem_tail_splitLines_commandLine_iff`: of the lines without spaces and quotes, a command line
starts those that stand inside a word, between its first line and its last. The first and the last
line of such a word have a quote on them, which other words cannot take away.
-/

namespace CommandSuite

namespace Text

/-! ## Lines inside a text -/

/-- The lines that stand between line feeds on both sides. -/
def innerLines (cs : List Char) : List (List Char) := (splitLines cs).tail.dropLast

variable {as bs : List Char}

/-- Where two texts meet, the last line of the one goes on with the first line of the other. -/
theorem splitLines_append {ls ms : List (List Char)} {l m : List Char}
    (left : splitLines as = ls ++ [l]) (right : splitLines bs = m :: ms) :
    splitLines (as ++ bs) = ls ++ (l ++ m) :: ms := by
  have whole : ∀ line ∈ ls ++ [l], '\n' ∉ line := fun line mem =>
    newline_notMem_of_mem_splitLines (left ▸ mem)
  have joined : as = joinLines (ls ++ [l]) := by rw [← left, joinLines_splitLines]
  clear left
  induction ls generalizing as with
  | nil =>
    rw [joined]
    exact splitLines_append_of_notMem (whole l (List.mem_singleton_self l)) right
  | cons first ls ih =>
    obtain ⟨next, others, split⟩ : ∃ next others, ls ++ [l] = next :: others :=
      List.exists_cons_of_ne_nil (by simp)
    have begun : as = first ++ '\n' :: joinLines (ls ++ [l]) := by
      rw [joined, List.cons_append, split]
      rfl
    rw [List.cons_append, List.forall_mem_cons] at whole
    rw [begun, List.append_assoc, List.cons_append, splitLines_append_newline,
      splitLines_eq_singleton whole.1, ih whole.2 rfl]
    rfl

theorem innerLines_eq_nil {cs : List Char} (oneLine : '\n' ∉ cs) : innerLines cs = [] := by
  rw [innerLines, splitLines_eq_singleton oneLine]
  rfl

/-- What stands around a text within its first and its last line changes none of those inside. -/
theorem innerLines_append {as cs : List Char} (left : '\n' ∉ as) (right : '\n' ∉ bs) :
    innerLines (as ++ cs ++ bs) = innerLines cs := by
  obtain ⟨ls, l, lines⟩ := exists_splitLines_eq_concat cs
  have ended : splitLines (cs ++ bs) = ls ++ [l ++ bs] :=
    splitLines_append lines (splitLines_eq_singleton right)
  rw [innerLines, innerLines, lines, List.append_assoc]
  cases ls with
  | nil => rw [splitLines_append_of_notMem left ended]; rfl
  | cons first ls => rw [splitLines_append_of_notMem left ended]; simp

/-- A line in which `c` does not occur stands behind the first line of a text with `c` in it if it
stands inside the one part or behind the first line of the other. -/
theorem mem_tail_splitLines_append_cons_iff {c : Char} (visible : c ≠ '\n') {line : List Char}
    (absent : c ∉ line) (as bs : List Char) :
    line ∈ (splitLines (as ++ c :: bs)).tail ↔
      line ∈ innerLines as ∨ line ∈ (splitLines bs).tail := by
  obtain ⟨ls, l, left⟩ := exists_splitLines_eq_concat as
  obtain ⟨m, ms, right⟩ := exists_splitLines_eq_cons bs
  have begun : splitLines (c :: bs) = (c :: m) :: ms := by
    have oneLine : '\n' ∉ [c] := by simpa using visible.symm
    exact splitLines_append_of_notMem oneLine right
  have notMeeting : line ≠ l ++ c :: m := fun meeting => absent (by simp [meeting])
  rw [splitLines_append left begun, innerLines, left, right]
  cases ls with
  | nil => simp
  | cons first ls => simp [notMeeting]

/-! ## Lines of typed words -/

theorem escapeQuotes_of_notMem {word : List Char} (absent : '\'' ∉ word) :
    escapeQuotes word = word := by
  induction word with
  | nil => rfl
  | cons c word ih =>
    rw [List.mem_cons, not_or] at absent
    rw [escapeQuotes, if_neg (Ne.symm absent.1), ih absent.2]

theorem quote_mem_escapeQuotes {word : List Char} (mem : '\'' ∈ word) :
    '\'' ∈ escapeQuotes word := by
  induction word with
  | nil => cases mem
  | cons c word ih => by_cases quote : c = '\'' <;> grind [escapeQuotes]

/-- A line without quotes is the escaped form of itself only. -/
theorem escapeQuotes_eq_iff {word line : List Char} (absent : '\'' ∉ line) :
    escapeQuotes word = line ↔ word = line := by
  constructor
  · rintro rfl
    exact (escapeQuotes_of_notMem fun mem => absent (quote_mem_escapeQuotes mem)).symm
  · rintro rfl
    exact escapeQuotes_of_notMem absent

theorem escapeQuotes_append (as bs : List Char) :
    escapeQuotes (as ++ bs) = escapeQuotes as ++ escapeQuotes bs := by
  induction as with
  | nil => rfl
  | cons c as ih => by_cases quote : c = '\'' <;> simp [escapeQuotes, quote, ih]

theorem escapeQuotes_joinLines (ls : List (List Char)) :
    escapeQuotes (joinLines ls) = joinLines (ls.map escapeQuotes) := by
  induction ls with
  | nil => rfl
  | cons l ls ih =>
    cases ls with
    | nil => rfl
    | cons m ls =>
      have newline (cs : List Char) : escapeQuotes ('\n' :: cs) = '\n' :: escapeQuotes cs := rfl
      rw [joinLines, joinWith, escapeQuotes_append, newline, ← joinLines, ih]
      rfl

theorem splitLines_escapeQuotes (word : List Char) :
    splitLines (escapeQuotes word) = (splitLines word).map escapeQuotes := by
  have some : (splitLines word).map escapeQuotes ≠ [] := by
    rw [Ne, List.map_eq_nil_iff]
    exact splitLines_ne_nil word
  have whole : ∀ line ∈ (splitLines word).map escapeQuotes, '\n' ∉ line := by
    intro line mem inside
    obtain ⟨piece, isPiece, rfl⟩ := List.mem_map.1 mem
    rcases mem_of_mem_escapeQuotes inside with own | quote | backslash
    · exact newline_notMem_of_mem_splitLines isPiece own
    · exact absurd quote (by decide)
    · exact absurd backslash (by decide)
  conv => lhs; rw [← joinLines_splitLines word]
  rw [escapeQuotes_joinLines, splitLines_joinLines some whole]

/-- A word is typed as it is, on one line, or between quotes. -/
theorem quoteChars_cases (word : List Char) :
    ('\n' ∉ word ∧ quoteChars word = word) ∨
      quoteChars word = ['\''] ++ escapeQuotes word ++ ['\''] := by
  rw [quoteChars]
  split
  case isTrue plain =>
    rw [Bool.and_eq_true, List.all_eq_true] at plain
    exact .inl ⟨fun mem => absurd (plain.2 '\n' mem) (by decide), rfl⟩
  case isFalse => exact .inr rfl

theorem quoteChars_ne_nil (word : List Char) : quoteChars word ≠ [] := by
  rw [quoteChars]
  split
  case isTrue plain =>
    intro empty
    simp [empty] at plain
  case isFalse => exact List.cons_ne_nil _ _

/-- A typed word ends with a plain character or with a quote. -/
theorem endsLine_quoteChars (word : List Char) : endsLine (quoteChars word) = false := by
  rcases quoteChars_cases word with ⟨oneLine, typed⟩ | typed
  · rw [typed, endsLine_eq_false oneLine]
  · rw [typed, endsLine_append _ (List.cons_ne_nil _ _)]
    rfl

/-- A command line ends as its last word does. -/
theorem endsLine_append_commandLine (before : List Char) {words : List String}
    (some : words ≠ []) :
    endsLine (before ++ (commandLine words).toList) = false := by
  rcases List.eq_nil_or_concat words with rfl | ⟨others, word, rfl⟩
  · exact absurd rfl some
  · obtain ⟨inner, joined⟩ :=
      exists_joinWith_concat ' ' ((others.map String.toList).map quoteChars)
        (quoteChars word.toList)
    rw [toList_commandLine, intercalate_eq_joinWith, List.concat_eq_append, List.map_append,
      List.map_append, List.map_singleton, List.map_singleton, joined, ← List.append_assoc,
      endsLine_append _ (quoteChars_ne_nil word.toList), endsLine_quoteChars]

/-- A line without quotes stands inside a typed word exactly if it stands inside the word, and it
is never the last line there. -/
theorem mem_quoteChars_iff {line : List Char} (absent : '\'' ∉ line) (word : List Char) :
    (line ∈ innerLines (quoteChars word) ↔ line ∈ innerLines word) ∧
      (line ∈ (splitLines (quoteChars word)).tail ↔ line ∈ innerLines word) := by
  rcases quoteChars_cases word with ⟨oneLine, typed⟩ | typed
  · rw [typed, innerLines_eq_nil oneLine, splitLines_eq_singleton oneLine]
    simp
  · have inside : innerLines (escapeQuotes word) = (innerLines word).map escapeQuotes := by
      rw [innerLines, splitLines_escapeQuotes, ← List.map_tail, ← List.map_dropLast]
      rfl
    have own : line ∈ innerLines (escapeQuotes word) ↔ line ∈ innerLines word := by
      rw [inside, List.mem_map]
      simp [escapeQuotes_eq_iff absent]
    have begun :
        innerLines (['\''] ++ escapeQuotes word ++ []) = innerLines (escapeQuotes word) :=
      innerLines_append (by decide) (by decide)
    rw [List.append_nil] at begun
    rw [typed, innerLines_append (by decide) (by decide),
      mem_tail_splitLines_append_cons_iff (by decide) absent, begun, own]
    simp [splitLines, splitOn]

/-- Of the lines without spaces and quotes, those that a command line starts are those inside its
words. -/
theorem mem_tail_splitLines_commandLine_iff {line : List Char} (noSpace : ' ' ∉ line)
    (noQuote : '\'' ∉ line) (words : List String) :
    line ∈ (splitLines (commandLine words).toList).tail ↔
      ∃ word ∈ words, line ∈ innerLines word.toList := by
  rw [toList_commandLine, intercalate_eq_joinWith]
  induction words with
  | nil => simp [joinWith, splitLines, splitOn]
  | cons word words ih =>
    have own := mem_quoteChars_iff noQuote word.toList
    cases words with
    | nil => simpa [joinWith] using own.2
    | cons next words =>
      rw [List.map_cons, List.map_cons, List.map_cons, List.map_cons, joinWith,
        mem_tail_splitLines_append_cons_iff (by decide) noSpace, own.1, ← List.map_cons,
        ← List.map_cons, ih]
      simp

end Text

end CommandSuite
