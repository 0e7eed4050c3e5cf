import CommandSuite.Text.Split

/-!
# Words of a command line

`commandLine` writes a list of words as one would type it into a POSIX shell. A word of plain
characters stands as it is; any other word is put between single quotes, each single quote in it
being written `'\''`: the quotes are closed, an escaped quote follows, and they are opened again.
-/

namespace CommandSuite.Text

/-- Characters that mean nothing but themselves to a shell, in any position of a word. -/
def isPlain (c : Char) : Bool :=
  c.isAlphanum || ['-', '_', '.', '/', '=', ':', ',', '+', '@', '%'].contains c

/-- The inside of a quoted word. -/
def escapeQuotes : List Char → List Char
  | [] => []
  | c :: cs => if c = '\'' then '\'' :: '\\' :: '\'' :: '\'' :: escapeQuotes cs
    else c :: escapeQuotes cs

/-- A word as it is typed. The empty word needs quotes to be seen. -/
def quoteChars (word : List Char) : List Char :=
  if !word.isEmpty && word.all isPlain then word
  else '\'' :: (escapeQuotes word ++ ['\''])

/-- A word as it is typed. -/
def quote (word : String) : String := String.ofList (quoteChars word.toList)

/-- Words as they are typed, with one space between any two. -/
def commandLine (words : List String) : String := " ".intercalate (words.map quote)

theorem toList_commandLine (words : List String) :
    (commandLine words).toList =
    [' '].intercalate ((words.map String.toList).map quoteChars) := by
  rw [commandLine, String.toList_intercalate, List.map_map, List.map_map]
  congr 1
  refine List.map_congr_left fun word _ => ?_
  simp [quote]

theorem mem_of_mem_escapeQuotes {word : List Char} {c : Char} (mem : c ∈ escapeQuotes word) :
    c ∈ word ∨ c = '\'' ∨ c = '\\' := by
  induction word with
  | nil => exact .inl mem
  | cons d word ih => by_cases quote : d = '\'' <;> grind [escapeQuotes]

/-- A typed word has no characters of its own but quotes and backslashes. -/
theorem mem_of_mem_quoteChars {word : List Char} {c : Char} (mem : c ∈ quoteChars word) :
    c ∈ word ∨ c = '\'' ∨ c = '\\' := by
  rw [quoteChars] at mem
  split at mem
  · exact .inl mem
  · rw [List.mem_cons, List.mem_append, List.mem_singleton] at mem
    rcases mem with quote | inside | quote
    · exact .inr (.inl quote)
    · exact mem_of_mem_escapeQuotes inside
    · exact .inr (.inl quote)

/-- Words without line feeds are typed in one line. -/
theorem newline_notMem_commandLine {words : List String}
    (whole : ∀ word ∈ words, '\n' ∉ word.toList) : '\n' ∉ (commandLine words).toList := by
  rw [toList_commandLine, intercalate_eq_joinWith]
  intro mem
  rcases mem_of_mem_joinWith mem with space | ⟨typed, isTyped, inside⟩
  · exact absurd space (by decide)
  · obtain ⟨word, isWord, rfl⟩ := List.mem_map.1 isTyped
    obtain ⟨text, isText, rfl⟩ := List.mem_map.1 isWord
    rcases mem_of_mem_quoteChars inside with inside | quote | backslash
    · exact whole text isText inside
    · exact absurd quote (by decide)
    · exact absurd backslash (by decide)

end CommandSuite.Text
