import CommandSuite.Host

/-!
# Command lines read back

A command line is a report, but it can be typed: a POSIX shell reads from it the argument vector
that is executed. `WordReader` reads words as a shell does where nothing is expanded: blanks
divide words, single quotes take everything up to the next one, a backslash takes the next
character.

* `WordReader.words?_commandLine`: written words are read back, whatever characters they hold.
* `WordReader.tame_commandLine`: outside quotes there are only spaces and characters that mean
  nothing else to a shell, so that nothing is expanded or taken for an operator.
* `commandLine_reads_command`: both, of the command line of a case and the command that it starts.
-/

namespace CommandSuite

namespace Text

/-- How the next character is taken. -/
inductive Quoting where
  /-- As what it means to the shell. -/
  | bare
  | single
  | escaped
  deriving Repr, DecidableEq

/-- Blanks that divide words. -/
def isSeparator (c : Char) : Bool := c = ' ' || c = '\t'

/-- What has been read of a line. -/
structure WordReader where
  quoting : Quoting := .bare
  /-- The words that have ended. -/
  words : List (List Char) := []
  /-- The word that has begun, if one has. -/
  word : Option (List Char) := none
  /-- The characters that stood outside quotes and behind no backslash, without those marks. -/
  unquoted : List Char := []
  deriving Repr, DecidableEq

namespace WordReader

/-- Takes characters into the word, which begins with them if none has begun. -/
def add (reader : WordReader) (cs : List Char) : WordReader :=
  { reader with word := some (reader.word.getD [] ++ cs) }

/-- Takes one character. -/
def step (reader : WordReader) (c : Char) : WordReader :=
  match reader.quoting with
  | .single => if c = '\'' then { reader with quoting := .bare } else reader.add [c]
  | .escaped => { reader.add [c] with quoting := .bare }
  | .bare =>
    if c = '\'' then { reader.add [] with quoting := .single }
    else if c = '\\' then { reader.add [] with quoting := .escaped }
    else
      let reader := { reader with unquoted := reader.unquoted ++ [c] }
      if isSeparator c then
        { reader with words := reader.words ++ reader.word.toList, word := none }
      else reader.add [c]

/-- Reads from a state on. -/
def readFrom (reader : WordReader) (cs : List Char) : WordReader := cs.foldl step reader

/-- Reads a line. -/
def read (line : String) : WordReader := readFrom {} line.toList

/-- The words that have ended, and the one that has begun. -/
def allWords (reader : WordReader) : List (List Char) := reader.words ++ reader.word.toList

/-- The words of a line, unless it ends within quotes or behind a backslash. -/
def words? (line : String) : Option (List String) :=
  let reader := read line
  if reader.quoting = .bare then some (reader.allWords.map String.ofList) else none

variable {reader : WordReader} {c : Char} {cs ds w : List Char}

/-! ## Reading one word -/

theorem readFrom_append (reader : WordReader) (cs ds : List Char) :
    reader.readFrom (cs ++ ds) = (reader.readFrom cs).readFrom ds :=
  List.foldl_append

@[simp] theorem add_add (reader : WordReader) (cs ds : List Char) :
    (reader.add cs).add ds = reader.add (cs ++ ds) := by
  simp [add]

theorem isPlain_ne (plain : isPlain c) : c ≠ '\'' ∧ c ≠ '\\' ∧ isSeparator c = false := by
  refine ⟨?_, ?_, ?_⟩
  · rintro rfl
    revert plain
    decide
  · rintro rfl
    revert plain
    decide
  · rw [isSeparator, Bool.or_eq_false_iff, decide_eq_false_iff_not, decide_eq_false_iff_not]
    constructor
    · rintro rfl
      revert plain
      decide
    · rintro rfl
      revert plain
      decide

/-- A plain character outside quotes stands for itself. -/
theorem step_of_isPlain (bare : reader.quoting = .bare) (plain : isPlain c) :
    reader.step c = { reader.add [c] with unquoted := reader.unquoted ++ [c] } := by
  obtain ⟨noQuote, noBackslash, noBlank⟩ := isPlain_ne plain
  simp [step, bare, noQuote, noBackslash, noBlank, add]

/-- Plain characters outside quotes go on with the word. -/
theorem readFrom_plain (bare : reader.quoting = .bare) (plain : ∀ c ∈ w, isPlain c)
    (begun : reader.word ≠ none ∨ w ≠ []) :
    reader.readFrom w = { reader.add w with unquoted := reader.unquoted ++ w } := by
  induction w generalizing reader with
  | nil =>
    rcases reader with ⟨quoting, words, _ | word, unquoted⟩
    · exact (begun.elim (fun h => h rfl) (fun h => h rfl)).elim
    · simp [readFrom, add]
  | cons c w ih =>
    have first := step_of_isPlain bare (plain c (by simp))
    have bare' : (reader.step c).quoting = .bare := by rw [first]; exact bare
    have rest := ih bare' (fun d later => plain d (by simp [later]))
      (.inl (by rw [first]; simp [add]))
    rw [readFrom, List.foldl_cons, ← readFrom, rest, first]
    simp [add]

/-- Within quotes, the inside of a quoted word and the closing quote give the word. -/
theorem readFrom_escapeQuotes (single : reader.quoting = .single) (begun : reader.word ≠ none) :
    reader.readFrom (escapeQuotes w ++ ['\'']) = { reader.add w with quoting := .bare } := by
  induction w generalizing reader with
  | nil =>
    obtain ⟨word, some⟩ := Option.ne_none_iff_exists'.1 begun
    simp [readFrom, escapeQuotes, step, single, add, some]
  | cons c w ih =>
    -- either way the character has gone into the word and the quotes are open again
    have next : ∀ written, escapeQuotes (c :: w) = written ++ escapeQuotes w →
        reader.readFrom written = reader.add [c] →
        reader.readFrom (escapeQuotes (c :: w) ++ ['\'']) =
          { reader.add (c :: w) with quoting := .bare } := by
      intro written split gone
      have single' : (reader.add [c]).quoting = .single := single
      have begun' : (reader.add [c]).word ≠ none := by simp [add]
      rw [split, List.append_assoc, readFrom_append, gone, ih single' begun', add_add]
      rfl
    by_cases quote : c = '\''
    · subst quote
      exact next ['\'', '\\', '\'', '\''] rfl (by simp [readFrom, step, single, add])
    · exact next [c] (by simp [escapeQuotes, quote]) (by simp [readFrom, step, single, quote])

/-- The characters of a word that are written outside quotes. -/
def unquotedOf (w : List Char) : List Char := if !w.isEmpty && w.all isPlain then w else []

/-- A written word is read as the word, whole and as one. -/
theorem readFrom_quoteChars (bare : reader.quoting = .bare) (w : List Char) :
    reader.readFrom (quoteChars w) =
      { reader.add w with unquoted := reader.unquoted ++ unquotedOf w } := by
  rw [quoteChars, unquotedOf]
  split
  case isTrue plain =>
    rw [Bool.and_eq_true, List.all_eq_true, Bool.not_eq_true', List.isEmpty_eq_false_iff] at plain
    exact readFrom_plain bare plain.2 (.inr plain.1)
  case isFalse =>
    have opened : reader.step '\'' = { reader.add [] with quoting := .single } := by
      simp [step, bare]
    rw [readFrom, List.foldl_cons, ← readFrom, opened,
      readFrom_escapeQuotes rfl (by simp [add])]
    simp [add, bare]

/-! ## Reading a line -/

/-- Characters that mean nothing but themselves to a shell, and spaces. -/
def IsTame (c : Char) : Prop :=
  c = ' ' ∨ c.isAlphanum ∨ c ∈ ['-', '_', '.', '/', '=', ':', ',', '+', '@', '%']

theorem isTame_of_mem_unquotedOf (mem : c ∈ unquotedOf w) : IsTame c := by
  rw [unquotedOf] at mem
  split at mem
  case isTrue plain =>
    rw [Bool.and_eq_true, List.all_eq_true] at plain
    have := plain.2 c mem
    rw [isPlain, Bool.or_eq_true, List.contains_iff_mem] at this
    exact .inr this
  case isFalse => cases mem

/-- Behind a word that was read, a line of further words gives these words. -/
theorem readFrom_commandLine (reader : WordReader) (bare : reader.quoting = .bare)
    (fresh : reader.word = none) (ws : List (List Char)) :
    let reached := reader.readFrom ([' '].intercalate (ws.map quoteChars))
    reached.quoting = .bare ∧ reached.allWords = reader.words ++ ws ∧
      ∀ c ∈ reached.unquoted, c ∈ reader.unquoted ∨ IsTame c := by
  induction ws generalizing reader with
  | nil => exact ⟨bare, by simp [readFrom, allWords, fresh], fun c mem => .inl mem⟩
  | cons w ws ih =>
    have word := readFrom_quoteChars bare w
    cases ws with
    | nil =>
      rw [List.map_singleton, List.intercalate_singleton, word]
      refine ⟨bare, by simp [allWords, add, fresh], fun c mem => ?_⟩
      rcases List.mem_append.1 mem with before | here
      · exact .inl before
      · exact .inr (isTame_of_mem_unquotedOf here)
    | cons v ws =>
      -- the space ends the word and leaves a reader to which the induction applies
      let behind : WordReader :=
        { reader with
          words := reader.words ++ [w], unquoted := reader.unquoted ++ unquotedOf w ++ [' '] }
      have divided : reader.readFrom ([' '].intercalate ((w :: v :: ws).map quoteChars)) =
          behind.readFrom ([' '].intercalate ((v :: ws).map quoteChars)) := by
        rw [List.map_cons, List.map_cons, List.intercalate_cons_cons, readFrom_append,
          readFrom_append, word, ← List.map_cons]
        simp [readFrom, step, bare, isSeparator, add, behind, fresh]
      obtain ⟨ended, all, tame⟩ := ih behind bare fresh
      rw [divided]
      refine ⟨ended, by rw [all]; simp [behind], fun c mem => ?_⟩
      rcases tame c mem with before | here
      · rcases List.mem_append.1 before with before | space
        · rcases List.mem_append.1 before with before | inWord
          · exact .inl before
          · exact .inr (isTame_of_mem_unquotedOf inWord)
        · exact .inr (.inl (List.mem_singleton.1 space))
      · exact .inr here

/-- Words that are written as a line are read from it. -/
theorem words?_commandLine (words : List String) : words? (commandLine words) = some words := by
  obtain ⟨ended, all, _⟩ :=
    readFrom_commandLine {} rfl rfl (words.map String.toList)
  rw [words?, read, toList_commandLine, if_pos ended, all]
  simp [Function.comp_def]

/-- Nothing in a line of words that stands outside quotes means anything else to a shell. -/
theorem tame_commandLine (words : List String) :
    ∀ c ∈ (read (commandLine words)).unquoted, IsTame c := by
  obtain ⟨_, _, tame⟩ :=
    readFrom_commandLine {} rfl rfl (words.map String.toList)
  intro c mem
  rw [read, toList_commandLine] at mem
  exact (tame c mem).resolve_left (by simp)

end WordReader

end Text

open Text

theorem Host.words_of_command {invocation : Invocation} {words : List String}
    (started : Host.command invocation = .ok words) : words = invocation.words := by
  rw [Host.command] at started
  split at started
  · cases started
  · exact (Except.ok.inj started).symm

/-- **The command line that is reported is the argument vector that is executed.** A shell reads
it to the end and gets the program with its arguments, or `sh -c` with the script; on the way it
meets nothing outside quotes that it would expand or take for an operator. So direct invocations
of one command line are the same. -/
theorem commandLine_reads_command {c : TestCase} {words : List String}
    (started : Host.command c.invocation = .ok words) :
    (∀ program arguments, c.invocation = .direct program arguments →
      words = program :: arguments) ∧
    (∀ script environment, c.invocation = .script script environment →
      words = ["sh", "-c", script]) ∧
    WordReader.words? c.commandLine = some words ∧
    (∀ char ∈ (WordReader.read c.commandLine).unquoted,
      char = ' ' ∨ char.isAlphanum ∨
        char ∈ ['-', '_', '.', '/', '=', ':', ',', '+', '@', '%']) ∧
    ∀ program arguments program' arguments',
      (Invocation.direct program arguments).display =
        (Invocation.direct program' arguments').display →
      program = program' ∧ arguments = arguments' := by
  obtain rfl := Host.words_of_command started
  refine ⟨fun program arguments direct => by rw [direct]; rfl,
    fun script environment shell => by rw [shell]; rfl,
    WordReader.words?_commandLine _, WordReader.tame_commandLine _, ?_⟩
  intro program arguments program' arguments' same
  have left : WordReader.words? (Invocation.direct program arguments).display = _ :=
    WordReader.words?_commandLine (program :: arguments)
  have right : WordReader.words? (Invocation.direct program' arguments').display = _ :=
    WordReader.words?_commandLine (program' :: arguments')
  rw [same] at left
  exact List.cons.inj (Option.some.inj (left.symm.trans right))

/-- Words with quotes, blanks and a backslash, and an empty one. -/
theorem commandLine_reads_command_quotes :
    let c : TestCase :=
      { name := "c", description := none, expected := ""
        invocation := .direct "ar'xc" ["", "a b", "'", "\\"] }
    Host.command c.invocation = .ok ["ar'xc", "", "a b", "'", "\\"] ∧
      WordReader.words? c.commandLine = some ["ar'xc", "", "a b", "'", "\\"] := by
  intro c
  have started : Host.command c.invocation = .ok ["ar'xc", "", "a b", "'", "\\"] := rfl
  exact ⟨started, (commandLine_reads_command started).2.2.1⟩

end CommandSuite
