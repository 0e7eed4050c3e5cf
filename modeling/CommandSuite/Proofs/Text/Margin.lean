import CommandSuite.Text.Indent
import Mathlib.Data.List.Basic

/-!
# Margins

Reports put texts with a margin into texts that get a margin in turn. A margin of one line stands
in front of every line of a text and changes nothing else of it: the text has as many lines as
before, ends as before, and is read back by taking the margin away.

* `indentChars_indentChars`: a text with two margins is one with both of them as one margin.
* `eq_indentWith_iff`: the texts with a margin are those from which it can be taken away without a
  change to their ends, and what is left is the text inside.
* `margins_add_and_read_back` puts this together; it also says that a margin of several lines does
  not add to others.
-/

namespace CommandSuite

/-- A list is decoded element by element exactly if it consists of the codes of the result. -/
theorem mapM_eq_some_iff_eq_map {α β : Type} {decode : α → Option β} {encode : β → α}
    (inverse : ∀ a b, decode a = some b ↔ a = encode b) {as : List α} {bs : List β} :
    as.mapM decode = some bs ↔ as = bs.map encode := by
  induction as generalizing bs with
  | nil => cases bs <;> simp
  | cons a as ih =>
    rw [List.mapM_cons]
    constructor
    · intro all
      obtain ⟨b, first, later⟩ := Option.bind_eq_some_iff.1 all
      obtain ⟨others, rest, made⟩ := Option.bind_eq_some_iff.1 later
      rw [← Option.some.inj made, List.map_cons, ← (inverse a b).1 first, ← ih.1 rest]
    · intro written
      cases bs with
      | nil => cases written
      | cons b bs =>
        obtain ⟨rfl, rfl⟩ := List.cons.inj written
        rw [(inverse _ b).2 rfl, ih.2 rfl]
        rfl

namespace Text

/-! ## Lines and lengths -/

theorem length_consPiece (c : Char) {ps : List (List Char)} (some : ps ≠ []) :
    (consPiece c ps).length = ps.length := by
  cases ps with
  | nil => exact absurd rfl some
  | cons p ps => rfl

/-- There is one piece more than there are separators. -/
theorem length_splitLines (cs : List Char) : (splitLines cs).length = cs.count '\n' + 1 := by
  unfold splitLines
  induction cs with
  | nil => rfl
  | cons c cs ih =>
    rw [splitOn, List.count_cons]
    by_cases feed : c = '\n'
    · rw [if_pos feed, List.length_cons, ih, feed]
      rfl
    · rw [if_neg feed, length_consPiece c (splitOn_ne_nil '\n' cs), ih, if_neg (by simp [feed])]

/-- Every line but the last is ended by a line feed, and the last may be. -/
theorem length_lines (cs : List Char) :
    (lines cs).length = cs.count '\n' + if endsLine cs then 0 else 1 := by
  have counted := congrArg (List.count '\n') (chomp_append_newline cs)
  rw [List.count_append] at counted
  rw [lines, length_splitLines, ← counted]
  cases endsLine cs <;> rfl

theorem length_joinLines_margin (margin : List Char) (ls : List (List Char)) :
    (joinLines (ls.map (margin ++ ·))).length =
      (joinLines ls).length + ls.length * margin.length := by
  unfold joinLines
  induction ls with
  | nil => simp [joinWith]
  | cons line ls ih =>
    cases ls with
    | nil => simp [joinWith]; omega
    | cons next ls =>
      rw [List.map_cons, List.map_cons] at *
      rw [joinWith, joinWith, List.length_append, List.length_append, List.length_append,
        List.length_cons, List.length_cons, List.length_cons (a := line), Nat.add_mul, ih]
      omega

/-- A margin makes a text longer by as much as it has lines. -/
theorem length_indentChars (margin cs : List Char) :
    (indentChars margin cs).length = cs.length + (lines cs).length * margin.length := by
  have whole := congrArg List.length (writeLines_lines cs)
  rw [writeLines, List.length_append] at whole
  rw [indentChars, writeLines, List.length_append, length_joinLines_margin]
  omega

/-! ## Two margins -/

/-- A text with two margins has both as one margin. -/
theorem indentChars_indentChars (outer : List Char) {inner : List Char} (oneLine : '\n' ∉ inner)
    (cs : List Char) :
    indentChars outer (indentChars inner cs) = indentChars (outer ++ inner) cs := by
  have both (line : List Char) : outer ++ (inner ++ line) = (outer ++ inner) ++ line :=
    (List.append_assoc outer inner line).symm
  rw [indentChars, lines_indentChars oneLine, endsLine_indentChars oneLine,
    List.map_map, indentChars]
  simp only [Function.comp_def, both]

/-- A margin of several lines does not add: with it one line becomes several, which get a margin
each. -/
theorem newline_notMem_of_indentChars_indentChars {inner : List Char}
    (add : indentChars ['x'] (indentChars inner ['x']) = indentChars (['x'] ++ inner) ['x']) :
    '\n' ∉ inner := by
  have single : lines ['x'] = [['x']] := by decide
  have inside : indentChars inner ['x'] = inner ++ ['x'] := by
    rw [indentChars, single, List.map_singleton]
    exact List.append_nil _
  have unended : endsLine (inner ++ ['x']) = false := endsLine_append inner (List.cons_ne_nil _ _)
  have lengths := congrArg List.length add
  rw [inside, length_indentChars, length_indentChars, single, length_lines, unended,
    List.count_append, if_neg Bool.false_ne_true] at lengths
  simp only [List.length_append, List.length_cons, List.length_nil] at lengths
  apply List.count_eq_zero.1
  omega

theorem indentWith_indentWith (outer : String) {inner : String} (oneLine : '\n' ∉ inner.toList)
    (s : String) : indentWith outer (indentWith inner s) = indentWith (outer ++ inner) s := by
  apply String.toList_inj.1
  rw [toList_indentWith, toList_indentWith, toList_indentWith, String.toList_append,
    indentChars_indentChars outer.toList oneLine]

theorem indent_indent (outer inner : Nat) (s : String) :
    indent outer (indent inner s) = indent (inner + outer) s := by
  have blank : '\n' ∉ List.replicate inner ' ' :=
    fun mem => absurd (List.eq_of_mem_replicate mem) (by decide)
  apply String.toList_inj.1
  rw [toList_indent, toList_indent, toList_indent, indentChars_indentChars _ blank,
    List.replicate_append_replicate, Nat.add_comm]

/-! ## Taking a margin away -/

/-- The text without the margin ahead of its lines, if each of them has it. -/
def dropMargin? (margin s : String) : Option String :=
  ((lines s.toList).mapM (margin.toList.isPrefixOf? ·)).map fun ls =>
    String.ofList (writeLines ls (endsLine s.toList))

theorem dropMargin?_eq_some_iff {margin s t : String} :
    dropMargin? margin t = some s ↔
      ∃ ls, lines t.toList = ls.map (margin.toList ++ ·) ∧
        s.toList = writeLines ls (endsLine t.toList) := by
  have inverse (line rest : List Char) :
      margin.toList.isPrefixOf? line = some rest ↔ line = margin.toList ++ rest := by
    rw [List.isPrefixOf?_eq_some_iff_append_eq, eq_comm]
  rw [dropMargin?, Option.map_eq_some_iff]
  simp only [mapM_eq_some_iff_eq_map inverse, ← String.toList_inj, String.toList_ofList, eq_comm]

/-- The texts with a margin of one line are those from which it can be taken away, with the same
end before and after that. A last line that is nothing but the margin would make the line before
it the last. -/
theorem eq_indentWith_iff {margin : String} (oneLine : '\n' ∉ margin.toList) {s t : String} :
    t = indentWith margin s ↔
      dropMargin? margin t = some s ∧ endsLine t.toList = endsLine s.toList := by
  rw [dropMargin?_eq_some_iff, ← String.toList_inj, toList_indentWith]
  constructor
  · intro indented
    have ends : endsLine t.toList = endsLine s.toList := by
      rw [indented, endsLine_indentChars oneLine]
    refine ⟨⟨lines s.toList, ?_, ?_⟩, ends⟩
    · rw [indented, lines_indentChars oneLine]
    · rw [ends, writeLines_lines]
  · intro ⟨⟨ls, behind, inside⟩, ends⟩
    have some : ls ≠ [] := by
      intro none
      rw [none, List.map_nil] at behind
      exact splitLines_ne_nil _ behind
    have whole : ∀ l ∈ ls, '\n' ∉ l := by
      intro l mem feed
      have isLine : margin.toList ++ l ∈ lines t.toList := by
        rw [behind]
        exact List.mem_map_of_mem mem
      exact newline_notMem_of_mem_splitLines isLine (List.mem_append_right _ feed)
    have own : lines s.toList = ls := by
      rw [inside, lines_writeLines some whole (by rw [← inside, ends])]
    rw [indentChars, own, ← behind, ← ends, writeLines_lines]

/-- **Margins add up and read back.** Spaces ahead of spaces are as many as both. A margin adds to
all margins in front of it exactly if it is of one line. Then a text with it ends as the text does
and has as many lines, which are as many as its line feeds and one more if none of these ends it.
Each of its lines is one of the text behind the margin: the texts with a margin are those from
which it can be taken away without a change to their ends, and that gives the text. -/
theorem margins_add_and_read_back :
    (∀ outer inner s, indent outer (indent inner s) = indent (inner + outer) s) ∧
    (∀ cs, (lines cs).length = cs.count '\n' + if endsLine cs then 0 else 1) ∧
    ∀ margin : String,
      ((∀ outer s, indentWith outer (indentWith margin s) = indentWith (outer ++ margin) s) ↔
        '\n' ∉ margin.toList) ∧
      ('\n' ∉ margin.toList → ∀ s,
        endsLine (indentWith margin s).toList = endsLine s.toList ∧
        (lines (indentWith margin s).toList).length = (lines s.toList).length ∧
        dropMargin? margin (indentWith margin s) = some s ∧
        ∀ t, dropMargin? margin t = some s → endsLine t.toList = endsLine s.toList →
          t = indentWith margin s) := by
  refine ⟨indent_indent, length_lines,
    fun margin => ⟨⟨fun add => ?_, fun oneLine outer s => ?_⟩, ?_⟩⟩
  · have single := congrArg String.toList (add "x" "x")
    rw [toList_indentWith, toList_indentWith, toList_indentWith, String.toList_append] at single
    exact newline_notMem_of_indentChars_indentChars single
  · exact indentWith_indentWith outer oneLine s
  · intro oneLine s
    obtain ⟨read, ends⟩ := (eq_indentWith_iff oneLine (s := s)).1 rfl
    have numbers : (lines (indentWith margin s).toList).length = (lines s.toList).length := by
      rw [toList_indentWith, lines_indentChars oneLine, List.length_map]
    exact ⟨ends, numbers, read, fun t read ends => (eq_indentWith_iff oneLine).2 ⟨read, ends⟩⟩

/-- A text that ends with a blank line, in a frame and behind a margin of two lines. -/
theorem margins_add_and_read_back_blank :
    '\n' ∉ "│ ".toList ∧
      indentWith "x\n" (indentWith "│ " "a\n\n") = indentWith "x\n│ " "a\n\n" ∧
      dropMargin? "│ " "│ a\n│ \n" = some "a\n\n" := by
  have oneLine : '\n' ∉ "│ ".toList := by decide
  have behind : indentWith "│ " "a\n\n" = "│ a\n│ \n" := by decide +kernel
  obtain ⟨_, _, margins⟩ := margins_add_and_read_back
  obtain ⟨add, read⟩ := margins "│ "
  obtain ⟨_, _, inside, _⟩ := read oneLine "a\n\n"
  rw [behind] at inside
  exact ⟨oneLine, add.2 oneLine "x\n" "a\n\n", inside⟩

/-- A margin of two lines makes two lines of one. -/
example : indentWith "x" (indentWith "\n" "a") = "x\nxa" ∧
    indentWith ("x" ++ "\n") "a" = "x\na" := by
  decide +kernel

end Text

end CommandSuite
