import CommandSuite.Glob.Pattern
import CommandSuite.Proofs.Path.Location

/-!
# Parts of a path

The parts of a path are the texts between its slashes, as a pattern has them for its components: a
slash at the start and one at the end make no part of their own, two slashes side by side do.

* `exists_pieces_eq`: the pieces that a path is followed by are its parts, but for empty ones at
  both ends.
* `parts_join`: what is joined to a path goes on behind its parts.
* `toList_join_empty`: a path is its parts, but for slashes at both ends.
-/

namespace CommandSuite.Path

/-- The text of a path without the slash that it may start with. -/
def unrooted (path : String) : List Char :=
  if isAbsolute path then path.toList.tail else path.toList

/-- The texts between the slashes of a path. -/
def parts (path : String) : List String :=
  (Glob.dropLastEmpty (Text.splitOn '/' (unrooted path))).map String.ofList

/-! ## Pieces without the last empty one -/

theorem exists_eq_dropLastEmpty (pieces : List (List Char)) :
    ∃ empty, (∀ p ∈ empty, p = []) ∧ pieces = Glob.dropLastEmpty pieces ++ empty := by
  by_cases last : pieces.getLast? = some []
  · obtain ⟨others, rfl⟩ := List.getLast?_eq_some_iff.1 last
    refine ⟨[[]], by simp, ?_⟩
    rw [Glob.dropLastEmpty, if_pos last, List.dropLast_concat]
  · refine ⟨[], by simp, ?_⟩
    rw [Glob.dropLastEmpty, if_neg last, List.append_nil]

theorem dropLastEmpty_append (ps : List (List Char)) {qs : List (List Char)} (others : qs ≠ []) :
    Glob.dropLastEmpty (ps ++ qs) = ps ++ Glob.dropLastEmpty qs := by
  have last : (ps ++ qs).getLast? = qs.getLast? := by
    rw [List.getLast?_append, List.getLast?_eq_some_getLast others, Option.some_or]
  rw [Glob.dropLastEmpty, Glob.dropLastEmpty, last, List.dropLast_append_of_ne_nil others]
  split <;> rfl

/-- Pieces behind a separator go on behind those before it. -/
theorem dropLastEmpty_splitOn_append (as bs : List Char) :
    Glob.dropLastEmpty (Text.splitOn '/' (as ++ '/' :: bs)) =
      Text.splitOn '/' as ++ Glob.dropLastEmpty (Text.splitOn '/' bs) := by
  rw [Text.splitOn_append_cons, dropLastEmpty_append _ (Text.splitOn_ne_nil '/' bs)]

/-- Only a separator at the end makes an empty piece there. -/
theorem dropLastEmpty_splitOn {cs : List Char} (filled : cs ≠ [])
    (ends : cs.getLast? ≠ some '/') :
    Glob.dropLastEmpty (Text.splitOn '/' cs) = Text.splitOn '/' cs := by
  refine if_neg fun last => ?_
  obtain ⟨others, split⟩ := List.getLast?_eq_some_iff.1 last
  have joined := Text.joinWith_splitOn '/' cs
  rw [split] at joined
  by_cases none : others = []
  · rw [none] at joined
    exact filled joined.symm
  · rw [Text.joinWith_concat '/' none] at joined
    rw [← joined, List.getLast?_concat] at ends
    exact ends rfl

/-! ## Parts -/

theorem parts_ne_nil {path : String} (filled : unrooted path ≠ []) : parts path ≠ [] := by
  intro none
  have joined := Text.joinWith_splitOn '/' (unrooted path)
  rw [parts, List.map_eq_nil_iff, Glob.dropLastEmpty] at none
  split at none
  case isTrue last =>
    obtain ⟨others, split⟩ := List.getLast?_eq_some_iff.1 last
    rw [split, List.dropLast_concat] at none
    rw [split, none] at joined
    exact filled joined.symm
  case isFalse => exact Text.splitOn_ne_nil '/' (unrooted path) none

theorem exists_of_mem_parts {path part : String} (isPart : part ∈ parts path) :
    ∃ cs ∈ Text.splitOn '/' (unrooted path), part = String.ofList cs := by
  obtain ⟨cs, isCut, rfl⟩ := List.mem_map.1 isPart
  obtain ⟨empty, _, split⟩ := exists_eq_dropLastEmpty (Text.splitOn '/' (unrooted path))
  refine ⟨cs, ?_, rfl⟩
  rw [split]
  exact List.mem_append_left empty isCut

theorem mem_of_mem_of_mem_parts {path part : String} {c : Char} (isPart : part ∈ parts path)
    (mem : c ∈ part.toList) : c ∈ path.toList := by
  obtain ⟨cs, isPiece, rfl⟩ := exists_of_mem_parts isPart
  rw [String.toList_ofList] at mem
  have inside := Text.mem_of_mem_of_mem_splitOn isPiece mem
  rw [unrooted] at inside
  split at inside
  · exact List.mem_of_mem_tail inside
  · exact inside

theorem slash_notMem_of_mem_parts {path part : String} (isPart : part ∈ parts path) :
    '/' ∉ part.toList := by
  obtain ⟨cs, isPiece, rfl⟩ := exists_of_mem_parts isPart
  rw [String.toList_ofList]
  exact Text.notMem_of_mem_splitOn isPiece

theorem isAbsolute_of_slash_notMem {s : String} (whole : '/' ∉ s.toList) :
    isAbsolute s = false := by
  rw [isAbsolute, beq_eq_false_iff_ne]
  exact fun head => whole (List.mem_of_mem_head? head)

/-- A text without slashes is the only part of itself. -/
theorem parts_of_slash_notMem {s : String} (whole : '/' ∉ s.toList) :
    parts s = if s = "" then [] else [s] := by
  rw [parts, unrooted, isAbsolute_of_slash_notMem whole, if_neg Bool.false_ne_true,
    Text.splitOn_eq_singleton whole]
  by_cases empty : s = ""
  · rw [if_pos empty, empty]
    rfl
  · have filled : s.toList ≠ [] := by rwa [Ne, String.toList_eq_nil_iff]
    rw [if_neg empty, Glob.dropLastEmpty, if_neg (by simpa using filled), List.map_singleton,
      String.ofList_toList]

/-- The pieces of a path are its parts with empty ones around them. -/
theorem exists_pieces_eq (path : String) :
    ∃ front back, (∀ s ∈ front, s = "") ∧ (∀ s ∈ back, s = "") ∧
      Text.pieces '/' path = front ++ parts path ++ back := by
  obtain ⟨empty, areEmpty, split⟩ := exists_eq_dropLastEmpty (Text.splitOn '/' (unrooted path))
  have back : ∀ s ∈ empty.map String.ofList, s = "" := by
    intro s mem
    obtain ⟨p, isEmpty, rfl⟩ := List.mem_map.1 mem
    rw [areEmpty p isEmpty]
  have inner : (Text.splitOn '/' (unrooted path)).map String.ofList =
      parts path ++ empty.map String.ofList := by
    have mapped := congrArg (List.map String.ofList) split
    rw [List.map_append] at mapped
    exact mapped
  cases rooted : isAbsolute path with
  | false =>
    refine ⟨[], empty.map String.ofList, by simp, back, ?_⟩
    rw [unrooted, rooted, if_neg Bool.false_ne_true] at inner
    exact inner
  | true =>
    refine ⟨[""], empty.map String.ofList, by simp, back, ?_⟩
    obtain ⟨rest, chars⟩ : ∃ rest, path.toList = '/' :: rest := by
      rw [isAbsolute, beq_iff_eq] at rooted
      exact List.head?_eq_some_iff.1 rooted
    rw [unrooted, rooted, if_pos rfl, chars, List.tail_cons] at inner
    rw [Text.pieces, chars, Text.splitOn, if_pos rfl, List.map_cons, inner]
    rfl

theorem up_mem_components_iff_pieces {path : String} :
    Component.up ∈ components path ↔ ".." ∈ Text.pieces '/' path := by
  have read (piece : String) : Component.ofPiece? piece = some .up ↔ piece = ".." := by
    rw [Component.ofPiece?]
    by_cases stays : piece = "" ∨ piece = "."
    · rcases stays with rfl | rfl <;> decide
    · by_cases goesUp : piece = ".." <;> simp [stays, goesUp]
  rw [components, List.mem_append, List.mem_filterMap, or_iff_right]
  · simp only [read, exists_eq_right]
  · split
    · simp
    · split <;> simp

theorem up_mem_components_iff {path : String} :
    Component.up ∈ components path ↔ ".." ∈ parts path := by
  obtain ⟨front, back, frontEmpty, backEmpty, split⟩ := exists_pieces_eq path
  rw [up_mem_components_iff_pieces, split, List.mem_append, List.mem_append]
  constructor
  · rintro ((inFront | isPart) | inBack)
    · exact absurd (frontEmpty _ inFront) (by decide)
    · exact isPart
    · exact absurd (backEmpty _ inBack) (by decide)
  · exact fun isPart => .inl (.inr isPart)

/-! ## Joining -/

theorem exists_toList_eq_cons {dir : String} (filled : dir ≠ "") :
    ∃ c cs, dir.toList = c :: cs := by
  refine List.exists_cons_of_ne_nil ?_
  rwa [Ne, String.toList_eq_nil_iff]

theorem isAbsolute_append_of_ne_empty {dir : String} (filled : dir ≠ "") (s : String) :
    isAbsolute (dir ++ s) = isAbsolute dir := by
  obtain ⟨c, cs, chars⟩ := exists_toList_eq_cons filled
  rw [isAbsolute, isAbsolute, String.toList_append, chars]
  rfl

/-- What is joined to a directory starts where the directory starts. -/
theorem isAbsolute_join_relative (dir : String) {path : String}
    (relative : isAbsolute path = false) :
    isAbsolute (join dir path) = isAbsolute dir := by
  rw [join, relative, if_neg Bool.false_ne_true]
  by_cases empty : dir = ""
  · subst empty
    rw [if_pos (by simp), String.empty_append]
    exact relative
  · split
    · exact isAbsolute_append_of_ne_empty empty path
    · rw [String.append_assoc, isAbsolute_append_of_ne_empty empty]

theorem unrooted_append {dir : String} (filled : dir ≠ "") (s : String) :
    unrooted (dir ++ s) = unrooted dir ++ s.toList := by
  obtain ⟨c, cs, chars⟩ := exists_toList_eq_cons filled
  rw [unrooted, unrooted, isAbsolute_append_of_ne_empty filled, String.toList_append, chars]
  split <;> rfl

/-- Nothing but the root is left of a path with its first slash. -/
theorem unrooted_cases {dir : String} (filled : dir ≠ "") :
    unrooted dir = [] ∧ dir.toList.getLast? = some '/' ∨
      unrooted dir ≠ [] ∧ (unrooted dir).getLast? = dir.toList.getLast? := by
  obtain ⟨c, cs, chars⟩ := exists_toList_eq_cons filled
  rw [unrooted]
  split
  case isTrue rooted =>
    rw [isAbsolute, beq_iff_eq, chars, List.head?_cons, Option.some.injEq] at rooted
    subst rooted
    rw [chars, List.tail_cons]
    cases cs with
    | nil => exact .inl ⟨rfl, rfl⟩
    | cons d cs => exact .inr ⟨List.cons_ne_nil d cs, List.getLast?_cons_cons.symm⟩
  case isFalse => exact .inr ⟨by rw [chars]; exact List.cons_ne_nil c cs, rfl⟩

/-- A relative path stands at the end of what it is joined to, at the start or behind a slash. -/
theorem exists_toList_join (dir : String) {path : String} (relative : isAbsolute path = false) :
    ∃ front, (join dir path).toList = front ++ path.toList ∧
      (front = [] ∨ front.getLast? = some '/') ∧ ∀ c ∈ front, c = '/' ∨ c ∈ dir.toList := by
  rw [join, relative, if_neg Bool.false_ne_true]
  split
  case isTrue ends =>
    refine ⟨dir.toList, String.toList_append, ?_, fun c mem => .inr mem⟩
    simpa [String.isEmpty_iff] using ends
  case isFalse =>
    refine ⟨dir.toList ++ ['/'], by simp, .inr List.getLast?_concat, fun c mem => ?_⟩
    rcases List.mem_append.1 mem with inDir | isSlash
    · exact .inr inDir
    · exact .inl (List.mem_singleton.1 isSlash)

/-- What is joined to a path goes on behind its parts. -/
theorem parts_join (dir : String) {path : String} (relative : isAbsolute path = false) :
    parts (join dir path) = parts dir ++ parts path := by
  have own : unrooted path = path.toList := by
    rw [unrooted, relative, if_neg Bool.false_ne_true]
  have behind {inner : List Char} {joined : String}
      (written : unrooted joined = inner ++ '/' :: path.toList) :
      parts joined = (Text.splitOn '/' inner).map String.ofList ++ parts path := by
    rw [parts, written, dropLastEmpty_splitOn_append, List.map_append, parts, own]
  rw [join, relative, if_neg Bool.false_ne_true]
  by_cases empty : dir = ""
  · subst empty
    rw [if_pos (by simp), String.empty_append]
    rfl
  by_cases ends : dir.toList.getLast? = some '/'
  · rw [if_pos (by simp [ends])]
    rcases unrooted_cases empty with ⟨root, _⟩ | ⟨_, last⟩
    · have none : parts dir = [] := by
        rw [parts, root]
        rfl
      rw [none, List.nil_append, parts, unrooted_append empty, root, List.nil_append, parts, own]
    · obtain ⟨inner, split⟩ := List.getLast?_eq_some_iff.1 (last.trans ends)
      have front : parts dir = (Text.splitOn '/' inner).map String.ofList := by
        rw [parts, split, dropLastEmpty_splitOn_append]
        exact congrArg _ (List.append_nil _)
      rw [front, behind (by rw [unrooted_append empty, split, List.append_assoc]; rfl)]
  · rw [if_neg (by simp [ends, empty])]
    rcases unrooted_cases empty with ⟨_, last⟩ | ⟨filled, last⟩
    · exact absurd last ends
    · have front : parts dir = (Text.splitOn '/' (unrooted dir)).map String.ofList := by
        rw [parts, dropLastEmpty_splitOn filled (by rw [last]; exact ends)]
      have written : unrooted (dir ++ ("/" ++ path)) = unrooted dir ++ '/' :: path.toList := by
        rw [unrooted_append empty, String.toList_append]
        rfl
      rw [front, String.append_assoc, behind written]

/-- Joining an empty part to a path leaves a slash, so that a joined path is empty only if both
parts are. -/
theorem join_eq_empty_iff {dir path : String} : join dir path = "" ↔ dir = "" ∧ path = "" := by
  unfold join
  split
  case isTrue absolute =>
    have some : path ≠ "" := by
      rintro rfl
      cases absolute
    simp [some]
  case isFalse =>
    split
    · exact String.append_eq_empty_iff
    case isFalse nonempty =>
      have some : dir ≠ "" := by
        rintro rfl
        exact nonempty rfl
      simp [some]

/-- A relative path is written behind what nothing is joined to. -/
theorem join_eq_append (dir : String) {path : String} (relative : isAbsolute path = false) :
    join dir path = join dir "" ++ path := by
  have none : isAbsolute "" = false := by decide
  rw [join, join, relative, none, if_neg Bool.false_ne_true, if_neg Bool.false_ne_true]
  split
  · rw [String.append_empty]
  · rw [String.append_empty]

theorem join_empty_of_part {part : String} (filled : part ≠ "") (whole : '/' ∉ part.toList)
    (front : String) : join (front ++ part) "" = front ++ part ++ "/" := by
  have last : part.toList.getLast? ≠ some '/' := fun ends => whole (List.mem_of_getLast? ends)
  rw [join, if_neg (by decide), if_neg (by simp [last, filled]), String.append_empty]

/-- With a slash at its end, a path is its parts with a slash behind each. -/
theorem toList_join_empty {path : String} (filled : path ≠ "") :
    (join path "").toList =
      (if isAbsolute path then ['/'] else []) ++ (parts path).flatMap (·.toList ++ ['/']) := by
  have none : isAbsolute "" = false := by decide
  have written : (parts path).flatMap (·.toList ++ ['/']) =
      (Glob.dropLastEmpty (Text.splitOn '/' (unrooted path))).flatMap (· ++ ['/']) := by
    rw [parts, List.flatMap_map]
    simp only [String.toList_ofList]
  have whole : path.toList = (if isAbsolute path then ['/'] else []) ++ unrooted path := by
    rw [unrooted]
    split
    case isTrue rooted =>
      rw [isAbsolute, beq_iff_eq] at rooted
      obtain ⟨rest, chars⟩ := List.head?_eq_some_iff.1 rooted
      rw [chars]
      rfl
    case isFalse => rfl
  have behind (cs : List Char) : (Text.splitOn '/' cs).flatMap (· ++ ['/']) = cs ++ ['/'] := by
    rw [← Text.joinWith_append_sep '/' (Text.splitOn_ne_nil '/' cs), Text.joinWith_splitOn]
  rw [written, join, none, if_neg Bool.false_ne_true]
  rcases unrooted_cases filled with ⟨root, ends⟩ | ⟨inner, last⟩
  · rw [if_pos (by simp [ends]), String.append_empty, whole, root]
    rfl
  · by_cases ends : path.toList.getLast? = some '/'
    · obtain ⟨front, split⟩ := List.getLast?_eq_some_iff.1 (last.trans ends)
      have pieces :
          Glob.dropLastEmpty (Text.splitOn '/' (front ++ ['/'])) = Text.splitOn '/' front :=
        (dropLastEmpty_splitOn_append front []).trans (List.append_nil _)
      rw [if_pos (by simp [ends]), String.append_empty, whole, split, pieces, behind]
    · rw [if_neg (by simp [ends, filled]), String.append_empty, String.toList_append, whole,
        dropLastEmpty_splitOn inner (by rwa [last]), behind, List.append_assoc]
      rfl

end CommandSuite.Path
