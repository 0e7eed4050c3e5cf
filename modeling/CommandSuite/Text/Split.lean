/-!
# Pieces of a text

`splitOn sep` cuts a text at every `sep`, `joinWith sep` puts the pieces together again
(`joinWith_splitOn`). There is always at least one piece (`splitOn_ne_nil`).
-/

namespace CommandSuite.Text

/-- Puts a character in front of the first of several pieces. -/
def consPiece (c : Char) : List (List Char) → List (List Char)
  | [] => [[c]]
  | p :: ps => (c :: p) :: ps

/-- The pieces between the separators. -/
def splitOn (sep : Char) : List Char → List (List Char)
  | [] => [[]]
  | c :: cs => if c = sep then [] :: splitOn sep cs else consPiece c (splitOn sep cs)

/-- The pieces with a separator between any two of them. -/
def joinWith (sep : Char) : List (List Char) → List Char
  | [] => []
  | [p] => p
  | p :: q :: ps => p ++ sep :: joinWith sep (q :: ps)

theorem splitOn_ne_nil (sep : Char) (cs : List Char) : splitOn sep cs ≠ [] := by
  cases cs with
  | nil => simp [splitOn]
  | cons c cs =>
    by_cases h : c = sep
    · simp [splitOn, h]
    · cases e : splitOn sep cs <;> simp [splitOn, h, e, consPiece]

theorem joinWith_consPiece (sep c : Char) (ps : List (List Char)) :
    joinWith sep (consPiece c ps) = c :: joinWith sep ps := by
  rcases ps with _ | ⟨p, _ | ⟨q, ps⟩⟩ <;> simp [consPiece, joinWith]

theorem joinWith_splitOn (sep : Char) (cs : List Char) : joinWith sep (splitOn sep cs) = cs := by
  induction cs with
  | nil => rfl
  | cons c cs ih =>
    by_cases h : c = sep
    · cases e : splitOn sep cs with
      | nil => exact absurd e (splitOn_ne_nil sep cs)
      | cons p ps => rw [e] at ih; simp [splitOn, h, e, joinWith, ih]
    · simp [splitOn, h, joinWith_consPiece, ih]

theorem splitOn_append_cons (sep : Char) (as bs : List Char) :
    splitOn sep (as ++ sep :: bs) = splitOn sep as ++ splitOn sep bs := by
  induction as with
  | nil => simp [splitOn]
  | cons a as ih =>
    by_cases h : a = sep
    · simp [splitOn, h, ih]
    · cases e : splitOn sep as with
      | nil => exact absurd e (splitOn_ne_nil sep as)
      | cons p ps => simp [splitOn, h, ih, e, consPiece]

theorem splitOn_eq_singleton {sep : Char} {cs : List Char} (absent : sep ∉ cs) :
    splitOn sep cs = [cs] := by
  induction cs with
  | nil => rfl
  | cons c cs ih =>
    rw [List.mem_cons, not_or] at absent
    simp [splitOn, Ne.symm absent.1, ih absent.2, consPiece]

/-- What holds no separator goes into the first piece. -/
theorem splitOn_append {sep : Char} {as bs p : List Char} {ps : List (List Char)}
    (absent : sep ∉ as)
    (split : splitOn sep bs = p :: ps) : splitOn sep (as ++ bs) = (as ++ p) :: ps := by
  induction as with
  | nil => exact split
  | cons a as ih =>
    rw [List.mem_cons, not_or] at absent
    rw [List.cons_append, splitOn, if_neg (Ne.symm absent.1), ih absent.2]
    rfl

theorem notMem_of_mem_splitOn {sep : Char} {cs p : List Char} (mem : p ∈ splitOn sep cs) :
    sep ∉ p := by
  induction cs generalizing p with
  | nil => simp_all [splitOn]
  | cons c cs ih =>
    by_cases h : c = sep
    · rw [splitOn, if_pos h] at mem
      rcases List.mem_cons.1 mem with rfl | mem
      · exact List.not_mem_nil
      · exact ih mem
    · rw [splitOn, if_neg h] at mem
      cases e : splitOn sep cs with
      | nil => exact absurd e (splitOn_ne_nil sep cs)
      | cons q qs =>
        rw [e, consPiece] at mem
        rcases List.mem_cons.1 mem with rfl | mem
        · rw [List.mem_cons, not_or]
          exact ⟨Ne.symm h, ih (by simp [e])⟩
        · exact ih (by simp [e, mem])

/-- Nothing is in a piece that is not in the text. -/
theorem mem_of_mem_of_mem_splitOn {sep c : Char} {cs p : List Char} (isPiece : p ∈ splitOn sep cs)
    (mem : c ∈ p) : c ∈ cs := by
  induction cs generalizing p with
  | nil =>
    rw [List.mem_singleton.1 isPiece] at mem
    cases mem
  | cons d cs ih =>
    rw [splitOn] at isPiece
    split at isPiece
    · rcases List.mem_cons.1 isPiece with rfl | later
      · cases mem
      · exact List.mem_cons_of_mem d (ih later mem)
    · cases e : splitOn sep cs with
      | nil => exact absurd e (splitOn_ne_nil sep cs)
      | cons q qs =>
        rw [e, consPiece] at isPiece
        rcases List.mem_cons.1 isPiece with rfl | later
        · rcases List.mem_cons.1 mem with rfl | inside
          · exact List.mem_cons_self
          · exact List.mem_cons_of_mem d (ih (by simp [e]) inside)
        · exact List.mem_cons_of_mem d (ih (by simp [e, later]) mem)

/-- Each piece of the end of a text is the end of a piece of the text. -/
theorem exists_suffix_of_mem_splitOn {sep : Char} (front : List Char) {cs p : List Char}
    (mem : p ∈ splitOn sep cs) : ∃ whole ∈ splitOn sep (front ++ cs), p <:+ whole := by
  induction front with
  | nil => exact ⟨p, mem, List.suffix_refl p⟩
  | cons c front ih =>
    obtain ⟨whole, isPiece, ends⟩ := ih
    rw [List.cons_append, splitOn]
    split
    · exact ⟨whole, List.mem_cons_of_mem _ isPiece, ends⟩
    · cases e : splitOn sep (front ++ cs) with
      | nil => exact absurd e (splitOn_ne_nil sep _)
      | cons q qs =>
        rw [e] at isPiece
        rcases List.mem_cons.1 isPiece with rfl | later
        · exact ⟨c :: whole, List.mem_cons_self, ends.trans (List.suffix_cons c whole)⟩
        · exact ⟨whole, List.mem_cons_of_mem _ later, ends⟩

theorem splitOn_joinWith {sep : Char} {ps : List (List Char)} (some : ps ≠ [])
    (absent : ∀ p ∈ ps, sep ∉ p) : splitOn sep (joinWith sep ps) = ps := by
  induction ps with
  | nil => exact absurd rfl some
  | cons p ps ih =>
    have first := splitOn_eq_singleton (absent p (by simp))
    cases ps with
    | nil => exact first
    | cons q ps =>
      rw [joinWith, splitOn_append_cons, first,
        ih (by simp) fun r mem => absent r (List.mem_cons_of_mem _ mem)]
      rfl

theorem mem_of_mem_joinWith {sep c : Char} {ps : List (List Char)} (mem : c ∈ joinWith sep ps) :
    c = sep ∨ ∃ p ∈ ps, c ∈ p := by
  induction ps with
  | nil => cases mem
  | cons p ps ih =>
    cases ps with
    | nil => exact .inr ⟨p, List.mem_singleton_self p, mem⟩
    | cons q ps =>
      rw [joinWith, List.mem_append, List.mem_cons] at mem
      rcases mem with first | rfl | later
      · exact .inr ⟨p, List.mem_cons_self, first⟩
      · exact .inl rfl
      · rcases ih later with between | ⟨r, isPiece, inside⟩
        · exact .inl between
        · exact .inr ⟨r, List.mem_cons_of_mem p isPiece, inside⟩

theorem joinWith_concat (sep : Char) {ps : List (List Char)} (some : ps ≠ []) (p : List Char) :
    joinWith sep (ps ++ [p]) = joinWith sep ps ++ sep :: p := by
  induction ps with
  | nil => exact absurd rfl some
  | cons q ps ih =>
    cases ps with
    | nil => rfl
    | cons r ps =>
      have later := ih (by simp)
      rw [List.cons_append] at later
      rw [List.cons_append, List.cons_append, joinWith, later, joinWith, List.append_assoc]
      rfl

/-- A separator behind the joined text is one behind each piece. -/
theorem joinWith_append_sep (sep : Char) {ps : List (List Char)} (some : ps ≠ []) :
    joinWith sep ps ++ [sep] = ps.flatMap (· ++ [sep]) := by
  induction ps with
  | nil => exact absurd rfl some
  | cons p ps ih =>
    cases ps with
    | nil => exact (List.append_nil _).symm
    | cons q ps =>
      have later := ih (List.cons_ne_nil q ps)
      rw [List.flatMap_cons, ← later, joinWith, List.append_assoc, List.append_assoc]
      rfl

/-- The first piece is the front of the joined text. -/
theorem prefix_joinWith (sep : Char) (p : List Char) (ps : List (List Char)) :
    p <+: joinWith sep (p :: ps) := by
  cases ps with
  | nil => exact List.prefix_refl p
  | cons q ps => exact List.prefix_append p _

/-- The last piece is the end of the joined text. -/
theorem exists_joinWith_concat (sep : Char) (ps : List (List Char)) (p : List Char) :
    ∃ before, joinWith sep (ps ++ [p]) = before ++ p := by
  by_cases none : ps = []
  · exact ⟨[], by rw [none]; rfl⟩
  · exact ⟨joinWith sep ps ++ [sep], by rw [joinWith_concat sep none, List.append_cons]⟩

theorem intercalate_eq_joinWith (sep : Char) (ps : List (List Char)) :
    [sep].intercalate ps = joinWith sep ps := by
  induction ps with
  | nil => rfl
  | cons p ps ih =>
    cases ps with
    | nil => exact List.intercalate_singleton
    | cons q ps => rw [List.intercalate_cons_cons, ih, joinWith, List.append_assoc]; rfl

/-- The pieces of a text between the separators. -/
def pieces (sep : Char) (s : String) : List String := (splitOn sep s.toList).map String.ofList

end CommandSuite.Text
