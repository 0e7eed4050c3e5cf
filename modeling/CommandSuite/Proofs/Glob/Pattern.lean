import CommandSuite.Proofs.Path.Parts

/-!
# Texts as patterns

A pattern is read part by part, and a text without wildcards is a pattern for itself. What a text
is as a pattern matters where the path of something that was found is made part of a new pattern.

* `ofText_eq` reads a pattern by its parts, `exists_part_of_mem_components` says where a component
  comes from.
* `ofText_literal_join`: a literal path in front of a pattern is followed as it is written.
* `ComponentPattern.climbs` tells the components that may lead to a parent.
-/

namespace CommandSuite.Glob

/-! ## Literal texts -/

/-- A text without the characters that make wildcards. -/
def IsLiteral (s : String) : Prop := ∀ c ∈ s.toList, c ∉ ['*', '?', '[']

instance : DecidablePred IsLiteral := fun s => List.decidableBAll _ s.toList

theorem isLiteral_append {s t : String} : IsLiteral (s ++ t) ↔ IsLiteral s ∧ IsLiteral t := by
  rw [IsLiteral, String.toList_append, List.forall_mem_append]
  rfl

theorem isLiteral_join {dir path : String} (dirLiteral : IsLiteral dir)
    (pathLiteral : IsLiteral path) : IsLiteral (Path.join dir path) := by
  rw [Path.join]
  split
  · exact pathLiteral
  · split
    · exact isLiteral_append.2 ⟨dirLiteral, pathLiteral⟩
    · exact isLiteral_append.2 ⟨isLiteral_append.2 ⟨dirLiteral, by decide⟩, pathLiteral⟩

/-- Literal characters are tokens of their own. -/
theorem readTokens_append {front : List Char} (literal : ∀ c ∈ front, c ∉ ['*', '?', '['])
    (fuel : Nat) (before : Option Char) (pos : Nat) (rest : List Char) :
    readTokens (front.length + fuel) before pos (front ++ rest) =
      (readTokens fuel (front.getLast?.or before) (pos + front.length) rest).map
        (front.map Token.char ++ ·) := by
  induction front generalizing before pos with
  | nil =>
    show readTokens (0 + fuel) before pos rest = (readTokens fuel before pos rest).map _
    rw [Nat.zero_add]
    cases readTokens fuel before pos rest <;> rfl
  | cons c front ih =>
    rw [List.forall_mem_cons] at literal
    obtain ⟨star, question, bracket⟩ : c ≠ '*' ∧ c ≠ '?' ∧ c ≠ '[' := by
      simpa using literal.1
    have last : (c :: front).getLast?.or before = front.getLast?.or (some c) := by
      rw [List.getLast?_cons]
      cases front.getLast? <;> rfl
    have places : pos + (c :: front).length = pos + 1 + front.length := by
      rw [List.length_cons, Nat.add_comm front.length, Nat.add_assoc]
    rw [List.length_cons, Nat.add_right_comm, List.cons_append, readTokens, if_neg question,
      if_neg star, if_neg bracket, ih literal.2, ← List.length_cons (a := c), last, places]
    cases readTokens fuel (front.getLast?.or (some c)) (pos + 1 + front.length) rest <;> rfl

theorem tokens_of_isLiteral {s : String} (literal : IsLiteral s) :
    tokens s.toList = .ok (s.toList.map Token.char) := by
  have read := readTokens_append literal 0 none 0 []
  rw [List.append_nil, Nat.add_zero] at read
  rw [tokens, read, readTokens]
  exact congrArg Except.ok (List.append_nil _)

theorem literalChars?_map_char (cs : List Char) :
    ComponentPattern.literalChars? (cs.map Token.char) = some cs := by
  induction cs with
  | nil => rfl
  | cons c cs ih => rw [List.map_cons, ComponentPattern.literalChars?, ih]; rfl

theorem ofTokens_map_char (s : String) :
    ComponentPattern.ofTokens (s.toList.map Token.char) = .literal s := by
  have noRecursive : (s.toList.map Token.char).contains .recursive = false := by
    rw [List.contains_eq_mem, decide_eq_false_iff_not]
    intro mem
    obtain ⟨c, _, same⟩ := List.mem_map.1 mem
    cases same
  rw [ComponentPattern.ofTokens, noRecursive, if_neg Bool.false_ne_true, literalChars?_map_char]
  exact congrArg _ String.ofList_toList

/-! ## Patterns by their parts -/

theorem ofText_eq (s : String) : PathPattern.ofText s = (do
    let _ ← tokens s.toList
    let lists ← (Path.parts s).mapM fun part => tokens part.toList
    return {
      absolute := Path.isAbsolute s
      directoriesOnly := s.toList.getLast? = some '/'
      components := mergeRecursive
        (if (Path.unrooted s).isEmpty then [.literal ""]
        else lists.map ComponentPattern.ofTokens) }) := by
  have absolute : decide (s.toList.head? = some '/') = Path.isAbsolute s := by
    rw [Path.isAbsolute, Bool.eq_iff_iff, decide_eq_true_iff, beq_iff_eq]
  have lists : (Path.parts s).mapM (fun part => tokens part.toList) =
      (dropLastEmpty (Text.splitOn '/' (Path.unrooted s))).mapM tokens := by
    rw [Path.parts, List.mapM_map]
    congr 1
    funext part
    exact congrArg tokens String.toList_ofList
  have inner : Path.unrooted s =
      if s.toList.head? = some '/' then s.toList.tail else s.toList := by
    simp only [Path.unrooted, ← absolute, decide_eq_true_eq]
  rw [lists, ← absolute, inner]
  rfl

/-- Runs of recursive components made one bring no other components, and lose none but those. -/
theorem mem_of_mem_mergeRecursive {p : ComponentPattern} {ps : List ComponentPattern}
    (mem : p ∈ mergeRecursive ps) : p ∈ ps := by
  induction ps with
  | nil => cases mem
  | cons q ps ih =>
    rw [mergeRecursive] at mem
    split at mem
    · exact List.mem_cons_of_mem q (ih mem)
    · rcases List.mem_cons.1 mem with rfl | mem
      · exact List.mem_cons_self
      · exact List.mem_cons_of_mem q (ih mem)

theorem mergeRecursive_ne_nil {ps : List ComponentPattern} (filled : ps ≠ []) :
    mergeRecursive ps ≠ [] := by
  induction ps with
  | nil => exact absurd rfl filled
  | cons p ps ih =>
    rw [mergeRecursive]
    split
    case isTrue both =>
      refine ih ?_
      rintro rfl
      simp at both
    case isFalse => exact List.cons_ne_nil p _

theorem mergeRecursive_literals (parts : List String) (ps : List ComponentPattern) :
    mergeRecursive (parts.map .literal ++ ps) = parts.map .literal ++ mergeRecursive ps := by
  induction parts with
  | nil => rfl
  | cons part parts ih =>
    rw [List.map_cons, List.cons_append, mergeRecursive, if_neg (by simp), ih]
    rfl

/-- A pattern that can be read has a component for each part, or for the lack of one. -/
theorem ofText_cases {s : String} {pattern : PathPattern}
    (read : PathPattern.ofText s = .ok pattern) :
    pattern.absolute = Path.isAbsolute s ∧ pattern.components ≠ [] ∧
      ∀ p ∈ pattern.components, p = .literal "" ∨
        ∃ part ∈ Path.parts s, ∃ ts, tokens part.toList = .ok ts ∧ p = .ofTokens ts := by
  rw [ofText_eq] at read
  obtain ⟨_, _, read⟩ := exists_of_bind_eq_ok read
  obtain ⟨lists, each, read⟩ := exists_of_bind_eq_ok read
  obtain rfl := Except.ok.inj read
  rcases mapM_cases (fun part : String => tokens part.toList) (Path.parts s) with
    ⟨lists', each', all, members⟩ | ⟨_, _, _, _, fails⟩
  · obtain rfl := Except.ok.inj (each.symm.trans each')
    refine ⟨rfl, mergeRecursive_ne_nil ?_, fun p mem => ?_⟩
    · split
      · exact List.cons_ne_nil _ _
      case isFalse filled =>
        obtain ⟨part, isPart⟩ := List.exists_mem_of_ne_nil _
          (Path.parts_ne_nil fun none => filled (List.isEmpty_iff.2 none))
        obtain ⟨ts, reads⟩ := all part isPart
        exact List.ne_nil_of_mem (List.mem_map_of_mem ((members ts).2 ⟨part, isPart, reads⟩))
    · have among := mem_of_mem_mergeRecursive mem
      split at among
      · exact .inl (List.mem_singleton.1 among)
      · obtain ⟨ts, isList, rfl⟩ := List.mem_map.1 among
        obtain ⟨part, isPart, reads⟩ := (members ts).1 isList
        exact .inr ⟨part, isPart, ts, reads, rfl⟩
  · cases each.symm.trans fails

theorem isLiteral_of_mem_parts {dir part : String} (literal : IsLiteral dir)
    (isPart : part ∈ Path.parts dir) : IsLiteral part := fun c mem =>
  literal c (Path.mem_of_mem_of_mem_parts isPart mem)

theorem mapM_tokens_of_isLiteral {parts : List String}
    (literal : ∀ part ∈ parts, IsLiteral part) :
    parts.mapM (fun part => tokens part.toList) =
      .ok (parts.map fun part => part.toList.map Token.char) := by
  induction parts with
  | nil => rfl
  | cons part parts ih =>
    rw [List.forall_mem_cons] at literal
    rw [List.mapM_cons, tokens_of_isLiteral literal.1, ih literal.2]
    rfl

/-- A literal path in front of a pattern is followed part by part, whatever the pattern is. -/
theorem ofText_literal_join {dir rest : String} (literal : IsLiteral dir)
    (relative : Path.isAbsolute rest = false) (filled : rest ≠ "")
    (whole : ∀ before, before = none ∨ before = some '/' → ∀ pos,
      ∃ ts, readTokens rest.toList.length before pos rest.toList = .ok ts)
    {lists : List (List Token)}
    (each : (Path.parts rest).mapM (fun part => tokens part.toList) = .ok lists) :
    PathPattern.ofText (Path.join dir rest) = .ok {
      absolute := Path.isAbsolute dir
      directoriesOnly := rest.toList.getLast? = some '/'
      components :=
        (Path.parts dir).map .literal ++
          mergeRecursive (lists.map ComponentPattern.ofTokens) } := by
  obtain ⟨front, written, ends, chars⟩ := Path.exists_toList_join dir relative
  have filledList : rest.toList ≠ [] := by rwa [Ne, String.toList_eq_nil_iff]
  -- the pattern as a whole: the literal text in front of it ends where a part begins
  obtain ⟨ts, reads⟩ : ∃ ts, tokens (Path.join dir rest).toList = .ok ts := by
    have frontLiteral : ∀ c ∈ front, c ∉ ['*', '?', '['] := by
      intro c mem
      rcases chars c mem with rfl | inDir
      · decide
      · exact literal c inDir
    have before : front.getLast?.or none = none ∨ front.getLast?.or none = some '/' := by
      rcases ends with rfl | slash
      · exact .inl rfl
      · exact .inr (by rw [slash]; rfl)
    obtain ⟨ts, reads⟩ := whole _ before (0 + front.length)
    rw [tokens, written, List.length_append, readTokens_append frontLiteral, reads]
    exact ⟨_, rfl⟩
  have parts : (Path.parts (Path.join dir rest)).mapM (fun part => tokens part.toList) =
      .ok ((Path.parts dir).map (fun part => part.toList.map Token.char) ++ lists) := by
    rw [Path.parts_join dir relative, List.mapM_append,
      mapM_tokens_of_isLiteral fun part => isLiteral_of_mem_parts literal, each]
    rfl
  have inner : ¬ (Path.unrooted (Path.join dir rest)).isEmpty := by
    intro none
    have own : Path.unrooted rest ≠ [] := by
      rwa [Path.unrooted, relative, if_neg Bool.false_ne_true]
    have joined := Path.parts_join dir relative
    rw [Path.parts, List.isEmpty_iff.1 none] at joined
    exact Path.parts_ne_nil own (List.append_eq_nil_iff.1 joined.symm).2
  have last : (Path.join dir rest).toList.getLast? = rest.toList.getLast? := by
    rw [written, List.getLast?_append, List.getLast?_eq_some_getLast filledList, Option.some_or]
  have literals : ((Path.parts dir).map fun part => part.toList.map Token.char).map
      ComponentPattern.ofTokens = (Path.parts dir).map .literal := by
    rw [List.map_map]
    exact List.map_congr_left fun part _ => ofTokens_map_char part
  rw [ofText_eq, reads, parts]
  simp only [bind, Except.bind, pure, Except.pure, if_neg inner, List.map_append, literals,
    mergeRecursive_literals, last, Path.isAbsolute_join_relative dir relative]

/-! ## Names that end in a text -/

theorem someEnd_iff {test : List Char → Bool} {cs : List Char} :
    someEnd test cs ↔ ∃ back, back <:+ cs ∧ test back := by
  induction cs with
  | nil => simp [someEnd]
  | cons c cs ih => simp [someEnd, ih, List.suffix_cons_iff, or_and_right, exists_or]

theorem acceptsName_map_char {chars cs : List Char} :
    acceptsName (chars.map Token.char) cs ↔ cs = chars := by
  induction chars generalizing cs with
  | nil => simp [acceptsName]
  | cons c chars ih =>
    cases cs with
    | nil => simp [acceptsName]
    | cons d cs =>
      rw [List.map_cons, acceptsName, Bool.and_eq_true, ih, List.cons.injEq]
      · simp [Token.accepts, eq_comm]
      · nofun
      · nofun

/-- A sequence of any characters in front of literal ones means the names that end in these. -/
theorem accepts_anySequence {chars : List Char} {name : String} :
    (ComponentPattern.wild (.anySequence :: chars.map .char)).accepts name ↔
      chars <:+ name.toList := by
  rw [ComponentPattern.accepts, acceptsName, someEnd_iff]
  simp only [acceptsName_map_char, exists_eq_right]

/-! ## The way up -/

/-- Whether the component may lead to the parent of a directory. -/
def ComponentPattern.climbs (p : ComponentPattern) : Bool :=
  p = .literal ".." || p.startsWithDot && p.accepts ".."

/-- Whether a text may lead to the parent of a directory, as a part of a pattern. -/
def climbs (part : String) : Bool :=
  match tokens part.toList with
  | .ok ts => (ComponentPattern.ofTokens ts).climbs
  | .error _ => false

end CommandSuite.Glob
