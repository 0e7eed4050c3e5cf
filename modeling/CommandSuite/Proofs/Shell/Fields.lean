import CommandSuite.Shell.Evaluation
import CommandSuite.Proofs.Text.Utf8

/-!
# Fields of a value

What a variable stands for outside quotes is cut into fields. With the separators that a shell
starts with these are the words of the value between spaces, tabs and line feeds, whatever bytes
the value is made of.

* `blankWords` says what the words of a text are, `blankWords_intercalate_eq_iff` which words come
  back when they are joined by spaces.
* `map_fieldText_fields_ofValue`: fields are words.
* `run_expandFields_command`: the fields of a variable with quoted words behind it, as a shell
  that looks for no files expands them.
-/

namespace CommandSuite.Shell

/-! ## Words between blanks -/

/-- The words of a text between blanks, the first of which may have begun before. -/
def wordsFrom : Option (List Char) → List Char → List (List Char)
  | begun, [] => begun.toList
  | begun, c :: cs =>
    if isSeparatorSpace c then begun.toList ++ wordsFrom none cs
    else wordsFrom (some (begun.getD [] ++ [c])) cs

/-- The words of a text between spaces, tabs and line feeds. -/
def blankWords (s : String) : List String := (wordsFrom none s.toList).map String.ofList

/-- A text that is a word between blanks. -/
def IsWord (cs : List Char) : Prop := cs ≠ [] ∧ ∀ c ∈ cs, isSeparatorSpace c = false

theorem isSeparatorSpace_iff {c : Char} : isSeparatorSpace c ↔ c = ' ' ∨ c = '\t' ∨ c = '\n' := by
  simp [isSeparatorSpace, defaultSeparators]

theorem wordsFrom_append_cons {sep : Char} (blank : isSeparatorSpace sep)
    (begun : Option (List Char))
    (as bs : List Char) :
    wordsFrom begun (as ++ sep :: bs) = wordsFrom begun as ++ wordsFrom none bs := by
  induction as generalizing begun with
  | nil => simp only [List.nil_append, wordsFrom, if_pos blank]
  | cons a as ih =>
    rw [List.cons_append, wordsFrom, wordsFrom, ih, ih]
    split
    · rw [List.append_assoc]
    · rfl

/-- Characters that are not blank go on with the word that has begun. -/
theorem wordsFrom_append {front : List Char} (whole : ∀ c ∈ front, isSeparatorSpace c = false)
    (begun rest : List Char) :
    wordsFrom (some begun) (front ++ rest) = wordsFrom (some (begun ++ front)) rest := by
  induction front generalizing begun with
  | nil => rw [List.nil_append, List.append_nil]
  | cons c front ih =>
    rw [List.forall_mem_cons] at whole
    rw [List.cons_append, wordsFrom, if_neg (by simp [whole.1]), ih whole.2, Option.getD_some,
      List.append_assoc]
    rfl

theorem wordsFrom_append_of_isWord {front : List Char} (word : IsWord front)
    (begun : Option (List Char)) (rest : List Char) :
    wordsFrom begun (front ++ rest) = wordsFrom (some (begun.getD [] ++ front)) rest := by
  obtain ⟨some, whole⟩ := word
  cases front with
  | nil => exact absurd rfl some
  | cons c front =>
    rw [List.forall_mem_cons] at whole
    rw [List.cons_append, wordsFrom, if_neg (by simp [whole.1]), wordsFrom_append whole.2,
      List.append_assoc]
    rfl

/-- A word has no blank to be cut at. -/
theorem wordsFrom_of_isWord {cs : List Char} (word : IsWord cs) : wordsFrom none cs = [cs] := by
  have whole := wordsFrom_append_of_isWord word none []
  rw [List.append_nil] at whole
  exact whole

theorem isWord_of_mem_wordsFrom {begun : Option (List Char)} {cs w : List Char}
    (word : ∀ b ∈ begun, IsWord b) (mem : w ∈ wordsFrom begun cs) : IsWord w := by
  induction cs generalizing begun with
  | nil => exact word w (Option.mem_toList.1 mem)
  | cons c cs ih =>
    rw [wordsFrom] at mem
    split at mem
    case isTrue =>
      rcases List.mem_append.1 mem with before | later
      · exact word w (Option.mem_toList.1 before)
      · exact ih (by simp) later
    case isFalse notBlank =>
      refine ih (fun b isBegun => ?_) mem
      obtain rfl := Option.mem_some.1 isBegun
      refine ⟨by simp, fun d inside => ?_⟩
      rcases List.mem_append.1 inside with before | new
      · cases begun with
        | none => cases before
        | some b => exact (word b rfl).2 d before
      · rw [List.mem_singleton.1 new]
        exact Bool.eq_false_iff.2 notBlank

/-- The words of texts joined by spaces are those of each text. -/
theorem wordsFrom_joinWith (ws : List (List Char)) :
    wordsFrom none (Text.joinWith ' ' ws) = ws.flatMap (wordsFrom none) := by
  induction ws with
  | nil => rfl
  | cons w ws ih =>
    cases ws with
    | nil => exact (List.append_nil _).symm
    | cons v ws => rw [Text.joinWith, wordsFrom_append_cons (by decide), ih]; rfl

/-- Texts are the words of themselves exactly if each of them is a word. -/
theorem flatMap_wordsFrom_eq_iff (ws : List (List Char)) :
    ws.flatMap (wordsFrom none) = ws ↔ ∀ w ∈ ws, IsWord w := by
  constructor
  · intro same w mem
    rw [← same] at mem
    obtain ⟨text, _, inside⟩ := List.mem_flatMap.1 mem
    exact isWord_of_mem_wordsFrom (by simp) inside
  · intro words
    induction ws with
    | nil => rfl
    | cons w ws ih =>
      rw [List.forall_mem_cons] at words
      rw [List.flatMap_cons, ih words.2, wordsFrom_of_isWord words.1]
      rfl

theorem blankWords_intercalate (ws : List String) :
    blankWords (" ".intercalate ws) = ws.flatMap blankWords := by
  have written : (" ".intercalate ws).toList = Text.joinWith ' ' (ws.map String.toList) := by
    rw [String.toList_intercalate, ← Text.intercalate_eq_joinWith]
    rfl
  rw [blankWords, written, wordsFrom_joinWith, List.flatMap_map, List.map_flatMap]
  rfl

/-- Texts joined by spaces come back as the words of the whole exactly if each of them is a
word. -/
theorem blankWords_intercalate_eq_iff (ws : List String) :
    blankWords (" ".intercalate ws) = ws ↔ ∀ w ∈ ws, IsWord w.toList := by
  have own := flatMap_wordsFrom_eq_iff (ws.map String.toList)
  have texts : (ws.flatMap blankWords).map String.toList =
      (ws.map String.toList).flatMap (wordsFrom none) := by
    have back : String.toList ∘ String.ofList = id := funext fun _ => String.toList_ofList
    rw [List.map_flatMap, List.flatMap_map]
    congr 1
    funext w
    rw [blankWords, List.map_map, back, List.map_id]
  rw [List.forall_mem_map] at own
  rw [blankWords_intercalate, ← own, ← texts]
  exact (List.map_inj_right fun _ _ => String.toList_inj.1).symm

/-! ## Fields of a value -/

/-- With the separators of a new shell the fields of a value are its words. That blanks were
passed before does not matter, since no separator but blanks is there to tell. -/
theorem map_fieldsFrom_value (state : FieldState) (cs : List Char) :
    (fieldsFrom defaultSeparators.toList state
        (cs.map fun c => Glyph.char c false true)).map (List.map Prod.fst) =
      wordsFrom (state.field.map fun field => field.reverse.map Prod.fst) cs := by
  obtain ⟨field, after⟩ := state
  induction cs generalizing field after with
  | nil => cases field <;> rfl
  | cons c cs ih =>
    rw [List.map_cons, fieldsFrom, wordsFrom]
    by_cases blank : isSeparatorSpace c
    · have parts : (true && defaultSeparators.toList.contains c) = true := blank
      rw [if_pos blank, if_pos parts, if_pos blank]
      cases field with
      | none => exact ih none after
      | some field => exact congrArg _ (ih none true)
    · have kept : ¬ (true && defaultSeparators.toList.contains c) = true := blank
      rw [if_neg kept, if_neg blank, ih]
      congr 1
      cases field <;> simp

theorem map_fieldText_fields_ofValue (s : String) :
    (fields defaultSeparators (Glyph.ofValue false s)).map fieldText = blankWords s := by
  have words : (fieldsFrom defaultSeparators.toList {}
      (s.toList.map fun c => Glyph.char c false true)).map (List.map Prod.fst) =
        wordsFrom none s.toList := map_fieldsFrom_value {} s.toList
  rw [blankWords, ← words, List.map_map]
  rfl

/-! ## Bytes of a value -/

/-- The bytes of a character, as characters. -/
def byteChars (c : Char) : List Char := (String.utf8EncodeChar c).map fun byte =>
  Char.ofNat byte.toNat

theorem toList_byteText (s : String) : (Text.byteText s).toList = s.toList.flatMap byteChars := by
  rw [Text.byteText, Text.ofBytes, String.toList_ofList, Text.Utf8.encode_eq_flatMap,
    List.map_flatMap]
  rfl

theorem byteChars_of_le {c : Char} (narrow : c.val.toNat ≤ 0x7f) : byteChars c = [c] := by
  have same : Char.ofNat (UInt8.ofNat c.val.toNat).toNat = c := by
    rw [UInt8.toNat_ofNat', Nat.mod_eq_of_lt (by omega)]
    exact Char.ofNat_toNat c
  rw [byteChars, String.utf8EncodeChar, if_pos narrow, List.map_singleton, same]

theorem byteChars_of_isSeparatorSpace {c : Char} (blank : isSeparatorSpace c) :
    byteChars c = [c] := by
  rcases isSeparatorSpace_iff.1 blank with rfl | rfl | rfl <;> exact byteChars_of_le (by decide)

/-- A character of several bytes has none of those of ASCII. -/
theorem le_of_mem_utf8EncodeChar {c : Char} (wide : 0x7f < c.val.toNat) {byte : UInt8}
    (mem : byte ∈ String.utf8EncodeChar c) : 0x80 ≤ byte.toNat := by
  have bound (n : Nat) (low : 0x80 ≤ n) (high : n < 0x100) : 0x80 ≤ (UInt8.ofNat n).toNat := by
    rw [UInt8.toNat_ofNat', Nat.mod_eq_of_lt high]
    exact low
  rw [String.utf8EncodeChar, if_neg (Nat.not_le.2 wide)] at mem
  split at mem
  · simp only [List.mem_cons, List.not_mem_nil, or_false] at mem
    rcases mem with rfl | rfl <;> exact bound _ (by omega) (by omega)
  · split at mem <;> simp only [List.mem_cons, List.not_mem_nil, or_false] at mem
    · rcases mem with rfl | rfl | rfl <;> exact bound _ (by omega) (by omega)
    · rcases mem with rfl | rfl | rfl | rfl <;> exact bound _ (by omega) (by omega)

/-- No byte of a character looks like a blank, unless the character is one. -/
theorem isWord_byteChars {c : Char} (notBlank : isSeparatorSpace c = false) :
    IsWord (byteChars c) := by
  refine ⟨by simp [byteChars], fun d mem => ?_⟩
  by_cases narrow : c.val.toNat ≤ 0x7f
  · rw [byteChars_of_le narrow, List.mem_singleton] at mem
    exact mem ▸ notBlank
  · obtain ⟨byte, isByte, rfl⟩ := List.mem_map.1 mem
    have wide := le_of_mem_utf8EncodeChar (Nat.not_le.1 narrow) isByte
    have upper : ∀ n < 256, 0x80 ≤ n → isSeparatorSpace (Char.ofNat n) = false := by
      decide +kernel
    exact upper byte.toNat byte.toNat_lt wide

/-- The words of bytes are the bytes of the words. -/
theorem wordsFrom_flatMap_byteChars (begun : Option (List Char)) (cs : List Char) :
    wordsFrom (begun.map (List.flatMap byteChars)) (cs.flatMap byteChars) =
      (wordsFrom begun cs).map (List.flatMap byteChars) := by
  induction cs generalizing begun with
  | nil => cases begun <;> rfl
  | cons c cs ih =>
    rw [List.flatMap_cons, wordsFrom]
    by_cases blank : isSeparatorSpace c
    · have parted := wordsFrom_append_cons blank (begun.map (List.flatMap byteChars)) []
        (cs.flatMap byteChars)
      rw [byteChars_of_isSeparatorSpace blank, if_pos blank, List.map_append, ← ih none]
      rw [List.nil_append] at parted
      refine parted.trans ?_
      cases begun <;> rfl
    · have grown : some ((begun.map (List.flatMap byteChars)).getD [] ++ byteChars c) =
          (some (begun.getD [] ++ [c])).map (List.flatMap byteChars) := by
        cases begun <;> simp
      rw [wordsFrom_append_of_isWord (isWord_byteChars (Bool.eq_false_iff.2 blank)), grown, ih,
        if_neg blank]

theorem blankWords_byteText (s : String) :
    blankWords (Text.byteText s) = (blankWords s).map Text.byteText := by
  have bytes := wordsFrom_flatMap_byteChars none s.toList
  rw [Option.map_none] at bytes
  rw [blankWords, toList_byteText, bytes, blankWords, List.map_map, List.map_map]
  refine List.map_congr_left fun w _ => String.toList_inj.1 ?_
  simp only [Function.comp_apply, toList_byteText, String.toList_ofList]

/-! ## What a shell makes of a variable -/

/-- The word that stands for a variable outside quotes. -/
def variableWord (name : String) : Word := [.parameter false name .keep []]

/-- The word of a text in quotes. -/
def quotedWord (s : String) : Word := [.quoted s]

variable {state : State} {value : String}

/-- A step that has done what comes first goes on from there. -/
theorem run_bind_of_ok {α β : Type} {step : Eval α} {f : α → Eval β} {a : α} {next : State}
    (done : step.run state = (.ok a, next)) : (step >>= f).run state = (f a).run next := by
  have done' : StateT.run step.run state = pure (.ok a, next) := done
  rw [ExceptT.run_bind]
  refine (StateT.run_bind ..).trans ?_
  rw [done']
  rfl

theorem run_session_bind {α : Type} (f : Session → Eval α) (state : State) :
    (session >>= f).run state = (f state.session).run state := rfl

theorem run_expandPart_variable {name : String}
    (set : parameterValues state.session name = some [value]) (fuel : Nat) :
    (expandPart (fuel + 1) (.parameter false name .keep [])).run state =
      (.ok (Glyph.ofValue false value), state) := by
  rw [expandPart, if_neg (by decide), run_session_bind]
  simp only [set]
  rw [parameterGlyphs, Bool.and_false, if_neg Bool.false_ne_true]
  rfl

theorem run_expandParts_variable {name : String}
    (set : parameterValues state.session name = some [value]) (fuel : Nat) :
    (expandParts (fuel + 2) (variableWord name)).run state =
      (.ok (Glyph.ofValue false value), state) := by
  simp only [variableWord, expandParts]
  rw [run_bind_of_ok (run_expandPart_variable set fuel)]
  show (Except.ok (Glyph.ofValue false value ++ []), state) = _
  rw [List.append_nil]

theorem run_expandParts_quoted (state : State) (s : String) (fuel : Nat) :
    (expandParts (fuel + 2) (quotedWord s)).run state = (.ok (Glyph.ofValue true s), state) := by
  simp only [quotedWord, expandParts, expandPart]
  show (Except.ok (Glyph.ofValue true s ++ []), state) = _
  rw [List.append_nil]

/-- A shell that looks for no files takes the fields of a word as they are. -/
theorem run_expandFields_cons {w : Word} {rest : List Word} {glyphs : List Glyph}
    {names : List String} {fuel : Nat} (noFiles : state.session.has 'f')
    (expanded : (expandParts fuel (expandTilde state.session w)).run state = (.ok glyphs, state))
    (later : (expandFields fuel rest).run state = (.ok names, state)) :
    (expandFields (fuel + 1) (w :: rest)).run state =
      (.ok ((fields state.session.separators glyphs).map fieldText ++ names), state) := by
  have looked : (act state.session.process.tree).run state =
      (.ok { root := state.machine.root, workingDir := state.session.process.directory },
        state) :=
    rfl
  simp only [expandFields]
  rw [run_session_bind, run_bind_of_ok expanded, run_session_bind, run_bind_of_ok looked,
    if_pos noFiles, run_bind_of_ok later]
  rfl

/-- What is quoted goes on with the field that has begun. -/
theorem fieldsFrom_quoted (separators cs : List Char) (field : List FieldChar) (after : Bool) :
    fieldsFrom separators { field := some field, afterSpace := after }
        (cs.map fun c => Glyph.char c true false) =
      [field.reverse ++ cs.map fun c => (c, true)] := by
  induction cs generalizing field after with
  | nil => exact congrArg (fun field => [field]) (List.append_nil _).symm
  | cons c cs ih =>
    rw [List.map_cons, fieldsFrom, Bool.false_and, if_neg Bool.false_ne_true, ih,
      Option.getD_some, List.reverse_cons, List.append_assoc]
    rfl

theorem map_fieldText_fields_ofValue_true (separators s : String) :
    (fields separators (Glyph.ofValue true s)).map fieldText = [s] := by
  have texts (cs : List Char) : (cs.map fun c => (c, true)).map Prod.fst = cs := by
    rw [List.map_map]
    exact List.map_id cs
  rw [Glyph.ofValue, if_pos rfl]
  cases chars : s.toList with
  | nil =>
    obtain rfl : s = "" := String.toList_inj.1 chars
    rfl
  | cons c cs =>
    have some : ¬ s.isEmpty := by
      rw [String.isEmpty_iff]
      rintro rfl
      cases chars
    rw [if_neg some, List.map_cons, fields, fieldsFrom, Bool.false_and, if_neg Bool.false_ne_true,
      fieldsFrom_quoted, List.map_singleton, fieldText, List.map_append, texts]
    exact congrArg (fun s => [s]) (String.toList_inj.1 (String.toList_ofList.trans chars.symm))

/-- **The fields of a variable.** A shell that looks for no files and has the separators that it
starts with takes a variable outside quotes for the words of its value, and quoted words behind it
for themselves. -/
theorem run_expandFields_command {name : String}
    (set : parameterValues state.session name = some [value])
    (separators : state.session.separators = defaultSeparators) (noFiles : state.session.has 'f')
    (arguments : List String) (fuel : Nat) :
    (expandFields (arguments.length + fuel + 4)
        (variableWord name :: arguments.map quotedWord)).run state =
      (.ok (blankWords value ++ arguments), state) := by
  have later : (expandFields (arguments.length + fuel + 3) (arguments.map quotedWord)).run state =
      (.ok arguments, state) := by
    induction arguments with
    | nil =>
      simp only [List.map_nil, expandFields]
      rfl
    | cons argument arguments ih =>
      have expanded := run_expandParts_quoted state argument (arguments.length + fuel + 1)
      have taken := run_expandFields_cons (w := quotedWord argument) noFiles expanded ih
      rw [map_fieldText_fields_ofValue_true] at taken
      rw [List.length_cons, Nat.add_right_comm _ 1 fuel]
      exact taken
  have expanded := run_expandParts_variable set (arguments.length + fuel + 1)
  have taken := run_expandFields_cons (w := variableWord name) noFiles expanded later
  rw [separators, map_fieldText_fields_ofValue] at taken
  exact taken

end CommandSuite.Shell
