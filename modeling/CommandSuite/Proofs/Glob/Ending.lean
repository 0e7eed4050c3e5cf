import CommandSuite.Proofs.Glob.Pattern
import Mathlib.Data.List.TakeDrop

/-!
# Parts of a pattern that end in a text

A text that ends in characters which are no wildcards still ends in them when it is read as a
pattern, whatever becomes of what stands before. So a part that ends in a text means only names
that end in it.

* `exists_of_readTokens_cons`: a token is read from some characters, the last of which ends in no
  text unless the token stands for just that character.
* `ComponentPattern.endsIn_ofTokens`: a part that ends in a text is a component that does, and
  `ComponentPattern.endsIn_accepts`: such a component means only names that do.
-/

namespace CommandSuite.Glob

variable {ending cs : List Char} {ts : List Token}

/-! ## Tokens of an ending -/

/-- An ending without the character stands behind it. -/
theorem suffix_of_suffix_append_cons {α : Type} {ending front rest : List α} {c : α}
    (other : c ∉ ending) (ends : ending <:+ front ++ c :: rest) : ending <:+ rest := by
  rcases List.suffix_or_suffix_of_suffix ends (List.suffix_append front (c :: rest)) with
    behind | inside
  · rcases List.suffix_cons_iff.1 behind with same | behind
    · exact absurd (same ▸ List.mem_cons_self) other
    · exact behind
  · exact absurd (inside.subset List.mem_cons_self) other

theorem exists_of_readClass {inner rest : List Char}
    (closed : readClass cs = some (inner, rest)) :
    ∃ front, cs = front ++ ']' :: rest := by
  cases cs with
  | nil => cases closed
  | cons c cs =>
    rw [readClass, List.span_eq_takeWhile_dropWhile] at closed
    have whole : cs.takeWhile (· ≠ ']') ++ cs.dropWhile (· ≠ ']') = cs :=
      List.takeWhile_append_dropWhile
    split at closed
    case h_1 front bracket back split =>
      obtain ⟨before, behind⟩ := Prod.mk.inj split
      obtain rfl : back = rest := (Prod.mk.inj (Option.some.inj closed)).2
      have isBracket : bracket = ']' := by
        have stops := List.head?_dropWhile_not (· ≠ ']') cs
        rw [behind] at stops
        simpa using stops
      exact ⟨c :: front, by rw [← whole, before, behind, isBracket]; rfl⟩
    case h_2 => cases closed

/-- A token is read from some characters, and the others from those behind them. The last of the
characters is the one that the token stands for, or one that belongs to a wildcard. -/
theorem exists_of_readTokens_cons {fuel pos : Nat} {before : Option Char} {c : Char}
    (reads : readTokens (fuel + 1) before pos (c :: cs) = .ok ts) :
    ∃ t ts' front last rest before' pos', ts = t :: ts' ∧ c :: cs = front ++ last :: rest ∧
      readTokens fuel before' pos' rest = .ok ts' ∧
      (front = [] ∧ t = .char last ∨ last ∈ ['?', '*', '/', ']']) ∧
      (t = .recursive → last = '/' ∨ rest = []) := by
  rw [readTokens] at reads
  by_cases question : c = '?'
  · rw [if_pos question] at reads
    obtain ⟨ts', later, same⟩ := exists_of_bind_eq_ok reads
    obtain rfl := Except.ok.inj same
    exact ⟨_, ts', [], c, cs, _, _, rfl, rfl, later, .inr (by simp [question]), by simp⟩
  rw [if_neg question] at reads
  by_cases star : c = '*'
  · rw [if_pos star] at reads
    split at reads
    case h_1 =>
      obtain ⟨ts', later, same⟩ := exists_of_bind_eq_ok reads
      obtain rfl := Except.ok.inj same
      exact ⟨_, ts', [], c, cs, _, _, rfl, rfl, later, .inr (by simp [star]), by simp⟩
    case h_2 one =>
      obtain ⟨behind, rfl⟩ : ∃ behind, cs = '*' :: behind := by
        cases cs with
        | nil => cases one
        | cons d cs =>
          by_cases second : d = '*'
          · exact ⟨cs, by rw [second]⟩
          · rw [List.takeWhile_cons_of_neg (by simpa using second)] at one
            cases one
      split at reads
      case isFalse => cases reads
      case isTrue =>
        split at reads
        case h_1 none =>
          obtain rfl := Except.ok.inj reads
          obtain rfl : behind = [] := none
          exact ⟨_, [], [c], '*', [], none, 0, rfl, rfl, by cases fuel <;> rfl, .inr (by simp),
            fun _ => .inr rfl⟩
        case h_2 d rest more =>
          obtain rfl : behind = d :: rest := more
          split at reads
          case isFalse => cases reads
          case isTrue slash =>
            obtain ⟨ts', later, same⟩ := exists_of_bind_eq_ok reads
            obtain rfl := Except.ok.inj same
            exact ⟨_, ts', [c, '*'], d, rest, _, _, rfl, rfl, later, .inr (by simp [slash]),
              fun _ => .inl slash⟩
    case h_3 => cases reads
  rw [if_neg star] at reads
  by_cases bracket : c = '['
  · rw [if_pos bracket] at reads
    dsimp only at reads
    split at reads
    case h_1 inner rest closed =>
      obtain ⟨ts', later, same⟩ := exists_of_bind_eq_ok reads
      obtain rfl := Except.ok.inj same
      obtain ⟨front, split⟩ : ∃ front, cs = front ++ ']' :: rest := by
        obtain ⟨front, written⟩ := exists_of_readClass closed
        split at written
        case isTrue negated =>
          obtain ⟨others, rfl⟩ := List.head?_eq_some_iff.1 negated
          exact ⟨'!' :: front, congrArg ('!' :: ·) written⟩
        case isFalse => exact ⟨front, written⟩
      exact ⟨_, ts', c :: front, ']', rest, _, _, rfl, by rw [split]; rfl, later,
        .inr (by simp), by simp⟩
    case h_2 => cases reads
  · rw [if_neg bracket] at reads
    obtain ⟨ts', later, same⟩ := exists_of_bind_eq_ok reads
    obtain rfl := Except.ok.inj same
    exact ⟨_, ts', [], c, cs, _, _, rfl, rfl, later, .inl ⟨rfl, rfl⟩, by simp⟩

theorem readTokens_of_literal (literal : ∀ c ∈ cs, c ∉ ['*', '?', '[']) {fuel : Nat}
    (enough : cs.length ≤ fuel) (before : Option Char) (pos : Nat) :
    readTokens fuel before pos cs = .ok (cs.map Token.char) := by
  obtain ⟨more, rfl⟩ := Nat.exists_eq_add_of_le enough
  have read := readTokens_append literal more before pos []
  rw [List.append_nil] at read
  rw [read]
  cases more <;> exact congrArg Except.ok (List.append_nil _)

/-- A text that ends a component: it is not empty, and none of its characters belongs to a
wildcard. -/
def IsPlainEnding (ending : List Char) : Prop :=
  ending ≠ [] ∧ ∀ c ∈ ending, c ∉ ['*', '?', '[', ']', '/']

/-- The tokens of a text without slashes end in those of its ending, and none of them stands for
directories. -/
theorem readTokens_of_suffix (plain : IsPlainEnding ending) {fuel pos : Nat}
    {before : Option Char}
    (enough : cs.length ≤ fuel) (whole : '/' ∉ cs) (ends : ending <:+ cs)
    (reads : readTokens fuel before pos cs = .ok ts) :
    ending.map Token.char <:+ ts ∧ .recursive ∉ ts := by
  induction fuel generalizing cs before pos ts with
  | zero =>
    rw [List.eq_nil_of_length_eq_zero (Nat.le_zero.1 enough), List.suffix_nil] at ends
    exact absurd ends plain.1
  | succ fuel ih =>
    by_cases all : ending = cs
    · subst all
      have literal : ∀ c ∈ ending, c ∉ ['*', '?', '['] := fun c mem special =>
        plain.2 c mem (List.mem_append_left [']', '/'] special)
      rw [readTokens_of_literal literal enough] at reads
      obtain rfl := Except.ok.inj reads
      exact ⟨List.suffix_refl _, by simp⟩
    cases cs with
    | nil => exact absurd (List.suffix_nil.1 ends) plain.1
    | cons c cs =>
      -- the ending lies behind what the first token is read from
      obtain ⟨t, ts, front, last, rest, before', pos', rfl, split, later, means, directories⟩ :=
        exists_of_readTokens_cons reads
      have behind : ending <:+ rest := by
        rw [split] at ends all
        rcases means with ⟨rfl, _⟩ | special
        · exact (List.suffix_cons_iff.1 ends).resolve_left all
        · refine suffix_of_suffix_append_cons (fun mem => plain.2 last mem ?_) ends
          simp only [List.mem_cons] at special ⊢
          tauto
      have shorter : rest.length ≤ fuel := by
        have lengths := congrArg List.length split
        rw [List.length_append, List.length_cons, List.length_cons] at lengths
        rw [List.length_cons] at enough
        omega
      have inside : ∀ d ∈ last :: rest, d ∈ c :: cs := by
        rw [split]
        exact fun d mem => List.mem_append_right front mem
      obtain ⟨tokens, noDirectories⟩ :=
        ih shorter (fun mem => whole (inside _ (List.mem_cons_of_mem _ mem))) behind later
      refine ⟨tokens.trans (List.suffix_cons t ts), ?_⟩
      rintro (_ | ⟨_, mem⟩)
      · rcases directories rfl with slash | none
        · exact whole (inside _ (slash ▸ List.mem_cons_self))
        · rw [none, List.suffix_nil] at behind
          exact plain.1 behind
      · exact noDirectories mem

/-! ## Components that end in a text -/

theorem eq_map_char_of_literalChars? (literal : ComponentPattern.literalChars? ts = some cs) :
    ts = cs.map Token.char := by
  induction ts generalizing cs with
  | nil =>
    obtain rfl := Option.some.inj literal
    rfl
  | cons t ts ih =>
    cases t with
    | char c =>
      obtain ⟨others, rest, rfl⟩ := Option.map_eq_some_iff.1 literal
      rw [ih rest, List.map_cons]
    | _ => cases literal

/-- What tokens mean ends in what those behind mean. -/
theorem exists_suffix_of_acceptsName {front back : List Token}
    (accepted : acceptsName (front ++ back) cs) :
    ∃ rest, rest <:+ cs ∧ acceptsName back rest := by
  induction front generalizing cs with
  | nil => exact ⟨cs, List.suffix_refl cs, accepted⟩
  | cons t front ih =>
    cases t with
    | anySequence | recursive =>
      obtain ⟨middle, inside, later⟩ := someEnd_iff.1 accepted
      obtain ⟨rest, ends, last⟩ := ih later
      exact ⟨rest, ends.trans inside, last⟩
    | _ =>
      cases cs with
      | nil => cases accepted
      | cons c cs =>
        rw [List.cons_append, acceptsName, Bool.and_eq_true] at accepted
        · obtain ⟨rest, ends, last⟩ := ih accepted.2
          exact ⟨rest, ends.trans (List.suffix_cons c cs), last⟩
        all_goals simp

namespace ComponentPattern

/-- Whether the component ends in the characters of a text. -/
def endsIn (ending : List Char) : ComponentPattern → Bool
  | literal s => decide (ending <:+ s.toList)
  | wild ts => decide (ending.map Token.char <:+ ts)
  | recursive => false

/-- A component that ends in a text means only names that do. -/
theorem endsIn_accepts {p : ComponentPattern} {name : String} (ends : p.endsIn ending)
    (accepted : p.accepts name) : ending <:+ name.toList := by
  cases p with
  | literal s =>
    obtain rfl : s = name := of_decide_eq_true accepted
    exact of_decide_eq_true ends
  | wild ts =>
    obtain ⟨front, rfl⟩ : ending.map Token.char <:+ ts := of_decide_eq_true ends
    obtain ⟨rest, behind, last⟩ := exists_suffix_of_acceptsName accepted
    rwa [acceptsName_map_char.1 last] at behind
  | recursive => cases ends

/-- A part that ends in a text is a component that does. -/
theorem endsIn_ofTokens {part : String} (plain : IsPlainEnding ending) (whole : '/' ∉ part.toList)
    (ends : ending <:+ part.toList) (reads : tokens part.toList = .ok ts) :
    (ofTokens ts).endsIn ending := by
  obtain ⟨suffix, noDirectories⟩ := readTokens_of_suffix plain (Nat.le_refl _) whole ends reads
  rw [ofTokens, List.contains_eq_mem, decide_eq_false noDirectories, if_neg Bool.false_ne_true]
  cases literal : literalChars? ts with
  | none => exact decide_eq_true suffix
  | some cs =>
    obtain rfl := eq_map_char_of_literalChars? literal
    obtain ⟨front, split⟩ := suffix
    obtain ⟨before, behind, rfl, _, same⟩ := List.map_eq_append_iff.1 split.symm
    refine decide_eq_true ?_
    rw [String.toList_ofList, (List.map_inj_right fun _ _ => Token.char.inj).1 same]
    exact List.suffix_append before ending

end ComponentPattern

end CommandSuite.Glob
