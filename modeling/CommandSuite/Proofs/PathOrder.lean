import CommandSuite.SuiteFiles

/-!
# The order of relative paths

Relative paths are compared step by step, steps up before names. The order is strict and total, so
that inserting paths one after the other gives a list in which each stands once, in its place.
`SuiteFiles.expand_cases` is the inversion of an expansion: the suite files are, in this order,
what the patterns stand for, or the patterns fail as one of them does.
-/

namespace CommandSuite

namespace Step

theorem not_before_up (a : Step) : ¬ a.before up := by
  cases a <;> exact Bool.false_ne_true

theorem name_before_name {s t : String} : (name s).before (name t) ↔ s < t :=
  decide_eq_true_iff

theorem before_irrefl (a : Step) : ¬ a.before a := by
  cases a with
  | up => exact not_before_up up
  | name s => exact fun before => String.lt_irrefl s (name_before_name.1 before)

theorem before_trans {a b c : Step} (first : a.before b) (second : b.before c) : a.before c := by
  cases c with
  | up => exact (not_before_up b second).elim
  | name u =>
    cases a with
    | up => rfl
    | name s =>
      cases b with
      | up => exact (not_before_up _ first).elim
      | name t =>
        rw [name_before_name] at first second ⊢
        exact String.lt_trans first second

theorem before_of_not_before {a b : Step} (other : a ≠ b) (not : ¬ b.before a) : a.before b := by
  cases b with
  | up =>
    cases a with
    | up => exact (other rfl).elim
    | name s => exact (not rfl).elim
  | name t =>
    cases a with
    | up => rfl
    | name s =>
      rw [name_before_name, String.not_lt] at not
      rw [name_before_name]
      exact Classical.byContradiction fun notLess =>
        other (congrArg name (String.le_antisymm not (String.not_lt.1 notLess)))

end Step

namespace RelativePath

theorem stepsBefore_cons {a b : Step} {as bs : List Step} :
    stepsBefore (a :: as) (b :: bs) ↔ a.before b ∨ a = b ∧ stepsBefore as bs := by
  simp [stepsBefore]

theorem stepsBefore_irrefl (as : List Step) : stepsBefore as as = false := by
  induction as with
  | nil => rfl
  | cons a as ih => simp [stepsBefore, Step.before_irrefl, ih]

theorem stepsBefore_trans {as bs cs : List Step} (first : stepsBefore as bs)
    (second : stepsBefore bs cs) : stepsBefore as cs := by
  induction as generalizing bs cs with
  | nil => cases bs <;> cases cs <;> simp [stepsBefore] at first second ⊢
  | cons a as ih =>
    rcases bs with _ | ⟨b, bs⟩
    · simp [stepsBefore] at first
    rcases cs with _ | ⟨c, cs⟩
    · simp [stepsBefore] at second
    rw [stepsBefore_cons] at first second ⊢
    rcases first with less | ⟨rfl, first⟩
    · rcases second with less' | ⟨rfl, _⟩
      · exact .inl (Step.before_trans less less')
      · exact .inl less
    · rcases second with less' | ⟨rfl, second⟩
      · exact .inl less'
      · exact .inr ⟨rfl, ih first second⟩

theorem stepsBefore_of_not_stepsBefore {as bs : List Step} (other : as ≠ bs)
    (not : ¬ stepsBefore bs as) : stepsBefore as bs := by
  induction as generalizing bs with
  | nil =>
    cases bs with
    | nil => exact (other rfl).elim
    | cons b bs => rfl
  | cons a as ih =>
    rcases bs with _ | ⟨b, bs⟩
    · exact (not rfl).elim
    rw [stepsBefore_cons, not_or] at not
    rw [stepsBefore_cons]
    by_cases same : a = b
    · subst same
      have tails : as ≠ bs := fun h => other (by rw [h])
      exact .inr ⟨rfl, ih tails fun h => not.2 ⟨rfl, h⟩⟩
    · exact .inl (Step.before_of_not_before same not.1)

theorem before_irrefl (p : RelativePath) : p.before p = false := stepsBefore_irrefl p.steps

theorem before_trans {p q r : RelativePath} (first : p.before q) (second : q.before r) :
    p.before r :=
  stepsBefore_trans first second

theorem before_of_not_before {p q : RelativePath} (other : p ≠ q) (not : ¬ q.before p) :
    p.before q := by
  refine stepsBefore_of_not_stepsBefore (fun h => other ?_) not
  cases p
  cases q
  exact congrArg _ h

end RelativePath

theorem mem_insertPath {p q : RelativePath} {paths : List RelativePath} :
    q ∈ insertPath p paths ↔ q = p ∨ q ∈ paths := by
  induction paths with
  | nil => simp [insertPath]
  | cons r paths ih =>
    rw [insertPath]
    split
    · simp
    · split
      case isTrue same => simp [same]
      case isFalse => rw [List.mem_cons, ih, List.mem_cons, or_left_comm]

theorem pairwise_insertPath {p : RelativePath} {paths : List RelativePath}
    (sorted : paths.Pairwise fun q r => q.before r) :
    (insertPath p paths).Pairwise fun q r => q.before r := by
  induction paths with
  | nil => simp [insertPath]
  | cons q paths ih =>
    obtain ⟨above, tail⟩ := List.pairwise_cons.1 sorted
    rw [insertPath]
    split
    case isTrue less =>
      refine List.pairwise_cons.2 ⟨fun r mem => ?_, sorted⟩
      rcases List.mem_cons.1 mem with rfl | mem
      · exact less
      · exact RelativePath.before_trans less (above r mem)
    case isFalse notLess =>
      split
      case isTrue => exact sorted
      case isFalse other =>
        refine List.pairwise_cons.2 ⟨fun r mem => ?_, ih tail⟩
        rcases mem_insertPath.1 mem with rfl | mem
        · exact RelativePath.before_of_not_before (Ne.symm other) notLess
        · exact above r mem

theorem mem_foldr_insertPath {p : RelativePath} {all : List RelativePath} :
    p ∈ all.foldr insertPath [] ↔ p ∈ all := by
  induction all with
  | nil => rfl
  | cons q all ih => rw [List.foldr_cons, mem_insertPath, ih, List.mem_cons]

theorem pairwise_foldr_insertPath (all : List RelativePath) :
    (all.foldr insertPath []).Pairwise fun p q => p.before q := by
  induction all with
  | nil => exact .nil
  | cons p all ih => exact pairwise_insertPath ih

/-! ## Steps that can fail -/

theorem exists_of_bind_eq_ok {ε α β : Type} {x : Except ε α} {f : α → Except ε β} {b : β}
    (ok : (x >>= f) = .ok b) : ∃ a, x = .ok a ∧ f a = .ok b := by
  cases x with
  | error e => cases ok
  | ok a => exact ⟨a, rfl, ok⟩

/-- All of a list succeed, or the list fails as one of its elements does. -/
theorem mapM_cases {ε α β : Type} (f : α → Except ε β) (as : List α) :
    (∃ bs, as.mapM f = .ok bs ∧ (∀ a ∈ as, ∃ b, f a = .ok b) ∧
      ∀ b, b ∈ bs ↔ ∃ a ∈ as, f a = .ok b) ∨
    ∃ a ∈ as, ∃ e, f a = .error e ∧ as.mapM f = .error e := by
  induction as with
  | nil => exact .inl ⟨[], rfl, by simp, by simp⟩
  | cons a as ih =>
    rw [List.mapM_cons]
    cases head : f a with
    | error e => exact .inr ⟨a, List.mem_cons_self, e, head, rfl⟩
    | ok b =>
      rcases ih with ⟨bs, tail, all, mem⟩ | ⟨a', among, e, fails, tail⟩
      · refine .inl ⟨b :: bs, by rw [tail]; rfl, ?_, fun b' => ?_⟩
        · rw [List.forall_mem_cons]
          exact ⟨⟨b, head⟩, all⟩
        · simp only [List.mem_cons, mem, or_and_right, exists_or, exists_eq_left, head,
            Except.ok.injEq, @eq_comm _ b b']
      · exact .inr ⟨a', List.mem_cons_of_mem a among, e, fails, by rw [tail]; rfl⟩

namespace SuiteFiles

variable {tree : FileTree} {currentDir : String} {patterns : List String}
  {paths : List RelativePath}

/-- What several patterns stand for is what each of them stands for, in the order of the paths; or
they fail as one of them does. -/
theorem expand_cases (tree : FileTree) (currentDir : String) (patterns : List String) :
    (∃ paths, expand tree currentDir patterns = .ok paths ∧
      paths.Pairwise (fun p q => p.before q) ∧
      (∀ pattern ∈ patterns, ∃ own, ofPattern tree currentDir pattern = .ok own) ∧
      ∀ path, path ∈ paths ↔
        ∃ pattern ∈ patterns, ∃ own, ofPattern tree currentDir pattern = .ok own ∧ path ∈ own) ∨
    ∃ pattern ∈ patterns, ∃ e, ofPattern tree currentDir pattern = .error e ∧
      expand tree currentDir patterns = .error e := by
  unfold expand
  rcases mapM_cases (ofPattern tree currentDir) patterns with
    ⟨lists, all, each, mem⟩ | ⟨pattern, among, e, fails, all⟩
  · refine .inl ⟨lists.flatten.foldr insertPath [], by rw [all]; rfl,
      pairwise_foldr_insertPath lists.flatten, each, fun path => ?_⟩
    rw [mem_foldr_insertPath, List.mem_flatten]
    constructor
    · rintro ⟨own, isList, isPath⟩
      obtain ⟨pattern, among, stands⟩ := (mem own).1 isList
      exact ⟨pattern, among, own, stands, isPath⟩
    · rintro ⟨pattern, among, own, stands, isPath⟩
      exact ⟨own, (mem own).2 ⟨pattern, among, stands⟩, isPath⟩
  · exact .inr ⟨pattern, among, e, fails, by rw [all]; rfl⟩

/-- Suite files stand in the order of their paths, each of them once. -/
theorem pairwise_expand (expanded : expand tree currentDir patterns = .ok paths) :
    paths.Pairwise fun p q => p.before q := by
  rcases expand_cases tree currentDir patterns with
    ⟨_, expanded', ordered, _⟩ | ⟨_, _, e, _, fails⟩
  · rw [Except.ok.inj (expanded.symm.trans expanded')]
    exact ordered
  · cases expanded.symm.trans fails

theorem mem_expand_iff (expanded : expand tree currentDir patterns = .ok paths)
    {path : RelativePath} :
    path ∈ paths ↔
      ∃ pattern ∈ patterns, ∃ own, ofPattern tree currentDir pattern = .ok own ∧ path ∈ own := by
  rcases expand_cases tree currentDir patterns with
    ⟨_, expanded', _, _, mem⟩ | ⟨_, _, e, _, fails⟩
  · rw [Except.ok.inj (expanded.symm.trans expanded')]
    exact mem path
  · cases expanded.symm.trans fails

/-- What one of the patterns stands for is among the suite files. -/
theorem mem_of_expand (expanded : expand tree currentDir patterns = .ok paths) {pattern : String}
    (mem : pattern ∈ patterns) {list : List RelativePath}
    (stands : ofPattern tree currentDir pattern = .ok list) {p : RelativePath}
    (among : p ∈ list) :
    p ∈ paths :=
  (mem_expand_iff expanded).2 ⟨pattern, mem, list, stands, among⟩

end SuiteFiles

end CommandSuite
