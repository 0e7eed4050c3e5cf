import CommandSuite.Outcome

/-!
# Verdicts

The verdict on a case comes from one search: whether the expected text stands in the output,
character for character. `Stands` says this without the search, and `containsChars_iff_isInfix`
that the search misses nothing and finds nothing that is not there.

* `judge_cases` is the inversion of a judgement: a command that could not be run fails whatever is
  expected; any other output is looked through.
* `judge_failure_and_diagnostic` says of every judgement when it passes, what a failure holds, and
  what its diagnostic tells.
-/

namespace CommandSuite

/-! ## Texts in texts -/

/-- One text is a part of the other, as it is. -/
def Stands (part whole : String) : Prop := ∃ before after, whole = before ++ part ++ after

/-- The search looks at every start in turn, so it is complete also where matches overlap. -/
theorem containsChars_iff_isInfix {part cs : List Char} : containsChars part cs ↔
    part <:+: cs := by
  induction cs with
  | nil => rw [containsChars, List.isEmpty_iff, List.infix_nil]
  | cons c cs ih =>
    rw [containsChars, Bool.or_eq_true, List.isPrefixOf_iff_prefix, ih, List.infix_cons_iff]

theorem stands_iff_isInfix {part whole : String} :
    Stands part whole ↔ part.toList <:+: whole.toList := by
  constructor
  · rintro ⟨before, after, rfl⟩
    exact ⟨before.toList, after.toList, by simp only [String.toList_append]⟩
  · rintro ⟨before, after, split⟩
    refine ⟨String.ofList before, String.ofList after, ?_⟩
    rw [← String.toList_inj]
    simp only [String.toList_append, String.toList_ofList]
    exact split.symm

instance (part whole : String) : Decidable (Stands part whole) :=
  decidable_of_iff (containsChars part.toList whole.toList)
    (containsChars_iff_isInfix.trans stands_iff_isInfix.symm)

theorem Stands.trans {part middle whole : String} (inner : Stands part middle)
    (outer : Stands middle whole) : Stands part whole := by
  rw [stands_iff_isInfix] at inner outer ⊢
  exact inner.trans outer

theorem stands_between (before whole after : String) : Stands whole (before ++ whole ++ after) :=
  ⟨before, after, rfl⟩

theorem mismatch?_of_stands {output expected : String} (stands : Stands expected output) :
    mismatch? output expected = none := by
  have found : containsChars expected.toList output.toList :=
    containsChars_iff_isInfix.2 (stands_iff_isInfix.1 stands)
  rw [mismatch?, if_pos found]

theorem mismatch?_of_not_stands {output expected : String} (missing : ¬ Stands expected output) :
    mismatch? output expected = some (.mismatch expected output) := by
  have notFound : ¬ containsChars expected.toList output.toList := fun found =>
    missing (stands_iff_isInfix.2 (containsChars_iff_isInfix.1 found))
  rw [mismatch?, if_neg notFound]

/-! ## Judgements -/

variable {c : TestCase} {execution : Execution}

/-- A judgement has three ways: the command could not be run, or its output has the expected text,
or it has not. -/
theorem judge_cases (c : TestCase) (execution : Execution) :
    (∃ error, execution.error = some error ∧
      (judge c execution).failure = some (.notRun error)) ∨
    (execution.error = none ∧ Stands c.expected execution.output ∧
      (judge c execution).failure = none) ∨
    (execution.error = none ∧ ¬ Stands c.expected execution.output ∧
      (judge c execution).failure = some (.mismatch c.expected execution.output)) := by
  unfold judge
  cases failed : execution.error with
  | some error => exact .inl ⟨error, rfl, rfl⟩
  | none =>
    right
    by_cases stands : Stands c.expected execution.output
    · exact .inl ⟨rfl, stands, mismatch?_of_stands stands⟩
    · exact .inr ⟨rfl, stands, mismatch?_of_not_stands stands⟩

theorem Outcome.passed_iff {outcome : Outcome} : outcome.passed ↔ outcome.failure = none :=
  Option.isNone_iff_eq_none

theorem judge_passed_iff :
    (judge c execution).passed ↔ execution.error = none ∧ Stands c.expected execution.output := by
  rw [Outcome.passed_iff]
  rcases judge_cases c execution with
    ⟨error, failed, failure⟩ | ⟨ran, stands, failure⟩ | ⟨ran, missing, failure⟩
  · simp [failed, failure]
  · simp [ran, stands, failure]
  · simp [ran, missing, failure]

theorem judge_notRun_iff {error : RunError} :
    (judge c execution).failure = some (.notRun error) ↔ execution.error = some error := by
  rcases judge_cases c execution with
    ⟨error', failed, failure⟩ | ⟨ran, _, failure⟩ | ⟨ran, _, failure⟩
  · simp [failed, failure]
  · simp [ran, failure]
  · simp [ran, failure]

theorem judge_mismatch_iff {expected got : String} :
    (judge c execution).failure = some (.mismatch expected got) ↔
      execution.error = none ∧ ¬ Stands c.expected execution.output ∧
        expected = c.expected ∧ got = execution.output := by
  rcases judge_cases c execution with
    ⟨error, failed, failure⟩ | ⟨ran, stands, failure⟩ | ⟨ran, missing, failure⟩
  · simp [failed, failure]
  · simp [stands, failure]
  · simp [ran, missing, failure, eq_comm]

/-- The exit code is told, and decides nothing. -/
theorem judge_exitCode (c : TestCase) (execution : Execution) (exitCode : Option Int) :
    judge c { execution with exitCode } = { judge c execution with exitCode } := rfl

/-! ## Diagnostics -/

/-- What a diagnostic says in front of the output. -/
def mismatchHeading : String := "expected output not found. Got: "

/-- The output that the diagnostic of a mismatch tells. -/
def outputOf (diagnostic : String) : String :=
  String.ofList (diagnostic.toList.drop mismatchHeading.length)

theorem outputOf_append (got : String) : outputOf (mismatchHeading ++ got) = got := by
  have heading : mismatchHeading.toList.length = mismatchHeading.length := String.length_toList
  rw [outputOf, String.toList_append, ← heading, List.drop_left, String.ofList_toList]

/-- **A case passes exactly if its command ran and the expected text stands in the output.**
Neither the exit code nor what is around the text matters, and a part of the text is found where
the whole is. A failure holds the error of the run, or both texts as they are; its diagnostic
tells the whole output. -/
theorem judge_failure_and_diagnostic (c : TestCase) (execution : Execution) :
    let outcome := judge c execution
    (outcome.passed ↔ execution.error = none ∧
      ∃ before after, execution.output = before ++ c.expected ++ after) ∧
    (∀ exitCode, (judge c { execution with exitCode }).failure = outcome.failure) ∧
    (outcome.passed → ∀ before after,
      (judge c { execution with output := before ++ execution.output ++ after }).passed) ∧
    (outcome.passed → ∀ before part after, c.expected = before ++ part ++ after →
      (judge { c with expected := part } execution).passed) ∧
    (∀ error, outcome.failure = some (.notRun error) ↔ execution.error = some error) ∧
    (∀ expected got, outcome.failure = some (.mismatch expected got) ↔
      execution.error = none ∧ ¬ outcome.passed ∧
        expected = c.expected ∧ got = execution.output) ∧
    (outcome.diagnostic = none ↔ outcome.passed) ∧
    (∀ expected got, outcome.failure = some (.mismatch expected got) →
      outcome.diagnostic = some ("expected output not found. Got: " ++ execution.output) ∧
      outcome.diagnostic.map outputOf = some execution.output) := by
  intro outcome
  refine ⟨judge_passed_iff, fun exitCode => ?_, fun passed before after => ?_,
    fun passed before part after split => ?_, fun error => judge_notRun_iff,
    fun expected got => ?_, ?_, fun expected got failure => ?_⟩
  · rw [judge_exitCode]
  · obtain ⟨ran, stands⟩ := judge_passed_iff.1 passed
    exact judge_passed_iff.2 ⟨ran, stands.trans (stands_between before execution.output after)⟩
  · obtain ⟨ran, stands⟩ := judge_passed_iff.1 passed
    have inner : Stands part c.expected := ⟨before, after, split⟩
    exact judge_passed_iff.2 ⟨ran, inner.trans stands⟩
  · rw [judge_mismatch_iff]
    constructor
    · rintro ⟨ran, missing, same⟩
      exact ⟨ran, fun passed => missing (judge_passed_iff.1 passed).2, same⟩
    · rintro ⟨ran, notPassed, same⟩
      exact ⟨ran, fun stands => notPassed (judge_passed_iff.2 ⟨ran, stands⟩), same⟩
  · rw [outcome.passed_eq_isNone_diagnostic, Option.isNone_iff_eq_none]
  · obtain ⟨_, _, rfl, rfl⟩ := judge_mismatch_iff.1 failure
    have told : outcome.diagnostic = some (mismatchHeading ++ execution.output) := by
      rw [Outcome.diagnostic, failure]
      rfl
    refine ⟨told, ?_⟩
    rw [told, Option.map_some, outputOf_append]

end CommandSuite
