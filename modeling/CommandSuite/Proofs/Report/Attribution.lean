import CommandSuite.Program
import CommandSuite.Proofs.RunOrder

/-!
# Test points and their diagnostics blocks

A reader of the protocol takes a diagnostics block for that of the test point ahead of it. A test
point that failed is two prints, its line and its block. They stand together if the cases run one
after the other; at the same time, other cases can print in between, and the block stands below
another test point.

`blocksFollow_iff`: the reports of runs at the same time are the interleavings of the reports of
the cases, and in all of these blocks stand below their own test points exactly if no case fails
or there is no other case.
-/

namespace CommandSuite.Report.Tap

/-! ## The prints of the cases -/

/-- The prints of each case. -/
def reports (width : Nat) (outcomes : List Outcome) : List (List String) :=
  outcomes.mapIdx fun index outcome => (point (index + 1) width outcome).map ReportStyle.line

theorem ownOf_reports (width : Nat) (outcomes : List Outcome) (index : Nat) :
    ownOf (reports width outcomes) index =
      (outcomes[index]?).elim [] fun outcome =>
        (point (index + 1) width outcome).map ReportStyle.line := by
  rw [ownOf, reports, List.getElem?_mapIdx]
  cases outcomes[index]? <;> rfl

/-- A case has more than one print only if it failed. -/
theorem length_point_le_one_iff (number width : Nat) (outcome : Outcome) :
    (point number width outcome).length ≤ 1 ↔ outcome.passed := by
  rw [Outcome.passed_eq_isNone_diagnostic]
  cases verdict : outcome.diagnostic with
  | none => simp [point_of_passed verdict]
  | some message => simp [point_of_failed verdict]

/-! ## Blocks below their test points -/

/-- Among prints with the indices of their cases, the diagnostics block of each case stands
directly below the line of its own test point. -/
def BlocksFollow (width : Nat) (outcomes : List Outcome) (told : List (Nat × String)) : Prop :=
  ∀ index outcome message, outcomes[index]? = some outcome → outcome.diagnostic = some message →
    [(index, ReportStyle.line (testLine false (index + 1) width (caseDescription outcome.case))),
      (index, ReportStyle.line (diagnosticsBlock (diagnostics outcome.case.commandLine message)))]
      <:+: told

variable {width : Nat} {outcomes : List Outcome} {told : List (Nat × String)}

theorem blocksFollow_iff_undivided (each : Interleaves (ownOf (reports width outcomes)) told) :
    BlocksFollow width outcomes told ↔ Undivided (ownOf (reports width outcomes)) told := by
  constructor
  · intro follow index
    -- A single print cannot be divided, and two prints are those of a failure.
    by_cases short : (ownOf (reports width outcomes) index).length ≤ 1
    · exact each.infix_of_length_le_one short
    · rw [ownOf_reports] at short ⊢
      cases found : outcomes[index]? with
      | none => exact List.nil_infix
      | some outcome =>
        rw [found, Option.elim_some, List.length_map] at short
        cases verdict : outcome.diagnostic with
        | none => rw [point_of_passed verdict] at short; exact absurd (Nat.le_refl 1) short
        | some message =>
          rw [Option.elim_some, point_of_failed verdict]
          exact follow index outcome message found verdict
  · intro together index outcome message found failed
    have mine := together index
    rw [ownOf_reports, found, Option.elim_some, point_of_failed failed] at mine
    exact mine

theorem length_ownOf_reports_le_one_iff (width : Nat) (outcomes : List Outcome) :
    (∀ index, (ownOf (reports width outcomes) index).length ≤ 1) ↔
      ∀ outcome ∈ outcomes, outcome.passed := by
  simp only [ownOf_reports]
  constructor
  · intro short outcome mem
    obtain ⟨index, found⟩ := List.mem_iff_getElem?.1 mem
    have mine := short index
    rw [found, Option.elim_some, List.length_map] at mine
    exact (length_point_le_one_iff _ _ _).1 mine
  · intro passed index
    cases found : outcomes[index]? with
    | none => exact Nat.zero_le 1
    | some outcome =>
      rw [Option.elim_some, List.length_map]
      exact (length_point_le_one_iff _ _ _).2 (passed outcome (List.mem_of_getElem? found))

/-- Every case prints something. -/
theorem ownOf_reports_eq_nil_iff (width : Nat) (outcomes : List Outcome) (index : Nat) :
    ownOf (reports width outcomes) index = [] ↔ outcomes.length ≤ index := by
  rw [ownOf_reports, ← List.getElem?_eq_none_iff]
  cases outcomes[index]? with
  | none => simp
  | some outcome =>
    cases verdict : outcome.diagnostic <;> simp [point_of_passed, point_of_failed, verdict]

theorem exists_alone_iff (width : Nat) (outcomes : List Outcome) :
    (∃ who, ∀ index, index ≠ who → ownOf (reports width outcomes) index = []) ↔
      outcomes.length ≤ 1 := by
  simp only [ownOf_reports_eq_nil_iff]
  constructor
  · rintro ⟨who, alone⟩
    by_cases first : who = 0
    · exact alone 1 (by omega)
    · exact Nat.le_succ_of_le (alone 0 (by omega))
  · exact fun few => ⟨0, fun index other => by omega⟩

/-- In all interleavings of reports blocks stand below their own test points exactly if no case
fails or there is no other case. -/
theorem forall_blocksFollow_iff (width : Nat) (outcomes : List Outcome) :
    (∀ told, Interleaves (ownOf (reports width outcomes)) told →
      BlocksFollow width outcomes told) ↔
      outcomes.length ≤ 1 ∨ ∀ outcome ∈ outcomes, outcome.passed := by
  rw [← exists_alone_iff width, ← length_ownOf_reports_le_one_iff width, or_comm,
    ← forall_undivided_iff]
  exact forall₂_congr fun told each => blocksFollow_iff_undivided each

/-! ## Runs -/

/-- Under the schedule, a run prints this behind the version and the plan, each print with the
index of its case. -/
def Prints (answer : Invocation → Execution) (registry : Registry) (arguments : Arguments)
    (colored : Bool) (schedule : List Nat) (told : List (Nat × String)) : Prop :=
  ∃ ending calls,
    (Program.runCases schedule arguments colored registry (recording answer)).run [] =
      (ending, calls) ∧
    ending.stdout =
      [ReportStyle.line versionLine, ReportStyle.line (plan 1 registry.size)] ++ told.map Prod.snd

section

variable (answer : Invocation → Execution) (registry : Registry) (arguments : Arguments)
  (colored : Bool)

theorem prints_sequential (schedule : List Nat) :
    Prints answer registry { arguments with tap := true, parallel := false } colored schedule
      (oneByOne 0
        (reports (toString registry.size).length (registry.cases.map (outcomeBy answer)))) := by
  refine ⟨_, _, run_bind_of_run (registry.runAll_sequential_recording _), ?_⟩
  rw [map_snd_oneByOne]
  exact List.append_nil _

theorem prints_parallel (schedule : List Nat) :
    Prints answer registry { arguments with tap := true, parallel := true } colored schedule
      (Crew.tellings (registry.trace answer
        (fun index outcome => (point (index + 1) (toString registry.size).length outcome).map
          ReportStyle.line) schedule)) :=
  ⟨_, _, run_bind_of_run (registry.runAll_parallel_recording _ schedule), List.append_nil _⟩

end

/-- **Blocks below their test points.** One after the other, each case prints its block right
below its own test point. At the same time the cases print in every order that keeps the prints of
each in theirs, and this holds in all of them only if no case fails or there is no other. -/
theorem blocksFollow_iff (answer : Invocation → Execution) (registry : Registry)
    (arguments : Arguments) (colored : Bool) :
    let outcomes := registry.cases.map (outcomeBy answer)
    let width := (toString registry.size).length
    let inOrder := oneByOne 0 (reports width outcomes)
    let runs := fun parallel =>
      Prints answer registry { arguments with tap := true, parallel } colored
    (∀ schedule, runs false schedule inOrder) ∧ BlocksFollow width outcomes inOrder ∧
      (∀ schedule, ∃ told, Interleaves (ownOf (reports width outcomes)) told ∧
        runs true schedule told) ∧
      (∀ told, Interleaves (ownOf (reports width outcomes)) told →
        ∃ schedule, runs true schedule told) ∧
      ((∀ told, Interleaves (ownOf (reports width outcomes)) told →
        BlocksFollow width outcomes told) ↔
          registry.size ≤ 1 ∨ ∀ outcome ∈ outcomes, outcome.passed) := by
  intro outcomes width inOrder runs
  have size : outcomes.length = registry.size := List.length_map _
  refine ⟨prints_sequential answer registry arguments colored, ?_, fun schedule => ?_,
    fun told each => ?_, ?_⟩
  · exact (blocksFollow_iff_undivided (interleaves_oneByOne _)).2 (undivided_oneByOne _)
  · exact ⟨_, registry.interleaves_tellings answer _ schedule,
      prints_parallel answer registry arguments colored schedule⟩
  · obtain ⟨schedule, rfl⟩ := Registry.exists_schedule_tellings each
    exact ⟨schedule, prints_parallel answer registry arguments colored schedule⟩
  · rw [← size]
    exact forall_blocksFollow_iff width outcomes

/-- Each of two workers executes, judges and tells its first note before either tells its
second. -/
theorem tellings_turn_by_turn {α : Type} {answer : Invocation → Execution}
    {notes : Nat → Outcome → List α} {c d : TestCase} {a b x y : α}
    (first : notes 0 (outcomeBy answer c) = [a, b])
    (second : notes 1 (outcomeBy answer d) = [x, y]) :
    Crew.tellings ((Crew.ofCases [c, d]).trace answer notes [0, 0, 0, 1, 1, 1]) =
      [(0, a), (1, x), (0, b), (1, y)] := by
  change Crew.tellings (Crew.trace answer notes
    ⟨[⟨c, .judged _ (notes 0 (outcomeBy answer c))⟩, ⟨d, .waiting⟩], []⟩ [0, 1, 1, 1]) = _
  rw [first]
  change Crew.tellings ([(0, .tell a)] ++ Crew.trace answer notes
    ⟨[⟨c, .judged _ [b]⟩, ⟨d, .judged _ (notes 1 (outcomeBy answer d))⟩], [a]⟩ [1]) = _
  rw [second]
  rfl

/-- Two cases that fail at the same time: both test points, then both blocks. -/
theorem not_blocksFollow_of_two_failures :
    let first : TestCase :=
      { name := "one", description := none, invocation := .script "true" [], expected := "hi" }
    let second : TestCase :=
      { name := "two", description := none, invocation := .script "false" [], expected := "hi" }
    let registry := ((Registry.empty {}).register first).register second
    let silence : Execution := { output := "", exitCode := some 0, error := none }
    let outcomes := [judge first silence, judge second silence]
    let block := fun commandLine => ReportStyle.line
      (diagnosticsBlock (diagnostics commandLine "expected output not found. Got: "))
    let told := [(0, "not ok 1 - one\n"), (1, "not ok 2 - two\n"), (0, block first.commandLine),
      (1, block second.commandLine)]
    registry.cases.map (outcomeBy fun _ => silence) = outcomes ∧
      Prints (fun _ => silence) registry { tap := true, parallel := true } false
        [0, 0, 0, 1, 1, 1]
        told ∧
      Interleaves (ownOf (reports 1 outcomes)) told ∧ ¬ BlocksFollow 1 outcomes told := by
  intro first second registry silence outcomes block told
  have width : (toString registry.size).length = 1 := by decide +kernel
  have firstLine : ReportStyle.line (testLine false 1 1 "one") = "not ok 1 - one\n" := by
    decide +kernel
  have secondLine : ReportStyle.line (testLine false 2 1 "two") = "not ok 2 - two\n" := by
    decide +kernel
  have firstFails :
      (judge first silence).diagnostic = some "expected output not found. Got: " := by
    decide +kernel
  have secondFails :
      (judge second silence).diagnostic = some "expected output not found. Got: " := by
    decide +kernel
  have does : Crew.tellings (registry.trace (fun _ => silence)
      (fun index outcome => (point (index + 1) 1 outcome).map ReportStyle.line)
      [0, 0, 0, 1, 1, 1]) = told := by
    simp only [told, ← firstLine, ← secondLine]
    exact tellings_turn_by_turn (congrArg (List.map _) (point_of_failed firstFails 1 1))
      (congrArg (List.map _) (point_of_failed secondFails 2 1))
  have prints := prints_parallel (fun _ => silence) registry {} false [0, 0, 0, 1, 1, 1]
  have each := registry.interleaves_tellings (fun _ => silence)
    (fun index outcome => (point (index + 1) 1 outcome).map ReportStyle.line) [0, 0, 0, 1, 1, 1]
  rw [width, does] at prints
  rw [does] at each
  refine ⟨rfl, prints, each, fun follow => ?_⟩
  have together : [0, 0] <:+: [0, 1, 0, 1] := (follow 0 _ _ rfl firstFails).map Prod.fst
  revert together
  decide

end CommandSuite.Report.Tap
