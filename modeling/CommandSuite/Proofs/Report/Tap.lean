import CommandSuite.Program
import CommandSuite.Proofs.Report.Summary
import CommandSuite.Proofs.RunOrder

/-!
# Test points in column 0

A reader of the protocol takes a line that is not indented for a test point, and skips indented
ones with the diagnostics. What a command puts out, and its command line, go into diagnostics
blocks, where every line is indented (`not_isOuter_of_mem_diagnosticsBlock`). The name and the
description of a case stand behind the number of its test point as they are, so a line feed in
them starts a line of the report (`filter_isOuter_point`).

`outer_lines_arePoints_iff`: the lines in column 0 behind the plan are the test points of the
outcomes, one for each, exactly if names and descriptions start no line there; in particular if
they have no line feeds.
-/

namespace CommandSuite

/-! ## Runs with given results -/

/-- The executor whose calls give these results, from the first call on. -/
def replaying (results : Nat → Execution) : Executor (StateM Nat) :=
  fun _ => modifyGet fun call => (results call, call + 1)

theorem mapM_evaluate_replaying (results : Nat → Execution) (cases : List TestCase) (call : Nat) :
    (cases.mapM (evaluate (replaying results))).run call =
      (cases.mapIdx fun i c => judge c (results (call + i)), call + cases.length) := by
  induction cases generalizing call with
  | nil => rfl
  | cons c cases ih =>
    have first : (evaluate (replaying results) c).run call = (judge c (results call), call + 1) :=
      rfl
    have later := ih (call + 1)
    simp only [Nat.add_assoc, Nat.add_comm 1] at later
    rw [List.mapM_cons]
    exact (run_bind_of_run first).trans
      ((run_bind_of_run later).trans (by rw [List.mapIdx_cons]; rfl))

/-- A report of cases that are judged one after the other, with these results. -/
theorem Program.runCases_replaying (results : Nat → Execution) (registry : Registry)
    (schedule : List Nat) (arguments : Arguments) (colored : Bool) :
    let outcomes := registry.cases.mapIdx fun i c => judge c (results i)
    let style : ReportStyle :=
      { numberOfTests := registry.size, format := .tap, colored := colored && !arguments.noColor }
    (runCases schedule { arguments with tap := true, parallel := false } colored registry
      (replaying results)).run 0 =
      (finish style (outcomes.mapIdx style.casePrints).flatten outcomes, registry.size) := by
  intro outcomes style
  have run := mapM_evaluate_replaying results registry.cases 0
  simp only [Nat.zero_add] at run
  have all : (registry.runAll .sequential (replaying results) style.casePrints).run 0 =
      ((outcomes, (outcomes.mapIdx style.casePrints).flatten), registry.size) :=
    run_bind_of_run run
  exact run_bind_of_run all

namespace Report.Tap

/-- Whether a line starts in column 0. -/
def isOuter (line : List Char) : Bool := line.head? ≠ some ' '

/-- A line starts with this verdict, ahead of this number. -/
def IsPoint (line : List Char) (passed : Bool) (number : Nat) : Prop :=
  ∃ blanks description, (∀ c ∈ blanks, c = ' ') ∧
    line = (if passed then "ok" else "not ok").toList ++ blanks ++ (toString number).toList ++
      " - ".toList ++ description

/-- Lines are the test points of outcomes, one for each, numbered in their order. -/
def ArePoints (lines : List (List Char)) (outcomes : List Outcome) : Prop :=
  lines.length = outcomes.length ∧
    ∀ i line outcome, lines[i]? = some line → outcomes[i]? = some outcome →
      IsPoint line outcome.passed (i + 1)

/-! ## One test point -/

/-- What stands ahead of the description of a test point. -/
def pointHead (passed : Bool) (number width : Nat) : List Char :=
  (if passed then "ok     " else "not ok ").toList ++ (rightAligned width number).toList ++
    " - ".toList

theorem toList_testLine (passed : Bool) (number width : Nat) (description : String) :
    (testLine passed number width description).toList =
      pointHead passed number width ++ description.toList := by
  rw [testLine, pointHead]
  cases passed <;> simp

/-- A test point has its verdict, blanks and its number ahead of its description. -/
theorem exists_blanks_pointHead (passed : Bool) (number width : Nat) :
    ∃ blanks : List Char, (∀ c ∈ blanks, c = ' ') ∧
      pointHead passed number width =
        (if passed then "ok" else "not ok").toList ++ blanks ++ (toString number).toList ++
          " - ".toList := by
  let missing := width - (toString number).length
  refine ⟨List.replicate ((if passed then 5 else 1) + missing) ' ',
    fun c mem => List.eq_of_mem_replicate mem, ?_⟩
  rw [pointHead, rightAligned, String.toList_append, String.toList_ofList,
    ← List.replicate_append_replicate]
  cases passed <;> simp [missing]

theorem isPoint_pointHead (passed : Bool) (number width : Nat) (description : List Char) :
    IsPoint (pointHead passed number width ++ description) passed number := by
  obtain ⟨blanks, blank, split⟩ := exists_blanks_pointHead passed number width
  exact ⟨blanks, description, blank, by rw [split]⟩

theorem newline_notMem_pointHead (passed : Bool) (number width : Nat) :
    '\n' ∉ pointHead passed number width := by
  obtain ⟨blanks, blank, split⟩ := exists_blanks_pointHead passed number width
  have noBlank : '\n' ∉ blanks := fun mem => absurd (blank _ mem) (by decide)
  rw [split]
  simp only [List.mem_append, not_or]
  refine ⟨⟨⟨?_, noBlank⟩, Summary.newline_notMem_toString number⟩, by decide⟩
  cases passed <;> decide

theorem isOuter_pointHead (passed : Bool) (number width : Nat) (description : List Char) :
    isOuter (pointHead passed number width ++ description) := by
  cases passed <;> rfl

/-- Every line of a diagnostics block is indented. -/
theorem not_isOuter_of_mem_diagnosticsBlock {diagnostics : String} {line : List Char}
    (mem : line ∈ Text.splitLines (diagnosticsBlock diagnostics).toList) :
    isOuter line = false := by
  rw [splitLines_diagnosticsBlock] at mem
  obtain ⟨inner, _, rfl⟩ := List.mem_map.1 mem
  rfl

/-- The lines of what stands behind the number of a case's test point. -/
def caseLines (c : TestCase) : List (List Char) := Text.splitLines (caseDescription c).toList

/-- Behind the line of a test point there is nothing but diagnostics. -/
theorem point_eq (number width : Nat) (outcome : Outcome) :
    ∃ blocks, point number width outcome =
        testLine outcome.passed number width (caseDescription outcome.case) :: blocks ∧
      ∀ block ∈ blocks, ∃ diagnostics, block = diagnosticsBlock diagnostics := by
  rw [Outcome.passed_eq_isNone_diagnostic]
  cases verdict : outcome.diagnostic with
  | none => exact ⟨[], point_of_passed verdict number width, by simp⟩
  | some message =>
    exact ⟨_, point_of_failed verdict number width, fun _ mem => ⟨_, List.mem_singleton.1 mem⟩⟩

/-- In column 0 a test point has its first line, and lines that its name or its description
start. -/
theorem filter_isOuter_point (number width : Nat) (outcome : Outcome) :
    ((point number width outcome).flatMap fun s => Text.splitLines s.toList).filter isOuter =
      (pointHead outcome.passed number width ++ (caseLines outcome.case).headD []) ::
        (caseLines outcome.case).tail.filter isOuter := by
  obtain ⟨blocks, split, diagnostics⟩ := point_eq number width outcome
  have inner : (blocks.flatMap fun s => Text.splitLines s.toList).filter isOuter = [] := by
    rw [List.filter_eq_nil_iff]
    intro line mem
    obtain ⟨block, mem, isLine⟩ := List.mem_flatMap.1 mem
    obtain ⟨_, rfl⟩ := diagnostics block mem
    rw [not_isOuter_of_mem_diagnosticsBlock isLine]
    exact Bool.false_ne_true
  cases described : caseLines outcome.case with
  | nil => exact absurd described (Text.splitOn_ne_nil _ _)
  | cons first later =>
    have lines : Text.splitLines
        (testLine outcome.passed number width (caseDescription outcome.case)).toList =
        (pointHead outcome.passed number width ++ first) :: later := by
      rw [toList_testLine]
      exact Text.splitOn_append (newline_notMem_pointHead _ _ _) described
    rw [split, List.flatMap_cons, lines, List.filter_append, inner, List.append_nil,
      List.filter_cons_of_pos (isOuter_pointHead _ _ _ _)]
    rfl

/-! ## All test points -/

/-- Lists that each have a head are as many as their heads and as long as these and their
tails. -/
theorem length_flatten_mapIdx_cons {α β : Type} (head : Nat → α → β) (tail : α → List β)
    (as : List α) :
    (as.mapIdx fun i a => head i a :: tail a).flatten.length =
      as.length + (as.flatMap tail).length := by
  induction as generalizing head with
  | nil => rfl
  | cons a as ih =>
    rw [List.mapIdx_cons, List.flatten_cons, List.length_append, ih fun i => head (i + 1),
      List.flatMap_cons, List.length_append, List.length_cons, List.length_cons]
    omega

theorem flatMap_flatten_mapIdx {α β γ : Type} (parts : Nat → α → List β) (f : β → List γ)
    (as : List α) :
    (as.mapIdx parts).flatten.flatMap f =
      (as.mapIdx fun i a => (parts i a).flatMap f).flatten := by
  induction as generalizing parts with
  | nil => rfl
  | cons a as ih =>
    rw [List.mapIdx_cons, List.mapIdx_cons, List.flatten_cons, List.flatten_cons,
      List.flatMap_append, ih fun i => parts (i + 1)]

/-- The lines that the test points of outcomes have in column 0. -/
def outerLines (width : Nat) (outcomes : List Outcome) : List (List Char) :=
  (outcomes.mapIdx fun i outcome =>
    (pointHead outcome.passed (i + 1) width ++ (caseLines outcome.case).headD []) ::
      (caseLines outcome.case).tail.filter isOuter).flatten

/-- Lines in column 0 are test points unless a name or a description starts one. -/
theorem arePoints_outerLines_iff (width : Nat) (outcomes : List Outcome) :
    ArePoints (outerLines width outcomes) outcomes ↔
      ∀ outcome ∈ outcomes, ∀ line ∈ (caseLines outcome.case).tail, isOuter line = false := by
  have none : (outcomes.flatMap fun outcome => (caseLines outcome.case).tail.filter isOuter) =
      [] ↔
      ∀ outcome ∈ outcomes, ∀ line ∈ (caseLines outcome.case).tail, isOuter line = false := by
    simp only [List.flatMap_eq_nil_iff, List.filter_eq_nil_iff, Bool.not_eq_true]
  rw [← none, ArePoints, outerLines, length_flatten_mapIdx_cons]
  constructor
  · rintro ⟨length, _⟩
    exact List.eq_nil_of_length_eq_zero (by omega)
  · intro nothing
    refine ⟨by rw [nothing]; rfl, fun i line outcome hasLine hasOutcome => ?_⟩
    have alone : (outcomes.mapIdx fun i outcome =>
        (pointHead outcome.passed (i + 1) width ++ (caseLines outcome.case).headD []) ::
          (caseLines outcome.case).tail.filter isOuter) =
        outcomes.mapIdx fun i outcome =>
          [pointHead outcome.passed (i + 1) width ++ (caseLines outcome.case).headD []] := by
      refine List.mapIdx_eq_mapIdx_iff.2 fun i inRange => ?_
      rw [List.flatMap_eq_nil_iff.1 nothing _ (List.getElem_mem inRange)]
    rw [alone, flatten_mapIdx_singleton, List.getElem?_mapIdx, hasOutcome] at hasLine
    obtain rfl := Option.some.inj hasLine
    exact isPoint_pointHead outcome.passed (i + 1) width _

/-- The texts that a report prints as lines, with the cases judged one after the other. -/
def texts (width : Nat) (outcomes : List Outcome) : List String :=
  versionLine :: plan 1 outcomes.length ::
    (outcomes.mapIdx fun i => point (i + 1) width).flatten

theorem prints_eq (outcomes : List Outcome) (colored : Bool) :
    let style : ReportStyle := { numberOfTests := outcomes.length, format := .tap, colored }
    style.prints outcomes = (texts style.numberWidth outcomes).map ReportStyle.line := by
  intro style
  have points : ((outcomes.mapIdx fun i => point (i + 1) style.numberWidth).flatten).map
      ReportStyle.line = (outcomes.mapIdx style.casePrints).flatten := by
    rw [List.map_eq_flatMap, flatMap_flatten_mapIdx]
    simp only [← List.map_eq_flatMap]
    rfl
  rw [texts, List.map_cons, List.map_cons, points]
  exact List.append_nil _

/-- The plan is a line. -/
theorem newline_notMem_plan (first last : Nat) : '\n' ∉ (plan first last).toList := by
  simp only [plan, String.toList_append, List.mem_append, not_or]
  exact ⟨⟨Summary.newline_notMem_toString first, by decide⟩, Summary.newline_notMem_toString last⟩

/-- Behind the version and the plan, the lines in column 0 are those of the test points. -/
theorem lines_prints (outcomes : List Outcome) (colored : Bool) :
    let style : ReportStyle := { numberOfTests := outcomes.length, format := .tap, colored }
    ∃ rest, Text.lines (String.join (style.prints outcomes)).toList =
        versionLine.toList :: (plan 1 outcomes.length).toList :: rest ∧
      rest.filter isOuter = outerLines style.numberWidth outcomes := by
  intro style
  have lines : Text.lines (String.join (style.prints outcomes)).toList =
      (texts style.numberWidth outcomes).flatMap fun s => Text.splitLines s.toList := by
    have written : (String.join (style.prints outcomes)).toList =
        ((texts style.numberWidth outcomes).map String.toList).flatMap (· ++ ['\n']) := by
      rw [prints_eq, String.toList_join, List.flatMap_map, List.flatMap_map]
      congr 1
      funext s
      rw [ReportStyle.line, String.toList_append]
      rfl
    rw [written, Text.lines_flatMap (by simp [texts]), List.flatMap_map]
  have version : Text.splitLines versionLine.toList = [versionLine.toList] :=
    Text.splitOn_eq_singleton (by decide)
  have plan : Text.splitLines (plan 1 outcomes.length).toList =
      [(plan 1 outcomes.length).toList] :=
    Text.splitOn_eq_singleton (newline_notMem_plan 1 outcomes.length)
  rw [lines, texts, List.flatMap_cons, List.flatMap_cons, version, plan]
  refine ⟨(outcomes.mapIdx fun i => point (i + 1) style.numberWidth).flatten.flatMap fun s =>
    Text.splitLines s.toList, rfl, ?_⟩
  rw [List.filter_flatMap, flatMap_flatten_mapIdx, outerLines]
  simp only [← List.filter_flatMap, filter_isOuter_point]

theorem tail_caseLines {c : TestCase} (name : '\n' ∉ c.name.toList)
    (description : ∀ d ∈ c.description, '\n' ∉ d.toList) : (caseLines c).tail = [] := by
  have oneLine : '\n' ∉ (caseDescription c).toList := by
    rw [caseDescription]
    cases described : c.description with
    | none => exact name
    | some d =>
      simp only [String.toList_append, List.mem_append, not_or]
      exact ⟨⟨name, by decide⟩, description d (by rw [described]; rfl)⟩
  rw [caseLines, Text.splitLines, Text.splitOn_eq_singleton oneLine]
  rfl

/-- **Test points in column 0.** Whatever the results are, a run one after the other prints the
version, the plan and, in column 0, the test points of the outcomes, unless a name or a
description starts a line there. -/
theorem outer_lines_arePoints_iff (results : Nat → Execution) (registry : Registry)
    (schedule : List Nat) (arguments : Arguments) (colored : Bool) :
    let outcomes := registry.cases.mapIdx fun i c => judge c (results i)
    ∃ ending rest,
      (Program.runCases schedule { arguments with tap := true, parallel := false }
        colored registry (replaying results)).run 0 = (ending, registry.size) ∧
      Text.lines (String.join ending.stdout).toList =
        "TAP version 14".toList :: ("1.." ++ toString registry.size).toList :: rest ∧
      (ArePoints (rest.filter isOuter) outcomes ↔
        ∀ c ∈ registry.cases, ∀ line ∈ (caseLines c).tail, isOuter line = false) ∧
      ((∀ c ∈ registry.cases, '\n' ∉ c.name.toList ∧ ∀ d ∈ c.description, '\n' ∉ d.toList) →
        ArePoints (rest.filter isOuter) outcomes) := by
  intro outcomes
  have size : outcomes.length = registry.size := List.length_mapIdx
  have cases : outcomes.map Outcome.case = registry.cases := by
    refine List.ext_getElem (by rw [List.length_map]; exact size) fun i _ _ => ?_
    rw [List.getElem_map, List.getElem_mapIdx]
    rfl
  obtain ⟨rest, lines, outer⟩ := lines_prints outcomes (colored && !arguments.noColor)
  have exactly : ArePoints (rest.filter isOuter) outcomes ↔
      ∀ c ∈ registry.cases, ∀ line ∈ (caseLines c).tail, isOuter line = false := by
    rw [outer, arePoints_outerLines_iff, ← cases]
    simp only [List.forall_mem_map]
  rw [size] at lines
  refine ⟨_, rest, Program.runCases_replaying results registry schedule arguments colored, lines,
    exactly, fun oneLine => ?_⟩
  refine exactly.2 fun c mem line later => ?_
  rw [tail_caseLines (oneLine c mem).1 (oneLine c mem).2] at later
  cases later

/-- A line feed in a name starts a line in column 0: one case that fails, and a second test point,
which passes. -/
theorem not_arePoints_of_newline :
    let c : TestCase :=
      { name := "one\nok 2 - two", description := none, invocation := .script "true" [],
        expected := "hi" }
    let registry := (Registry.empty {}).register c
    let silence : Execution := { output := "", exitCode := some 0, error := none }
    ∃ ending rest,
      (Program.runCases [] { tap := true } false registry (replaying fun _ => silence)).run 0 =
        (ending, registry.size) ∧
      Text.lines (String.join ending.stdout).toList =
        "TAP version 14".toList :: "1..1".toList :: rest ∧
      rest.filter isOuter = ["not ok 1 - one".toList, "ok 2 - two".toList] ∧
      ¬ ArePoints (rest.filter isOuter) [judge c silence] := by
  intro c registry silence
  obtain ⟨rest, lines, outer⟩ := lines_prints [judge c silence] false
  have twoPoints : rest.filter isOuter = ["not ok 1 - one".toList, "ok 2 - two".toList] := by
    rw [outer]
    decide +kernel
  have onePlanned : plan 1 [judge c silence].length = "1..1" := by decide
  rw [onePlanned] at lines
  refine ⟨_, rest, Program.runCases_replaying (fun _ => silence) registry [] {} false, lines,
    twoPoints, fun points => ?_⟩
  have tooMany := points.1
  rw [twoPoints] at tooMany
  cases tooMany

end Report.Tap

end CommandSuite
