import CommandSuite.Proofs.Report.Tap

/-!
# Directives of test points

A reader of the protocol excuses a failed test point whose line has a directive: a `#` behind
white space and, behind blanks, the word TODO or SKIP. The text of a test point names the case and
tells its description behind a `#`, and neither is escaped, so both can make a directive.

* `hasDirective_testLine_iff`: a test line has a directive exactly if the name or the description
  of its case makes one; whether the case passed, its number and the ` # ` between name and
  description play no part in it by themselves.
* `countsAsFailure_iff`: a reader counts the failures of a run exactly if no case that failed has
  an excuse.
-/

namespace CommandSuite.Report.Tap

open Text

/-! ## Directives -/

/-- The first word of a text behind blanks, in small letters. -/
def firstWord (cs : List Char) : List Char :=
  ((cs.dropWhile fun c => c = ' ' || c = '\t').takeWhile Char.isAlphanum).map Char.toLower

/-- What stands behind a `#` makes it a directive. -/
def OpensDirective (cs : List Char) : Prop := firstWord cs ∈ ["todo".toList, "skip".toList]

/-- There is a directive in the text. A `#` behind white space has no backslash before it that
would escape it. -/
def HasDirective (cs : List Char) : Prop :=
  ∃ space rest, space :: '#' :: rest <:+ cs ∧ space.isWhitespace ∧ OpensDirective rest

instance (cs : List Char) : Decidable (OpensDirective cs) := inferInstanceAs (Decidable (_ ∈ _))

variable {c : Char} {cs ds : List Char}

theorem not_hasDirective_nil : ¬ HasDirective [] := by
  rintro ⟨space, rest, suffix, -⟩
  exact absurd (List.suffix_nil.1 suffix) (List.cons_ne_nil _ _)

theorem hasDirective_cons_iff :
    HasDirective (c :: cs) ↔
      (c.isWhitespace ∧ ∃ rest, cs = '#' :: rest ∧ OpensDirective rest) ∨ HasDirective cs := by
  constructor
  · rintro ⟨space, rest, suffix, white, opens⟩
    rcases List.suffix_cons_iff.1 suffix with here | later
    · obtain ⟨rfl, rfl⟩ := List.cons.inj here
      exact .inl ⟨white, rest, rfl, opens⟩
    · exact .inr ⟨space, rest, later, white, opens⟩
  · rintro (⟨white, rest, rfl, opens⟩ | ⟨space, rest, later, white, opens⟩)
    · exact ⟨c, rest, List.suffix_refl _, white, opens⟩
    · exact ⟨space, rest, List.suffix_cons_iff.2 (.inr later), white, opens⟩

theorem hasDirective_cons_of_not_white (dark : c.isWhitespace = false) :
    HasDirective (c :: cs) ↔ HasDirective cs := by
  rw [hasDirective_cons_iff, dark]
  simp

theorem takeWhile_append_cons {p : Char → Bool} (stop : p c = false) :
    (cs ++ c :: ds).takeWhile p = cs.takeWhile p := by
  induction cs with
  | nil => simp [stop]
  | cons d cs ih => cases taken : p d <;> simp [taken, ih]

/-- A first word ends at a blank, so what comes behind that plays no part in it. -/
theorem firstWord_append (cs ds : List Char) :
    firstWord (cs ++ ' ' :: '#' :: ds) = firstWord cs := by
  rw [firstWord, firstWord, List.dropWhile_append]
  split
  case isTrue blank =>
    rw [List.isEmpty_iff.1 blank]
    simp [show '#'.isAlphanum = false by decide]
  case isFalse => rw [takeWhile_append_cons (by decide)]

theorem opensDirective_append : OpensDirective (cs ++ ' ' :: '#' :: ds) ↔ OpensDirective cs := by
  rw [OpensDirective, firstWord_append, OpensDirective]

/-- A `#` between blanks is a directive if a word for it follows; apart from that, what stands
before it and what stands behind it have directives of their own. -/
theorem hasDirective_append_iff :
    HasDirective (cs ++ ' ' :: '#' :: ' ' :: ds) ↔
      HasDirective cs ∨ OpensDirective ds ∨ HasDirective (' ' :: ds) := by
  induction cs with
  | nil =>
    have first : OpensDirective (' ' :: ds) ↔ OpensDirective ds := Iff.rfl
    rw [List.nil_append, hasDirective_cons_iff, hasDirective_cons_of_not_white (by decide)]
    simp [not_hasDirective_nil, first, show ' '.isWhitespace by decide]
  | cons c cs ih =>
    have same : (∃ rest, cs ++ ' ' :: '#' :: ' ' :: ds = '#' :: rest ∧ OpensDirective rest) ↔
        ∃ rest, cs = '#' :: rest ∧ OpensDirective rest := by
      cases cs with
      | nil => simp
      | cons d cs =>
        constructor
        · rintro ⟨rest, begun, opens⟩
          obtain ⟨rfl, rfl⟩ := List.cons.inj begun
          exact ⟨cs, rfl, opensDirective_append.1 opens⟩
        · rintro ⟨rest, begun, opens⟩
          obtain ⟨rfl, rfl⟩ := List.cons.inj begun
          exact ⟨_, rfl, opensDirective_append.2 opens⟩
    rw [List.cons_append, hasDirective_cons_iff, hasDirective_cons_iff, same, ih, or_assoc]

/-- Ahead of a blank nothing makes a directive if there is no `#`. -/
theorem hasDirective_append_of_notMem (absent : '#' ∉ cs) :
    HasDirective (cs ++ ' ' :: ds) ↔ HasDirective (' ' :: ds) := by
  induction cs with
  | nil => rfl
  | cons c cs ih =>
    rw [List.mem_cons, not_or] at absent
    have none : ¬ ∃ rest, cs ++ ' ' :: ds = '#' :: rest ∧ OpensDirective rest := by
      rintro ⟨rest, begun, -⟩
      cases cs with
      | nil => cases begun
      | cons d cs => exact absent.2 (by simp [(List.cons.inj begun).1])
    rw [List.cons_append, hasDirective_cons_iff, ih absent.2]
    simp [none]

/-! ## Test lines -/

/-- The name or the description of the case makes a directive. -/
def Excuses (c : TestCase) : Prop :=
  HasDirective (' ' :: c.name.toList) ∨
    ∃ description ∈ c.description,
      OpensDirective description.toList ∨ HasDirective (' ' :: description.toList)

/-- A test line has a blank ahead of its description, and no `#` before that. -/
theorem exists_toList_testLine (passed : Bool) (number width : Nat) (description : String) :
    ∃ front, '#' ∉ front ∧
      (testLine passed number width description).toList = front ++ ' ' :: description.toList := by
  obtain ⟨blanks, blank, head⟩ := exists_blanks_pointHead passed number width
  refine ⟨(if passed then "ok" else "not ok").toList ++ blanks ++ (toString number).toList ++
    " -".toList, ?_, by rw [toList_testLine, head]; simp⟩
  have verdict : '#' ∉ (if passed then "ok" else "not ok").toList := by cases passed <;> decide
  have noBlank : '#' ∉ blanks := fun mem => absurd (blank _ mem) (by decide)
  have noDigit : '#' ∉ (toString number).toList :=
    fun mem => absurd (Summary.isDigit_of_mem_toString mem) (by decide)
  simp only [List.mem_append, not_or]
  exact ⟨⟨⟨verdict, noBlank⟩, noDigit⟩, by decide⟩

/-- A test line has a directive exactly if its case makes one. -/
theorem hasDirective_testLine_iff (passed : Bool) (number width : Nat) (c : TestCase) :
    HasDirective (testLine passed number width (caseDescription c)).toList ↔ Excuses c := by
  obtain ⟨front, absent, line⟩ := exists_toList_testLine passed number width (caseDescription c)
  rw [line, hasDirective_append_of_notMem absent, Excuses, caseDescription]
  cases c.description with
  | none => simp
  | some description =>
    have joined : ' ' :: (c.name ++ " # " ++ description).toList =
        ' ' :: c.name.toList ++ ' ' :: '#' :: ' ' :: description.toList := by
      simp
    simp only [joined, hasDirective_append_iff]
    simp

/-- A reader takes the line for that of a failure. -/
def CountsAsFailure (line : List Char) : Prop := "not ok".toList <+: line ∧ ¬ HasDirective line

theorem not_ok_prefix_testLine_iff (passed : Bool) (number width : Nat) (description : String) :
    "not ok".toList <+: (testLine passed number width description).toList ↔ passed = false := by
  rw [toList_testLine, pointHead]
  cases passed <;> simp

theorem countsAsFailure_testLine_iff (passed : Bool) (number width : Nat) (c : TestCase) :
    CountsAsFailure (testLine passed number width (caseDescription c)).toList ↔
      passed = false ∧ ¬ Excuses c := by
  rw [CountsAsFailure, hasDirective_testLine_iff, not_ok_prefix_testLine_iff]

/-! ## Runs -/

theorem line_testLine_mem_prints (style : ReportStyle) (tap : style.format = .tap)
    {outcomes : List Outcome} {i : Nat} {outcome : Outcome}
    (found : outcomes[i]? = some outcome) :
    ReportStyle.line
        (testLine outcome.passed (i + 1) style.numberWidth (caseDescription outcome.case)) ∈
      style.prints outcomes := by
  obtain ⟨blocks, split, -⟩ := point_eq (i + 1) style.numberWidth outcome
  have own : style.casePrints i outcome = (point (i + 1) style.numberWidth outcome).map
      ReportStyle.line := by
    rw [ReportStyle.casePrints, tap]
  have told : style.casePrints i outcome ∈ outcomes.mapIdx style.casePrints :=
    List.mem_of_getElem? (by rw [List.getElem?_mapIdx, found]; rfl)
  rw [ReportStyle.prints, ReportStyle.printsAround, List.mem_append, List.mem_append]
  refine .inl (.inr (List.mem_flatten.2 ⟨_, told, ?_⟩))
  rw [own, split]
  exact List.mem_cons_self

theorem exitCode_finish_eq_failedTests_iff (style : ReportStyle) (told : List String)
    (outcomes : List Outcome) :
    (Program.finish style told outcomes).exitCode = .failedTests ↔
      ∃ outcome ∈ outcomes, outcome.passed = false := by
  have failed : allPassed outcomes = false ↔ ∃ outcome ∈ outcomes, outcome.passed = false := by
    simp [allPassed]
  rw [← failed, Program.finish]
  cases allPassed outcomes <;> simp

/-- **Failures that a reader counts.** A test line has a directive exactly if the name or the
description of its case makes one, and then a reader does not count the case, though it failed. So
the reader counts the cases that failed exactly if none of these has an excuse, and agrees with
the exit code if one of them has none or all cases passed. -/
theorem countsAsFailure_iff (results : Nat → Execution) (registry : Registry)
    (schedule : List Nat) (arguments : Arguments) (colored : Bool) :
    let outcomes := registry.cases.mapIdx fun i c => judge c (results i)
    let line := fun i (outcome : Outcome) =>
      testLine outcome.passed (i + 1) (toString registry.size).length
        (caseDescription outcome.case)
    ∃ ending,
      (Program.runCases schedule { arguments with tap := true, parallel := false }
        colored registry (replaying results)).run 0 = (ending, registry.size) ∧
      (∀ i outcome, outcomes[i]? = some outcome →
        ReportStyle.line (line i outcome) ∈ ending.stdout ∧
        (HasDirective (line i outcome).toList ↔ Excuses outcome.case)) ∧
      ((∀ i outcome, outcomes[i]? = some outcome →
        (CountsAsFailure (line i outcome).toList ↔ outcome.passed = false)) ↔
          ∀ outcome ∈ outcomes, outcome.passed = false → ¬ Excuses outcome.case) ∧
      (((∃ i outcome, outcomes[i]? = some outcome ∧ CountsAsFailure (line i outcome).toList) ↔
        ending.exitCode = .failedTests) ↔
          (∀ outcome ∈ outcomes, outcome.passed) ∨
            ∃ outcome ∈ outcomes, outcome.passed = false ∧ ¬ Excuses outcome.case) := by
  intro outcomes line
  refine ⟨_, Program.runCases_replaying results registry schedule arguments colored,
    fun i outcome found =>
      ⟨line_testLine_mem_prints _ rfl found, hasDirective_testLine_iff _ _ _ _⟩,
    ?_, ?_⟩
  · simp only [line, countsAsFailure_testLine_iff, and_iff_left_iff_imp]
    constructor
    · intro each outcome mem
      obtain ⟨i, found⟩ := List.mem_iff_getElem?.1 mem
      exact each i outcome found
    · exact fun each i outcome found => each outcome (List.mem_of_getElem? found)
  · have counted : (∃ i outcome, outcomes[i]? = some outcome ∧
        CountsAsFailure (line i outcome).toList) ↔
        ∃ outcome ∈ outcomes, outcome.passed = false ∧ ¬ Excuses outcome.case := by
      simp only [line, countsAsFailure_testLine_iff, List.mem_iff_getElem?]
      constructor
      · rintro ⟨i, outcome, found, counts⟩
        exact ⟨outcome, ⟨i, found⟩, counts⟩
      · rintro ⟨outcome, ⟨i, found⟩, counts⟩
        exact ⟨i, outcome, found, counts⟩
    rw [counted, exitCode_finish_eq_failedTests_iff]
    constructor
    · intro agrees
      by_cases failed : ∃ outcome ∈ outcomes, outcome.passed = false
      · exact .inr (agrees.2 failed)
      · exact .inl fun outcome mem => by simpa using fun fails => failed ⟨outcome, mem, fails⟩
    · rintro (passed | ⟨outcome, mem, fails, unexcused⟩)
      · constructor
        · rintro ⟨outcome, mem, fails, -⟩
          exact absurd (passed outcome mem) (by simp [fails])
        · rintro ⟨outcome, mem, fails⟩
          exact absurd (passed outcome mem) (by simp [fails])
      · exact ⟨fun _ => ⟨outcome, mem, fails⟩, fun _ => ⟨outcome, mem, fails, unexcused⟩⟩

/-- A description that begins with TODO: the case fails, and no reader counts it. -/
theorem not_countsAsFailure_of_todo :
    let c : TestCase :=
      { name := "greet", description := some "todo: translate", invocation := .script "true" []
        expected := "hi" }
    let registry := (Registry.empty {}).register c
    let silence : Execution := { output := "", exitCode := some 0, error := none }
    let line := "not ok 1 - greet # todo: translate"
    ∃ ending,
      (Program.runCases [] { tap := true } false registry (replaying fun _ => silence)).run 0 =
        (ending, registry.size) ∧
      ReportStyle.line line ∈ ending.stdout ∧ ending.exitCode = .failedTests ∧
      HasDirective line.toList ∧ ¬ CountsAsFailure line.toList := by
  intro c registry silence line
  have printed : testLine false 1 1 (caseDescription c) = line := by decide +kernel
  have failed : (judge c silence).passed = false := by decide +kernel
  have excused : HasDirective line.toList := by
    rw [← printed, hasDirective_testLine_iff]
    exact .inr ⟨"todo: translate", rfl, .inl (by decide)⟩
  have judged : registry.cases.mapIdx (fun _ c => judge c silence) = [judge c silence] := rfl
  have size : registry.size = 1 := rfl
  have run := Program.runCases_replaying (fun _ => silence) registry [] {} false
  simp only [judged, size] at run
  refine ⟨_, run, ?_, ?_, excused, fun counts => counts.2 excused⟩
  · have found : [judge c silence][0]? = some (judge c silence) := rfl
    have mem := line_testLine_mem_prints { numberOfTests := 1, format := .tap, colored := false }
      rfl found
    rw [failed] at mem
    rw [← printed]
    exact mem
  · exact (exitCode_finish_eq_failedTests_iff _ _ _).2
      ⟨judge c silence, List.mem_cons_self, failed⟩

end CommandSuite.Report.Tap
