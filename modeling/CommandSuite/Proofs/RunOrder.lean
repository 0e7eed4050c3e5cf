import CommandSuite.Proofs.RunOrder.Trace

/-!
# Every order of a run executes every case once

An executor whose answers depend on nothing but the invocations gives a case the same outcome
whenever it is run. One after the other the cases are called and told in their order; at the same
time the run does the deeds of its trace, which interleaves those of the cases (`ownDeeds`).

* `Registry.runAll_recording`: for both orders of a run and any notes, the same outcomes come with
  the same calls and notes, in some order.
* `Registry.runAll_parallel_sequential`: with one note for each outcome, the runs at the same time
  are the interleavings of one call and one note for each case.
-/

namespace CommandSuite

variable {α : Type} {answer : Invocation → Execution}

theorem run_evaluate_recording (c : TestCase) (calls : List Invocation) :
    (evaluate (recording answer) c).run calls =
      (outcomeBy answer c, calls ++ [c.invocation]) := rfl

theorem mapM_evaluate_recording (cases : List TestCase) (calls : List Invocation) :
    (cases.mapM (evaluate (recording answer))).run calls =
      (cases.map (outcomeBy answer), calls ++ cases.map TestCase.invocation) := by
  induction cases generalizing calls with
  | nil => exact congrArg _ (List.append_nil calls).symm
  | cons c cases ih =>
    rw [List.mapM_cons, List.map_cons, List.map_cons, List.append_cons]
    exact (run_bind_of_run (run_evaluate_recording c calls)).trans
      (run_bind_of_run (ih (calls ++ [c.invocation])))

/-! ## What belongs to each case -/

/-- What the worker of the case at an index does, from first to last. -/
def ownDeeds (answer : Invocation → Execution) (notes : Nat → Outcome → List α)
    (cases : List TestCase) (index : Nat) : List (Deed α) :=
  (cases[index]?).elim [] fun c => Deed.list [c.invocation] (notes index (outcomeBy answer c))

theorem left_ofCases (notes : Nat → Outcome → List α) (cases : List TestCase) :
    (Crew.ofCases cases).left answer notes = ownDeeds answer notes cases := by
  funext index
  rw [Crew.left, Crew.ofCases, List.getElem?_map, ownDeeds]
  cases cases[index]? <;> rfl

theorem filterMap_note?_ownDeeds (notes : Nat → Outcome → List α) (cases : List TestCase)
    (index : Nat) :
    (ownDeeds answer notes cases index).filterMap Deed.note? =
      ownOf ((cases.map (outcomeBy answer)).mapIdx notes) index := by
  rw [ownDeeds, ownOf, List.getElem?_mapIdx, List.getElem?_map]
  cases cases[index]? with
  | none => rfl
  | some c => exact Deed.filterMap_note?_list _ _

theorem filterMap_call?_ownDeeds (notes : Nat → Outcome → List α) (cases : List TestCase)
    (index : Nat) :
    (ownDeeds answer notes cases index).filterMap Deed.call? =
      ownOf (cases.map fun c => [c.invocation]) index := by
  rw [ownDeeds, ownOf, List.getElem?_map]
  cases cases[index]? with
  | none => rfl
  | some c => exact Deed.filterMap_call?_list _ _

section

variable {notes : Nat → Outcome → List α} {cases : List TestCase} {trace : List (Nat × Deed α)}
  (each : Interleaves (ownDeeds answer notes cases) trace)

include each

/-- The notes of an interleaving are those of all outcomes. -/
theorem Interleaves.tellings_perm :
    ((Crew.tellings trace).map Prod.snd).Perm
      ((cases.map (outcomeBy answer)).mapIdx notes).flatten := by
  have told := each.pick Deed.note?
  simp only [filterMap_note?_ownDeeds] at told
  rw [← map_snd_oneByOne 0]
  exact (told.perm (interleaves_oneByOne _)).map Prod.snd

/-- The calls of an interleaving are one for each case. -/
theorem Interleaves.calls_perm :
    ((Crew.calls trace).map Prod.snd).Perm (cases.map TestCase.invocation) := by
  have called := each.pick Deed.call?
  simp only [filterMap_call?_ownDeeds] at called
  have single : (cases.map fun c => [c.invocation]).flatten = cases.map TestCase.invocation := by
    rw [← List.flatMap_def, List.map_eq_flatMap]
  rw [← single, ← map_snd_oneByOne 0]
  exact (called.perm (interleaves_oneByOne _)).map Prod.snd

end

/-! ## Both orders -/

theorem Registry.runAll_sequential_recording (registry : Registry)
    (notes : Nat → Outcome → List α) :
    let outcomes := registry.cases.map (outcomeBy answer)
    (registry.runAll .sequential (recording answer) notes).run [] =
      ((outcomes, (outcomes.mapIdx notes).flatten), registry.cases.map TestCase.invocation) :=
  run_bind_of_run (mapM_evaluate_recording registry.cases [])

/-- What the workers of a registry do under a schedule. -/
def Registry.trace (registry : Registry) (answer : Invocation → Execution)
    (notes : Nat → Outcome → List α) (schedule : List Nat) : List (Nat × Deed α) :=
  (Crew.ofCases registry.cases).trace answer notes schedule

theorem Registry.runAll_parallel_recording (registry : Registry)
    (notes : Nat → Outcome → List α) (schedule : List Nat) :
    let trace := registry.trace answer notes schedule
    (registry.runAll (.parallel schedule) (recording answer) notes).run [] =
      ((registry.cases.map (outcomeBy answer), (Crew.tellings trace).map Prod.snd),
        (Crew.calls trace).map Prod.snd) := by
  have run := Crew.run_trace (Crew.honest_ofCases answer registry.cases) notes schedule []
  rw [Crew.map_case_ofCases] at run
  exact run

/-- Under any schedule, what belongs to each case is done, in its order. -/
theorem Registry.interleaves_trace (registry : Registry) (answer : Invocation → Execution)
    (notes : Nat → Outcome → List α) (schedule : List Nat) :
    Interleaves (ownDeeds answer notes registry.cases)
      (registry.trace answer notes schedule) := by
  rw [← left_ofCases]
  exact Crew.interleaves_trace (Crew.honest_ofCases answer registry.cases) notes schedule

/-- Whatever order the cases allow is that of some schedule. -/
theorem Registry.exists_schedule {registry : Registry} {notes : Nat → Outcome → List α}
    {trace : List (Nat × Deed α)}
    (each : Interleaves (ownDeeds answer notes registry.cases) trace) :
    ∃ schedule, registry.trace answer notes schedule = trace := by
  rw [← left_ofCases] at each
  exact Crew.exists_schedule (Crew.honest_ofCases answer registry.cases) each

/-- The notes of a run interleave those of the outcomes. -/
theorem Registry.interleaves_tellings (registry : Registry) (answer : Invocation → Execution)
    (notes : Nat → Outcome → List α) (schedule : List Nat) :
    Interleaves (ownOf ((registry.cases.map (outcomeBy answer)).mapIdx notes))
      (Crew.tellings (registry.trace answer notes schedule)) := by
  have told := (registry.interleaves_trace answer notes schedule).pick Deed.note?
  simp only [filterMap_note?_ownDeeds] at told
  exact told

/-- Whatever order the notes allow is that of some schedule: all cases may be called before. -/
theorem Registry.exists_schedule_tellings {registry : Registry} {notes : Nat → Outcome → List α}
    {told : List (Nat × α)}
    (each : Interleaves
      (ownOf ((registry.cases.map (outcomeBy answer)).mapIdx notes)) told) :
    ∃ schedule, Crew.tellings (registry.trace answer notes schedule) = told := by
  let calls : List (Nat × Deed α) := oneByOne 0 (registry.cases.map fun c => [.call c.invocation])
  let trace := calls ++ told.map fun (index, note) => (index, Deed.tell note)
  have interleaves : Interleaves (ownDeeds answer notes registry.cases) trace := by
    intro index
    rw [part_append, part_oneByOne_zero, part_map, each index, ownOf, ownOf, List.getElem?_mapIdx,
      List.getElem?_map, List.getElem?_map, ownDeeds]
    cases registry.cases[index]? <;> rfl
  obtain ⟨schedule, does⟩ := Registry.exists_schedule interleaves
  have silent : Crew.tellings calls = [] := by
    refine ((interleaves_oneByOne _).pick Deed.note?).eq_nil fun index => ?_
    rw [ownOf, List.getElem?_map]
    cases registry.cases[index]? <;> rfl
  have all : Crew.tellings (told.map fun (index, note) => (index, Deed.tell note)) = told := by
    rw [Crew.tellings, pick, List.filterMap_map]
    exact List.filterMap_some
  refine ⟨schedule, ?_⟩
  rw [does, Crew.tellings, pick_append]
  exact (congrArg (· ++ _) silent).trans all

/-- In whatever order the cases are run, each outcome stands in the place of its case, the
executor is called for the invocations of the cases, each time once, and the notes told are those
of the outcomes. -/
theorem Registry.runAll_recording (answer : Invocation → Execution) (registry : Registry)
    (order : RunOrder) (notes : Nat → Outcome → List α) :
    ∃ told calls,
      (registry.runAll order (recording answer) notes).run [] =
        ((registry.cases.map (outcomeBy answer), told), calls) ∧
      calls.Perm (registry.cases.map TestCase.invocation) ∧
      told.Perm ((registry.cases.map (outcomeBy answer)).mapIdx notes).flatten := by
  cases order with
  | sequential => exact ⟨_, _, registry.runAll_sequential_recording notes, .rfl, .rfl⟩
  | parallel schedule =>
    have each := registry.interleaves_trace answer notes schedule
    exact ⟨_, _, registry.runAll_parallel_recording notes schedule, each.calls_perm,
      each.tellings_perm⟩

/-! ## One note for each outcome -/

theorem flatten_mapIdx_singleton {β γ : Type} (f : Nat → β → γ) (bs : List β) :
    (bs.mapIdx fun i b => [f i b]).flatten = bs.mapIdx f := by
  rw [List.mapIdx_eq_zipIdx_map, List.mapIdx_eq_zipIdx_map, ← List.flatMap_def,
    List.map_eq_flatMap]

/-- Each outcome with its index, as the one note of it. -/
def numbered (index : Nat) (outcome : Outcome) : List (Nat × Outcome) := [(index, outcome)]

/-- **Every order executes every case once.** The order of the steps is any that interleaves one
call and then one note for each case; whichever it is, the outcomes are those of the cases run one
after the other, and each of them is told once, with its own index. -/
theorem Registry.runAll_parallel_sequential (answer : Invocation → Execution)
    (registry : Registry) :
    let outcomes := registry.cases.map (outcomeBy answer)
    let own : Nat → List (Deed (Nat × Outcome)) := fun index =>
      (registry.cases[index]?).elim [] fun c =>
        [.call c.invocation, .tell (index, outcomeBy answer c)]
    let told : List (Nat × Deed (Nat × Outcome)) → List (Nat × Outcome) := fun trace =>
      (Crew.tellings trace).map Prod.snd
    let called : List (Nat × Deed (Nat × Outcome)) → List Invocation := fun trace =>
      (Crew.calls trace).map Prod.snd
    (registry.runAll .sequential (recording answer) numbered).run [] =
        ((outcomes, outcomes.mapIdx Prod.mk), registry.cases.map TestCase.invocation) ∧
      outcomes.map Outcome.case = registry.cases ∧
      (∀ schedule, ∃ trace, Interleaves own trace ∧
        (registry.runAll (.parallel schedule) (recording answer) numbered).run [] =
          ((outcomes, told trace), called trace)) ∧
      ∀ trace, Interleaves own trace →
        (∃ schedule, (registry.runAll (.parallel schedule) (recording answer) numbered).run [] =
          ((outcomes, told trace), called trace)) ∧
        (called trace).Perm (registry.cases.map TestCase.invocation) ∧
        (told trace).Perm (outcomes.mapIdx Prod.mk) ∧
        ((told trace).map Prod.fst).Perm (List.range registry.size) ∧
        ∀ index outcome, (index, outcome) ∈ told trace ↔ outcomes[index]? = some outcome := by
  intro outcomes own told called
  have inOrder : (outcomes.mapIdx numbered).flatten = outcomes.mapIdx Prod.mk :=
    flatten_mapIdx_singleton Prod.mk outcomes
  refine ⟨?_, ?_, fun schedule => ?_, fun trace each => ?_⟩
  · rw [← inOrder]
    exact registry.runAll_sequential_recording numbered
  · rw [List.map_map]
    exact List.map_id registry.cases
  · exact ⟨_, registry.interleaves_trace answer numbered schedule,
      registry.runAll_parallel_recording numbered schedule⟩
  · change Interleaves (ownDeeds answer numbered registry.cases) trace at each
    have all : (told trace).Perm (outcomes.mapIdx Prod.mk) := by
      rw [← inOrder]
      exact each.tellings_perm
    refine ⟨?_, each.calls_perm, all, ?_, fun index outcome => ?_⟩
    · obtain ⟨schedule, rfl⟩ := Registry.exists_schedule each
      exact ⟨schedule, registry.runAll_parallel_recording numbered schedule⟩
    · have indices : (outcomes.mapIdx Prod.mk).map Prod.fst = List.range registry.size := by
        refine List.ext_getElem (by simp [outcomes, size]) fun i _ _ => by simp
      rw [← indices]
      exact all.map Prod.fst
    · rw [all.mem_iff, List.mem_iff_getElem?]
      simp only [List.getElem?_mapIdx, Option.map_eq_some_iff, Prod.mk.injEq]
      constructor
      · rintro ⟨_, _, found, rfl, rfl⟩
        exact found
      · exact fun found => ⟨_, _, found, rfl, rfl⟩

end CommandSuite
