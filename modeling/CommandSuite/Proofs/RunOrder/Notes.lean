import CommandSuite.Proofs.RunOrder.Trace

/-!
# Notes of a run

What a command does can depend on what was run before it, so an executor need not give the same
answer twice. Whatever it answers, and whoever takes the next step, each case is judged once and
tells the notes of that outcome, in their order.

* `Worker.HasTold` is what a worker has told so far: the front of the notes of its outcome. A step
  keeps it (`Worker.HasTold.advance`), and the rest of the steps tells the rest
  (`Worker.HasTold.finish`).
* `Crew.Tells` is this for all workers; `Crew.Tells.step` and `Crew.Tells.foldlM` carry it along a
  schedule.
* `Registry.interleaves_runAll`: the notes of a run are those of its outcomes, each case's in
  their order.
-/

namespace CommandSuite

variable {α σ : Type}

/-! ## One worker -/

namespace Worker

/-- A worker of a case has told this: nothing until the case is judged, and then the front of the
notes of the outcome, the rest of which is untold. -/
inductive HasTold (notes : Outcome → List α) (c : TestCase) : Progress α → List α → Prop
  | waiting : HasTold notes c .waiting []
  | executed {execution : Execution} : HasTold notes c (.executed execution) []
  | judged {outcome : Outcome} {told untold : List α} (own : outcome.case = c)
      (split : told ++ untold = notes outcome) : HasTold notes c (.judged outcome untold) told

variable {notes : Outcome → List α} {c : TestCase} {progress : Progress α} {before : List α}

/-- A step of a worker tells at most the next note. -/
theorem HasTold.advance (told : HasTold notes c progress before) (execute : Executor (StateM σ))
    (s : σ) :
    ∃ next more s', (Worker.advance execute notes ⟨c, progress⟩).run s = ((⟨c, next⟩, more), s') ∧
      HasTold notes c next (before ++ more) := by
  cases told with
  | waiting => exact ⟨.executed ((execute c.invocation).run s).1, [], _, rfl, .executed⟩
  | @executed execution =>
    exact ⟨.judged (judge c execution) (notes (judge c execution)), [], s, rfl, .judged rfl rfl⟩
  | @judged outcome _ untold own split =>
    cases untold with
    | nil =>
      refine ⟨.judged outcome [], [], s, rfl, ?_⟩
      rw [List.append_nil]
      exact .judged own split
    | cons note untold =>
      refine ⟨.judged outcome untold, [note], s, rfl, .judged own ?_⟩
      rw [List.append_assoc]
      exact split

/-- The rest of a worker's steps tells the rest of the notes. -/
theorem HasTold.finish (told : HasTold notes c progress before) (execute : Executor (StateM σ))
    (s : σ) :
    ∃ outcome more s', (Worker.finish execute notes ⟨c, progress⟩).run s = ((outcome, more), s') ∧
      outcome.case = c ∧ before ++ more = notes outcome := by
  cases told with
  | waiting => exact ⟨judge c ((execute c.invocation).run s).1, _, _, rfl, rfl, rfl⟩
  | @executed execution => exact ⟨judge c execution, _, s, rfl, rfl, rfl⟩
  | @judged outcome _ untold own split => exact ⟨outcome, untold, s, rfl, own, split⟩

end Worker

/-! ## All workers -/

namespace Crew

variable {notes : Nat → Outcome → List α} {cases : List TestCase} {crew : Crew α}
  {told : List (Nat × α)}

/-- The crew of these cases has told this, each note with the index of the worker who told it. -/
structure Tells (notes : Nat → Outcome → List α) (cases : List TestCase) (crew : Crew α)
    (told : List (Nat × α)) : Prop where
  all : crew.told = told.map Prod.snd
  same : crew.workers.map Worker.case = cases
  each : ∀ index, (crew.workers[index]?).elim (part index told = []) fun worker =>
    Worker.HasTold (notes index) worker.case worker.progress (part index told)

theorem tells_ofCases (notes : Nat → Outcome → List α) (cases : List TestCase) :
    (ofCases cases).Tells notes cases [] where
  all := rfl
  same := map_case_ofCases cases
  each index := by
    rw [ofCases, List.getElem?_map]
    cases cases[index]? with
    | none => rfl
    | some c => exact .waiting

/-- A step adds what one worker tells. -/
theorem Tells.step (tells : crew.Tells notes cases told) (execute : Executor (StateM σ))
    (index : Nat)
    (s : σ) :
    ∃ (next : Crew α) (more : List α) (s' : σ),
      (crew.step execute notes index).run s = (next, s') ∧
      next.Tells notes cases (told ++ more.map (index, ·)) := by
  cases found : crew.workers[index]? with
  | none =>
    refine ⟨crew, [], s, ?_, ?_⟩
    · rw [Crew.step, found]
      rfl
    · rw [List.map_nil, List.append_nil]
      exact tells
  | some worker =>
    have mine := tells.each index
    rw [found, Option.elim_some] at mine
    obtain ⟨next, more, s', run, kept⟩ := mine.advance execute s
    refine ⟨⟨crew.workers.set index ⟨worker.case, next⟩, crew.told ++ more⟩, more, s', ?_, ?_,
      ?_, ?_⟩
    · rw [Crew.step, found]
      exact run_bind_of_run run
    · rw [tells.all, List.map_append, List.map_map]
      exact congrArg (_ ++ ·) (List.map_id more).symm
    · exact (map_case_set found ⟨worker.case, next⟩ rfl).trans tells.same
    · intro i
      rw [List.getElem?_set, part_append, part_map_mk]
      by_cases here : index = i
      · subst here
        rw [if_pos rfl, if_pos (List.getElem?_eq_some_iff.1 found).1, if_pos rfl]
        exact kept
      · rw [if_neg here, if_neg here, List.append_nil]
        exact tells.each i

/-- Under every schedule, workers tell their own notes in their order. -/
theorem Tells.foldlM (tells : crew.Tells notes cases told) (execute : Executor (StateM σ))
    (schedule : List Nat) (s : σ) :
    ∃ last all s', (schedule.foldlM (Crew.step execute notes) crew).run s = (last, s') ∧
      last.Tells notes cases all := by
  induction schedule generalizing crew told s with
  | nil => exact ⟨crew, told, s, rfl, tells⟩
  | cons index schedule ih =>
    obtain ⟨next, more, s', run, kept⟩ := tells.step execute index s
    obtain ⟨last, all, s'', later, rest⟩ := ih kept s'
    refine ⟨last, all, s'', ?_, rest⟩
    rw [List.foldlM_cons, run_bind_of_run run, later]

/-- What is left to all workers makes their notes complete. Here `before` is what each has told,
the first of the workers having the index `first`. -/
theorem exists_finishFrom (notes : Nat → Outcome → List α) (execute : Executor (StateM σ))
    (before : Nat → List α) (first : Nat) {workers : List (Worker α)}
    (each : ∀ offset, (workers[offset]?).elim (before (first + offset) = []) fun worker =>
      Worker.HasTold (notes (first + offset)) worker.case worker.progress
        (before (first + offset)))
    (s : σ) :
    ∃ outcomes rests s',
      (finishFrom execute notes first workers).run s = ((outcomes, rests.flatten), s') ∧
      outcomes.map Outcome.case = workers.map Worker.case ∧
      ∀ offset, before (first + offset) ++ ownOf rests offset =
        (outcomes[offset]?).elim [] (notes (first + offset)) := by
  induction workers generalizing first s with
  | nil =>
    refine ⟨[], [], s, rfl, rfl, fun offset => ?_⟩
    have nothing : before (first + offset) = [] := each offset
    rw [nothing]
    rfl
  | cons worker workers ih =>
    obtain ⟨outcome, more, s', run, own, complete⟩ := (each 0).finish execute s
    obtain ⟨outcomes, rests, s'', later, same, whole⟩ := ih (first + 1) (fun offset => by
      have next := each (offset + 1)
      rwa [← Nat.add_assoc, Nat.add_right_comm] at next) s'
    refine ⟨outcome :: outcomes, more :: rests, s'', ?_, ?_, fun offset => ?_⟩
    · exact (run_bind_of_run run).trans (run_bind_of_run later)
    · rw [List.map_cons, List.map_cons, own, same]
    · cases offset with
      | zero => exact complete
      | succ offset =>
        have next := whole offset
        rw [Nat.add_right_comm] at next
        exact next

end Crew

/-! ## Both orders -/

theorem exists_mapM_evaluate (execute : Executor (StateM σ)) (cases : List TestCase) (s : σ) :
    ∃ outcomes s', (cases.mapM (evaluate execute)).run s = (outcomes, s') ∧
      outcomes.map Outcome.case = cases := by
  induction cases generalizing s with
  | nil => exact ⟨[], s, rfl, rfl⟩
  | cons c cases ih =>
    obtain ⟨outcomes, s', later, same⟩ := ih ((execute c.invocation).run s).2
    refine ⟨judge c ((execute c.invocation).run s).1 :: outcomes, s', ?_, ?_⟩
    · rw [List.mapM_cons]
      have first : (evaluate execute c).run s =
          (judge c ((execute c.invocation).run s).1, ((execute c.invocation).run s).2) := rfl
      exact (run_bind_of_run first).trans (run_bind_of_run later)
    · rw [List.map_cons, same]
      rfl

theorem ownOf_mapIdx (notes : Nat → Outcome → List α) (outcomes : List Outcome) (index : Nat) :
    ownOf (outcomes.mapIdx notes) index = (outcomes[index]?).elim [] (notes index) := by
  rw [ownOf, List.getElem?_mapIdx]
  cases outcomes[index]? <;> rfl

/-- **Notes of a run.** Whatever commands do and in whatever order the cases run, a run has one
outcome for each case and tells the notes of the outcomes, those of each in their order. -/
theorem Registry.interleaves_runAll (registry : Registry) (order : RunOrder)
    (execute : Executor (StateM σ)) (notes : Nat → Outcome → List α) (s : σ) :
    ∃ outcomes told s',
      (registry.runAll order execute notes).run s = ((outcomes, told.map Prod.snd), s') ∧
      outcomes.map Outcome.case = registry.cases ∧
      Interleaves (ownOf (outcomes.mapIdx notes)) told := by
  cases order with
  | sequential =>
    obtain ⟨outcomes, s', run, same⟩ := exists_mapM_evaluate execute registry.cases s
    refine ⟨outcomes, oneByOne 0 (outcomes.mapIdx notes), s', ?_, same, interleaves_oneByOne _⟩
    rw [map_snd_oneByOne]
    exact run_bind_of_run run
  | parallel schedule =>
    obtain ⟨last, told, s', run, tells⟩ :=
      (Crew.tells_ofCases notes registry.cases).foldlM execute schedule s
    obtain ⟨outcomes, rests, s'', later, same, whole⟩ :=
      Crew.exists_finishFrom notes execute (fun index => part index told) 0
        (fun offset => by rw [Nat.zero_add]; exact tells.each offset) s'
    refine ⟨outcomes, told ++ oneByOne 0 rests, s'', ?_, same.trans tells.same, fun index => ?_⟩
    · rw [List.map_append, map_snd_oneByOne, ← tells.all]
      exact (run_bind_of_run run).trans (run_bind_of_run later)
    · have mine := whole index
      rw [Nat.zero_add] at mine
      rw [part_append, part_oneByOne_zero, mine, ownOf_mapIdx]

end CommandSuite
