import CommandSuite.Proofs.RunOrder.Interleaving
import CommandSuite.RunOrder

/-!
# Traces of a run

What workers do under a schedule is a list of deeds, each with the index of the worker: that its
command is executed, or that a note is told. The executor answers by the invocation alone here,
and writes down the invocations as they come.

* `Worker.Steps` and `Crew.Steps` are the inversions of one step: it takes what it does from the
  front of what is left to its worker (`Worker.left`).
* `Crew.trace` is what the steps of a schedule do, and what is left to do after it;
  `Crew.run_trace` reads the calls and the notes of a run off it.
* `Crew.interleaves_trace` and `Crew.exists_schedule`: the traces are the interleavings of what is
  left to the workers, and all of them.
-/

namespace CommandSuite

/-- The executor with answers that depend on the invocations alone, and with all invocations
written down as they come. -/
def recording (answer : Invocation → Execution) : Executor (StateM (List Invocation)) :=
  fun invocation => modifyGet fun calls => (answer invocation, calls ++ [invocation])

/-- The outcome of a case with these answers. -/
def outcomeBy (answer : Invocation → Execution) (c : TestCase) : Outcome :=
  judge c (answer c.invocation)

variable {α : Type} {answer : Invocation → Execution}

/-- A run goes on from where its first part ends. -/
theorem run_bind_of_run {σ β γ : Type} {first : StateM σ β} {later : β → StateM σ γ} {s s' : σ}
    {b : β} (run : first.run s = (b, s')) : (first >>= later).run s = (later b).run s' := by
  rw [StateT.run_bind, run]
  rfl

/-! ## Deeds -/

/-- What a worker does that others notice. -/
inductive Deed (α : Type) where
  /-- It has a command executed. -/
  | call (invocation : Invocation)
  /-- It tells a note. -/
  | tell (note : α)
  deriving Repr, DecidableEq

namespace Deed

def call? : Deed α → Option Invocation
  | call invocation => some invocation
  | tell _ => none

def note? : Deed α → Option α
  | call _ => none
  | tell note => some note

/-- Calls, and the notes that come after them. -/
def list (called : List Invocation) (told : List α) : List (Deed α) :=
  called.map call ++ told.map tell

@[simp] theorem filterMap_call?_list (called : List Invocation) (told : List α) :
    (list called told).filterMap call? = called := by
  have calls : (called.map (call (α := α))).filterMap call? = called := by
    rw [List.filterMap_map]
    exact List.filterMap_some
  have notes : (told.map tell).filterMap call? = [] := by
    simp [List.filterMap_map, Function.comp_def, call?]
  rw [list, List.filterMap_append, calls, notes, List.append_nil]

@[simp] theorem filterMap_note?_list (called : List Invocation) (told : List α) :
    (list called told).filterMap note? = told := by
  have calls : (called.map (call (α := α))).filterMap note? = [] := by
    simp [List.filterMap_map, Function.comp_def, note?]
  have notes : (told.map tell).filterMap note? = told := by
    rw [List.filterMap_map]
    exact List.filterMap_some
  rw [list, List.filterMap_append, calls, notes, List.nil_append]

end Deed

/-! ## One worker -/

namespace Worker

/-- What is left for a worker to do. -/
def left (answer : Invocation → Execution) (notes : Outcome → List α) (worker : Worker α) :
    List (Deed α) :=
  match worker.progress with
  | .waiting => Deed.list [worker.case.invocation] (notes (outcomeBy answer worker.case))
  | .executed _ => Deed.list [] (notes (outcomeBy answer worker.case))
  | .judged _ untold => Deed.list [] untold

/-- A worker has seen no other answer than that to its own invocation. -/
def Honest (answer : Invocation → Execution) (worker : Worker α) : Prop :=
  match worker.progress with
  | .waiting => True
  | .executed execution => execution = answer worker.case.invocation
  | .judged outcome _ => outcome = outcomeBy answer worker.case

/-- The step of a worker calls and tells this, from the front of what is left, and leads there. -/
structure Steps (answer : Invocation → Execution) (notes : Outcome → List α) (worker : Worker α)
    (called : List Invocation) (told : List α) (next : Worker α) : Prop where
  run : ∀ calls, (worker.advance (recording answer) notes).run calls =
    ((next, told), calls ++ called)
  same : next.case = worker.case
  honest : next.Honest answer
  left : worker.left answer notes = Deed.list called told ++ next.left answer notes

section

variable (answer) (notes : Outcome → List α) (c : TestCase)

theorem steps_waiting :
    Steps answer notes ⟨c, .waiting⟩ [c.invocation] [] ⟨c, .executed (answer c.invocation)⟩ :=
  ⟨fun _ => rfl, rfl, rfl, rfl⟩

theorem steps_executed :
    Steps answer notes ⟨c, .executed (answer c.invocation)⟩ [] []
      ⟨c, .judged (outcomeBy answer c) (notes (outcomeBy answer c))⟩ :=
  ⟨fun calls => congrArg _ (List.append_nil calls).symm, rfl, rfl, rfl⟩

theorem steps_judged_cons (note : α) (untold : List α) :
    Steps answer notes ⟨c, .judged (outcomeBy answer c) (note :: untold)⟩ [] [note]
      ⟨c, .judged (outcomeBy answer c) untold⟩ :=
  ⟨fun calls => congrArg _ (List.append_nil calls).symm, rfl, rfl, rfl⟩

theorem steps_judged_nil :
    Steps answer notes ⟨c, .judged (outcomeBy answer c) []⟩ [] []
      ⟨c, .judged (outcomeBy answer c) []⟩ :=
  ⟨fun calls => congrArg _ (List.append_nil calls).symm, rfl, rfl, rfl⟩

end

variable {worker : Worker α} (honest : worker.Honest answer) (notes : Outcome → List α)

include honest

theorem exists_steps : ∃ called told next, worker.Steps answer notes called told next := by
  obtain ⟨c, progress⟩ := worker
  cases progress with
  | waiting => exact ⟨_, _, _, steps_waiting answer notes c⟩
  | executed execution =>
    obtain rfl : execution = answer c.invocation := honest
    exact ⟨_, _, _, steps_executed answer notes c⟩
  | judged outcome untold =>
    obtain rfl : outcome = outcomeBy answer c := honest
    cases untold with
    | nil => exact ⟨_, _, _, steps_judged_nil answer notes c⟩
    | cons note untold => exact ⟨_, _, _, steps_judged_cons answer notes c note untold⟩

/-- What stands at the front is done by the next step, or by the one after it. -/
theorem steps_to_front {deed : Deed α} {later : List (Deed α)}
    (front : worker.left answer notes = deed :: later) :
    (∃ called told next, Deed.list called told = [deed] ∧
      worker.Steps answer notes called told next) ∨
    ∃ judged called told next, worker.Steps answer notes [] [] judged ∧
      Deed.list called told = [deed] ∧ judged.Steps answer notes called told next := by
  obtain ⟨c, progress⟩ := worker
  cases progress with
  | waiting =>
    obtain ⟨rfl, _⟩ := List.cons.inj front
    exact .inl ⟨_, _, _, rfl, steps_waiting answer notes c⟩
  | executed execution =>
    obtain rfl : execution = answer c.invocation := honest
    have judge := steps_executed answer notes c
    change (notes (outcomeBy answer c)).map Deed.tell = deed :: later at front
    cases told : notes (outcomeBy answer c) with
    | nil => rw [told] at front; cases front
    | cons note untold =>
      rw [told] at front judge
      obtain ⟨rfl, _⟩ := List.cons.inj front
      exact .inr ⟨_, _, _, _, judge, rfl, steps_judged_cons answer notes c note untold⟩
  | judged outcome untold =>
    obtain rfl : outcome = outcomeBy answer c := honest
    cases untold with
    | nil => cases front
    | cons note untold =>
      obtain ⟨rfl, _⟩ := List.cons.inj front
      exact .inl ⟨_, _, _, rfl, steps_judged_cons answer notes c note untold⟩

/-- The rest of its steps does all that is left, and gives the outcome. -/
theorem exists_finish :
    ∃ called told,
      (∀ calls, (worker.finish (recording answer) notes).run calls =
        ((outcomeBy answer worker.case, told), calls ++ called)) ∧
      worker.left answer notes = Deed.list called told := by
  obtain ⟨c, progress⟩ := worker
  cases progress with
  | waiting => exact ⟨[c.invocation], notes (outcomeBy answer c), fun _ => rfl, rfl⟩
  | executed execution =>
    obtain rfl : execution = answer c.invocation := honest
    exact ⟨[], notes (outcomeBy answer c),
      fun calls => congrArg _ (List.append_nil calls).symm, rfl⟩
  | judged outcome untold =>
    obtain rfl : outcome = outcomeBy answer c := honest
    exact ⟨[], untold, fun calls => congrArg _ (List.append_nil calls).symm, rfl⟩

end Worker

/-! ## All workers -/

namespace Crew

variable {notes : Nat → Outcome → List α} {crew : Crew α}

/-- No worker has seen another answer than that to its own invocation. -/
def Honest (answer : Invocation → Execution) (crew : Crew α) : Prop :=
  ∀ worker ∈ crew.workers, worker.Honest answer

/-- What is left for the worker at an index to do. -/
def left (answer : Invocation → Execution) (notes : Nat → Outcome → List α) (crew : Crew α)
    (index : Nat) : List (Deed α) :=
  (crew.workers[index]?).elim [] (Worker.left answer (notes index))

/-- The step of the worker at an index calls and tells this, from the front of what is left to it,
and leads there. What is left to others stays as it is. -/
structure Steps (answer : Invocation → Execution) (notes : Nat → Outcome → List α) (crew : Crew α)
    (index : Nat) (called : List Invocation) (told : List α) (next : Crew α) : Prop where
  run : ∀ calls, (crew.step (recording answer) notes index).run calls = (next, calls ++ called)
  hasTold : next.told = crew.told ++ told
  same : next.workers.map Worker.case = crew.workers.map Worker.case
  honest : next.Honest answer
  left : ∀ i, crew.left answer notes i =
    (if index = i then Deed.list called told else []) ++ next.left answer notes i

theorem map_case_set {workers : List (Worker α)} {index : Nat} {worker : Worker α}
    (found : workers[index]? = some worker) (next : Worker α) (same : next.case = worker.case) :
    (workers.set index next).map Worker.case = workers.map Worker.case := by
  obtain ⟨inRange, rfl⟩ := List.getElem?_eq_some_iff.1 found
  rw [List.map_set, same, ← List.getElem_map Worker.case (h := by rwa [List.length_map]),
    List.set_getElem_self]

theorem steps_of_worker (honest : crew.Honest answer) {index : Nat} {worker next : Worker α}
    (found : crew.workers[index]? = some worker) {called : List Invocation} {told : List α}
    (steps : worker.Steps answer (notes index) called told next) :
    crew.Steps answer notes index called told
      { workers := crew.workers.set index next, told := crew.told ++ told } where
  run calls := by
    rw [step, found]
    exact run_bind_of_run (steps.run calls)
  hasTold := rfl
  same := map_case_set found next steps.same
  honest other mem := by
    rcases List.mem_or_eq_of_mem_set mem with mem | rfl
    · exact honest other mem
    · exact steps.honest
  left i := by
    rw [left, left, List.getElem?_set]
    by_cases here : index = i
    · subst here
      rw [found, if_pos rfl, if_pos rfl, if_pos (List.getElem?_eq_some_iff.1 found).1]
      exact steps.left
    · rw [if_neg here, if_neg here]
      rfl

theorem steps_none (honest : crew.Honest answer) {index : Nat}
    (none : crew.workers[index]? = none) : crew.Steps answer notes index [] [] crew where
  run calls := by
    rw [step, none, List.append_nil]
    rfl
  hasTold := (List.append_nil crew.told).symm
  same := rfl
  honest := honest
  left i := by split <;> rfl

theorem exists_steps (honest : crew.Honest answer) (notes : Nat → Outcome → List α)
    (index : Nat) :
    ∃ called told next, crew.Steps answer notes index called told next := by
  cases found : crew.workers[index]? with
  | none => exact ⟨_, _, _, steps_none honest found⟩
  | some worker =>
    obtain ⟨called, told, next, steps⟩ :=
      Worker.exists_steps (honest worker (List.mem_of_getElem? found)) (notes index)
    exact ⟨_, _, _, steps_of_worker honest found steps⟩

/-! ## Traces -/

/-- What the rest of a worker's steps does. -/
def finalDeeds (answer : Invocation → Execution) (notes : Outcome → List α) (worker : Worker α) :
    List (Deed α) :=
  let ((_, told), called) := Id.run ((worker.finish (recording answer) notes).run [])
  Deed.list called told

/-- What the rest of all steps does, worker by worker, the first of them with the given index. -/
def finalTrace (answer : Invocation → Execution) (notes : Nat → Outcome → List α) (first : Nat)
    (workers : List (Worker α)) : List (Nat × Deed α) :=
  oneByOne first ((workers.zipIdx first).map fun (worker, index) =>
    finalDeeds answer (notes index) worker)

/-- What workers do under a schedule and after it, each deed with the index of its worker. -/
def trace (answer : Invocation → Execution) (notes : Nat → Outcome → List α) (crew : Crew α) :
    List Nat → List (Nat × Deed α)
  | [] => finalTrace answer notes 0 crew.workers
  | index :: schedule =>
    let (next, called) := Id.run ((crew.step (recording answer) notes index).run [])
    (Deed.list called (next.told.drop crew.told.length)).map (index, ·) ++
      next.trace answer notes schedule

/-- The calls of a trace, in their order. -/
def calls (trace : List (Nat × Deed α)) : List (Nat × Invocation) := pick Deed.call? trace

/-- The notes of a trace, in their order. -/
def tellings (trace : List (Nat × Deed α)) : List (Nat × α) := pick Deed.note? trace

theorem finalDeeds_eq {worker : Worker α} (honest : worker.Honest answer)
    (notes : Outcome → List α) : finalDeeds answer notes worker = worker.left answer notes := by
  obtain ⟨called, told, finish, left⟩ := Worker.exists_finish honest notes
  rw [finalDeeds, finish []]
  exact left.symm

theorem Steps.trace_cons {index : Nat} {called : List Invocation} {told : List α} {next : Crew α}
    (steps : crew.Steps answer notes index called told next) (schedule : List Nat) :
    crew.trace answer notes (index :: schedule) =
      (Deed.list called told).map (index, ·) ++ next.trace answer notes schedule := by
  rw [trace, steps.run []]
  change (Deed.list called (next.told.drop crew.told.length)).map (index, ·) ++ _ = _
  rw [steps.hasTold, List.drop_left]

/-- The rest of all steps gives the outcomes, and does the last part of the trace. -/
theorem run_finishFrom (notes : Nat → Outcome → List α) (first : Nat) {workers : List (Worker α)}
    (honest : ∀ worker ∈ workers, worker.Honest answer) (before : List Invocation) :
    let trace := finalTrace answer notes first workers
    (finishFrom (recording answer) notes first workers).run before =
      (((workers.map Worker.case).map (outcomeBy answer), (tellings trace).map Prod.snd),
        before ++ (calls trace).map Prod.snd) := by
  induction workers generalizing first before with
  | nil => exact congrArg _ (List.append_nil before).symm
  | cons worker workers ih =>
    obtain ⟨honestFirst, honestLater⟩ := List.forall_mem_cons.1 honest
    obtain ⟨called, told, finish, left⟩ := Worker.exists_finish honestFirst (notes first)
    have split : finalTrace answer notes first (worker :: workers) =
        (Deed.list called told).map (first, ·) ++
          finalTrace answer notes (first + 1) workers := by
      rw [← left, ← finalDeeds_eq honestFirst]
      rfl
    intro trace
    have told : (tellings trace).map Prod.snd = told ++
        (tellings (finalTrace answer notes (first + 1) workers)).map Prod.snd := by
      simp only [trace, split, tellings, pick_append, List.map_append, map_snd_pick_map_mk,
        Deed.filterMap_note?_list]
    have called : (calls trace).map Prod.snd = called ++
        (calls (finalTrace answer notes (first + 1) workers)).map Prod.snd := by
      simp only [trace, split, calls, pick_append, List.map_append, map_snd_pick_map_mk,
        Deed.filterMap_call?_list]
    rw [told, called, ← List.append_assoc]
    exact (run_bind_of_run (finish before)).trans (run_bind_of_run (ih (first + 1) honestLater _))

/-- A run of the workers is read off its trace. -/
theorem run_trace (honest : crew.Honest answer) (notes : Nat → Outcome → List α)
    (schedule : List Nat) (before : List Invocation) :
    let trace := crew.trace answer notes schedule
    (do
      let last ← schedule.foldlM (step (recording answer) notes) crew
      let (outcomes, told) ← finishFrom (recording answer) notes 0 last.workers
      return (outcomes, last.told ++ told)).run before =
      (((crew.workers.map Worker.case).map (outcomeBy answer),
        crew.told ++ (tellings trace).map Prod.snd), before ++ (calls trace).map Prod.snd) := by
  induction schedule generalizing crew before with
  | nil =>
    rw [List.foldlM_nil, pure_bind]
    exact run_bind_of_run (run_finishFrom notes 0 honest before)
  | cons index schedule ih =>
    obtain ⟨called, told, next, steps⟩ := exists_steps honest notes index
    have later := ih steps.honest (before ++ called)
    rw [List.foldlM_cons, bind_assoc, run_bind_of_run (steps.run before), later, steps.same,
      steps.hasTold, steps.trace_cons]
    simp only [tellings, calls, pick_append, List.map_append, map_snd_pick_map_mk,
      Deed.filterMap_note?_list, Deed.filterMap_call?_list, List.append_assoc]

/-! ## Traces are the interleavings -/

theorem part_finalTrace (honest : crew.Honest answer) (notes : Nat → Outcome → List α)
    (index : Nat) :
    part index (finalTrace answer notes 0 crew.workers) = crew.left answer notes index := by
  rw [finalTrace, part_oneByOne_zero, ownOf, List.getElem?_map,
    List.getElem?_zipIdx, left]
  cases found : crew.workers[index]? with
  | none => rfl
  | some worker =>
    simp only [Option.map_some, Nat.zero_add, Option.getD_some, Option.elim_some]
    exact finalDeeds_eq (honest worker (List.mem_of_getElem? found)) (notes index)

/-- Under any schedule, what is left to each worker is done, in its order. -/
theorem interleaves_trace (honest : crew.Honest answer) (notes : Nat → Outcome → List α)
    (schedule : List Nat) :
    Interleaves (crew.left answer notes) (crew.trace answer notes schedule) := by
  induction schedule generalizing crew with
  | nil => exact part_finalTrace honest notes
  | cons index schedule ih =>
    intro i
    obtain ⟨called, told, next, steps⟩ := exists_steps honest notes index
    rw [steps.trace_cons, part_append, part_map_mk, ih steps.honest i, steps.left i]

/-- A worker can do what stands at the front of what is left to it, before anything else is
done. -/
theorem exists_trace_cons (honest : crew.Honest answer) {index : Nat} {deed : Deed α}
    {later : List (Deed α)} (front : crew.left answer notes index = deed :: later) :
    ∃ (turns : List Nat) (next : Crew α), next.Honest answer ∧
      (∀ i, crew.left answer notes i =
        (if index = i then [deed] else []) ++ next.left answer notes i) ∧
      ∀ schedule, crew.trace answer notes (turns ++ schedule) =
        (index, deed) :: next.trace answer notes schedule := by
  cases found : crew.workers[index]? with
  | none => rw [left, found] at front; cases front
  | some worker =>
    rw [left, found] at front
    rcases Worker.steps_to_front (honest worker (List.mem_of_getElem? found))
      (notes index) front with
      ⟨called, told, next, does, steps⟩ | ⟨judged, called, told, next, judge, does, steps⟩
    · have turn := steps_of_worker honest found steps
      refine ⟨[index], _, turn.honest, does ▸ turn.left, fun schedule => ?_⟩
      rw [List.singleton_append, turn.trace_cons, does]
      rfl
    · -- The case is judged first, which others do not notice.
      have first := steps_of_worker honest found judge
      have second := steps_of_worker first.honest
        (List.getElem?_set_self (List.getElem?_eq_some_iff.1 found).1) steps
      refine ⟨[index, index], _, second.honest, fun i => ?_, fun schedule => ?_⟩
      · rw [first.left i, second.left i, does]
        split <;> rfl
      · rw [List.cons_append, List.singleton_append, first.trace_cons, second.trace_cons, does]
        rfl

/-- Every order in which the workers can do what is left to them is that of some schedule. -/
theorem exists_schedule (honest : crew.Honest answer) {trace : List (Nat × Deed α)}
    (each : Interleaves (crew.left answer notes) trace) :
    ∃ schedule, crew.trace answer notes schedule = trace := by
  -- The worker of the first deed takes turns until it has done it; the rest is then left as is.
  induction trace generalizing crew with
  | nil =>
    have nothing : ∀ index, crew.left answer notes index = [] := fun index => (each index).symm
    exact ⟨[], (interleaves_trace honest notes []).eq_nil nothing⟩
  | cons first trace ih =>
    obtain ⟨index, deed⟩ := first
    have front : crew.left answer notes index = deed :: part index trace := by
      rw [← each index, part_cons, if_pos rfl]
    obtain ⟨turns, next, honestNext, left, does⟩ := exists_trace_cons honest front
    have rest : Interleaves (next.left answer notes) trace := by
      intro i
      have mine := each i
      rw [part_cons, left i] at mine
      by_cases here : index = i
      · rw [if_pos here, if_pos here] at mine
        exact (List.cons.inj mine).2
      · rwa [if_neg here, if_neg here] at mine
    obtain ⟨schedule, rfl⟩ := ih honestNext rest
    exact ⟨turns ++ schedule, does schedule⟩

/-! ## Before the first step -/

theorem honest_ofCases (answer : Invocation → Execution) (cases : List TestCase) :
    (ofCases (α := α) cases).Honest answer := by
  intro worker mem
  obtain ⟨c, _, rfl⟩ := List.mem_map.1 mem
  trivial

theorem map_case_ofCases (cases : List TestCase) :
    (ofCases (α := α) cases).workers.map Worker.case = cases := by
  rw [ofCases, List.map_map]
  exact List.map_id cases

end Crew

end CommandSuite
