import AgentHarness.Library.Machine
import AgentHarness.Runtime.Admission

/-!
# The tasks of the admission controller

The controller with the tasks it created and the shutdown calls in progress, on one event loop. Any
task may be cancelled at any moment, by whoever holds it.
-/

namespace AgentHarness.Runtime

open AgentHarness.Library

set_option autoImplicit false

inductive TaskPhase (Value : Type) where
  | scheduled
  | running (expired : Bool)
  | done (result : Except TaskError Value)

/-- The task `submit` returns. -/
structure AdmittedTask (Value : Type) where
  key : String
  cancelRequested : Bool
  phase : TaskPhase Value

/-- The pending calls of `drain` and `cancel_after_runtime_closed`, with the tasks they found. -/
inductive ShutdownCall where
  | drain (waits : List Nat) (result : Option Bool)
  | cancelAfterRuntimeClosed (waits : List Nat) (finished : Bool)
  deriving DecidableEq, Repr

/-- One label is the code between two suspension points. `run` is a `submit` whose consumer waits
behind a shield, so it adds no label of its own. -/
inductive SlotLabel (Value : Type) where
  | submit (key : String)
  | firstStep (task : Nat)
  | deadline (task : Nat)
  | settle (task : Nat) (ending : Except RuntimeFault Value)
  | cancel (task : Nat)
  | drain
  | cancelAfterRuntimeClosed
  | returns (call : Nat)

variable {Value : Type}

namespace AdmittedTask

def isDone (task : AdmittedTask Value) : Bool :=
  match task.phase with
  | .done _ => true
  | .scheduled | .running _ => false

def finish (task : AdmittedTask Value) (result : Except TaskError Value) : AdmittedTask Value :=
  { task with phase := .done result }

/-- `Task.cancel` has no effect on a task that is done. -/
def cancel (task : AdmittedTask Value) : AdmittedTask Value :=
  if task.isDone then task else { task with cancelRequested := true }

def slot (task : AdmittedTask Value) : String × Bool := (task.key, task.isDone)

@[simp] theorem slot_finish (task : AdmittedTask Value) (result : Except TaskError Value) :
    (task.finish result).slot = (task.key, true) := rfl

@[simp] theorem slot_cancel (task : AdmittedTask Value) : task.cancel.slot = task.slot := by
  unfold cancel
  split
  · rfl
  · rfl

end AdmittedTask

/-- The controller and everything that runs on its event loop. A task is known by its number. -/
structure Slots (Value : Type) where
  admission : AdmissionController Nat
  tasks : List (AdmittedTask Value)
  calls : List ShutdownCall

namespace Slots

def start (limit : Nat) (positive : 1 ≤ limit) : Slots Value where
  admission := .new limit positive
  tasks := []
  calls := []

def activeCount (slots : Slots Value) : Nat := slots.admission.tasks.size

def isDone (slots : Slots Value) (id : Nat) : Bool :=
  (slots.tasks[id]?).any AdmittedTask.isDone

/-- The tasks that are not done. -/
def unfinished (slots : Slots Value) : List Nat :=
  (List.range slots.tasks.length).filter fun id => !slots.isDone id

def setTask (slots : Slots Value) (id : Nat) (task : AdmittedTask Value) : Slots Value :=
  { slots with tasks := slots.tasks.set id task }

def setCall (slots : Slots Value) (index : Nat) (call : ShutdownCall) : Slots Value :=
  { slots with calls := slots.calls.set index call }

/-- The tasks in the table, in the order of their keys. -/
def waits (slots : Slots Value) : List Nat := slots.admission.tasks.entries.map Prod.snd

def submit (slots : Slots Value) (key : String) : Slots Value :=
  match slots.admission.submit key slots.tasks.length with
  | .error _ => slots
  | .ok admission =>
      { slots with admission := admission, tasks := slots.tasks ++ [⟨key, false, .scheduled⟩] }

/-- A cancellation that is pending at the first step is thrown into a coroutine that has not entered
its `try`: the task is cancelled and neither a handler nor the `finally` runs. -/
def firstStep (slots : Slots Value) (id : Nat) (task : AdmittedTask Value) : Option (Slots Value) :=
  match task.phase with
  | .scheduled =>
      if task.cancelRequested then some (slots.setTask id (task.finish (.error .cancelled)))
      else some (slots.setTask id { task with phase := .running false })
  | .running _ | .done _ => none

def deadline (slots : Slots Value) (id : Nat) (task : AdmittedTask Value) : Option (Slots Value) :=
  match task.phase with
  | .running false => some (slots.setTask id { task with phase := .running true })
  | .running true | .scheduled | .done _ => none

/-- The operation ends. A `CancelledError` becomes a timeout only where the deadline is the one
source of the cancellation. -/
def settle (slots : Slots Value) (id : Nat) (task : AdmittedTask Value)
    (ending : Except RuntimeFault Value) : Option (Slots Value) :=
  match task.phase with
  | .running expired =>
      let result := AdmissionController.taskResult (expired && !task.cancelRequested) ending
      some { slots with
        admission := slots.admission.leave task.key ending
        tasks := slots.tasks.set id (task.finish result) }
  | .scheduled | .done _ => none

/-- With nothing in the table `drain` answers at once. -/
def drain (slots : Slots Value) : Slots Value :=
  let result := if slots.waits.isEmpty then some true else none
  { slots with
    admission := slots.admission.drain
    calls := slots.calls ++ [.drain slots.waits result] }

/-- With nothing in the table there is nothing to gather. -/
def cancelAfterRuntimeClosed (slots : Slots Value) : Slots Value :=
  { slots with
    tasks := slots.tasks.mapIdx fun id task => if id ∈ slots.waits then task.cancel else task
    calls := slots.calls ++ [.cancelAfterRuntimeClosed slots.waits slots.waits.isEmpty] }

/-- `asyncio.wait` returns when its tasks are done or its time is over, `asyncio.gather` only when
they are done. -/
def returns (slots : Slots Value) (index : Nat) : Option (Slots Value) :=
  match slots.calls[index]? with
  | some (.drain waits none) =>
      some (slots.setCall index (.drain waits (some (waits.all slots.isDone))))
  | some (.cancelAfterRuntimeClosed waits false) =>
      if waits.all slots.isDone then
        some (slots.setCall index (.cancelAfterRuntimeClosed waits true))
      else none
  | _ => none

def step (slots : Slots Value) : SlotLabel Value → Option (Slots Value)
  | .submit key => some (slots.submit key)
  | .firstStep id => (slots.tasks[id]?).bind (slots.firstStep id)
  | .deadline id => (slots.tasks[id]?).bind (slots.deadline id)
  | .settle id ending => (slots.tasks[id]?).bind fun task => slots.settle id task ending
  | .cancel id => (slots.tasks[id]?).map fun task => slots.setTask id task.cancel
  | .drain => some slots.drain
  | .cancelAfterRuntimeClosed => some slots.cancelAfterRuntimeClosed
  | .returns index => slots.returns index

end Slots

def slotMachine (Value : Type) : Machine (Slots Value) (SlotLabel Value) where
  step := Slots.step

namespace Slots

variable {slots next : Slots Value} {label : SlotLabel Value}

/-! ## What one step does to the table -/

def slotOf (slots : Slots Value) (id : Nat) : Option (String × Bool) :=
  (slots.tasks[id]?).map AdmittedTask.slot

theorem slot_of_set_task (id other : Nat) (old task : AdmittedTask Value)
    (found : slots.tasks[id]? = some old) :
    (slots.setTask id task).slotOf other =
      if other = id then some task.slot else slots.slotOf other := by
  have bound : id < slots.tasks.length := (List.getElem?_eq_some_iff.mp found).1
  unfold slotOf setTask
  rw [List.getElem?_set]
  by_cases same : other = id
  · subst same
    simp [bound]
  · have other_ne : id ≠ other := fun equal => same equal.symm
    simp [same, other_ne]

theorem mem_unfinished_iff (id : Nat) :
    id ∈ slots.unfinished ↔ ∃ key, slots.slotOf id = some (key, false) := by
  unfold unfinished slotOf isDone
  rw [List.mem_filter, List.mem_range]
  cases found : slots.tasks[id]? with
  | none =>
      have outside : slots.tasks.length ≤ id := List.getElem?_eq_none_iff.mp found
      simp
      omega
  | some task =>
      have bound : id < slots.tasks.length := (List.getElem?_eq_some_iff.mp found).1
      simp [bound, AdmittedTask.slot]

theorem is_done_of_slot {id : Nat} {key : String} (held : slots.slotOf id = some (key, false)) :
    slots.isDone id = false := by
  obtain ⟨task, found, view⟩ := Option.map_eq_some_iff.mp held
  have unfinished := congrArg Prod.snd view
  simpa [isDone, found, AdmittedTask.slot] using unfinished

/-- The table, and what the tasks hold, after one step. -/
inductive TableStep (slots : Slots Value) : SlotLabel Value → Slots Value → Prop where
  | kept {label : SlotLabel Value} {next : Slots Value}
      (table : next.admission.tasks = slots.admission.tasks)
      (accepting : next.admission.accepting = true → slots.admission.accepting = true)
      (same : ∀ id, next.slotOf id = slots.slotOf id) : TableStep slots label next
  | admitted {next : Slots Value} (key : String) (free : key ∉ slots.admission.tasks.keys)
      (accepting : slots.admission.accepting = true)
      (table : next.admission.tasks =
        slots.admission.tasks.insertNew key slots.tasks.length free)
      (added : ∀ id, next.slotOf id =
        if id = slots.tasks.length then some (key, false) else slots.slotOf id) :
      TableStep slots (.submit key) next
  | settled {next : Slots Value} (id : Nat) (key : String) (ending : Except RuntimeFault Value)
      (held : slots.slotOf id = some (key, false))
      (table : next.admission.tasks = slots.admission.tasks.pop key)
      (accepting : next.admission.accepting = true → slots.admission.accepting = true)
      (ended : ∀ other, next.slotOf other =
        if other = id then some (key, true) else slots.slotOf other) :
      TableStep slots (.settle id ending) next
  | dropped {next : Slots Value} (id : Nat) (task : AdmittedTask Value)
      (found : slots.tasks[id]? = some task) (unfinished : task.isDone = false)
      (requested : task.cancelRequested = true)
      (table : next.admission = slots.admission)
      (ended : next.slotOf id = some (task.key, true)) : TableStep slots (.firstStep id) next

/-- A task that keeps its key and is as unfinished as before changes nothing the table shows. -/
theorem table_step_set_task (id : Nat) (old task : AdmittedTask Value)
    (found : slots.tasks[id]? = some old) (same : task.slot = old.slot) :
    TableStep slots label (slots.setTask id task) := by
  apply TableStep.kept
  · rfl
  · exact fun accepting => accepting
  · intro other
    rw [slot_of_set_task id other old task found]
    by_cases named : other = id
    · subst named
      simp [slotOf, found, same]
    · simp [named]

theorem table_step_submit (key : String) :
    TableStep slots (.submit key) (slots.submit key) := by
  unfold submit
  cases answer : slots.admission.submit key slots.tasks.length with
  | error rejection =>
      exact .kept rfl (fun accepting => accepting) fun _ => rfl
  | ok admission =>
      obtain ⟨accepting, -, free, rfl⟩ :=
        (AdmissionController.submit_eq_ok_iff slots.admission admission key _).mp answer
      apply TableStep.admitted key free accepting rfl
      intro id
      unfold slotOf
      rw [List.getElem?_append]
      rcases Nat.lt_trichotomy id slots.tasks.length with before | here | after
      · simp [before, Nat.ne_of_lt before]
      · simp [here, AdmittedTask.slot, AdmittedTask.isDone]
      · have outside : slots.tasks[id]? = none := by
          rw [List.getElem?_eq_none_iff]
          omega
        have single : ¬ id - slots.tasks.length < 1 := by omega
        have notBefore : ¬ id < slots.tasks.length := by omega
        have other : id ≠ slots.tasks.length := by omega
        simp [notBefore, other, single]

theorem table_step (stepped : slots.step label = some next) : TableStep slots label next := by
  cases label with
  | submit key =>
      cases stepped
      exact table_step_submit key
  | firstStep id =>
      obtain ⟨task, found, started⟩ := Option.bind_eq_some_iff.mp stepped
      unfold firstStep at started
      cases phase : task.phase with
      | scheduled =>
          have unfinished : task.isDone = false := by simp [AdmittedTask.isDone, phase]
          simp only [phase] at started
          by_cases requested : task.cancelRequested = true
          · rw [if_pos requested] at started
            cases started
            apply TableStep.dropped id task found unfinished requested
            · rfl
            · rw [slot_of_set_task id id task _ found, if_pos rfl, AdmittedTask.slot_finish]
          · rw [if_neg requested] at started
            cases started
            apply table_step_set_task id task _ found
            simp [AdmittedTask.slot, AdmittedTask.isDone, phase]
      | running expired => simp [phase] at started
      | done result => simp [phase] at started
  | deadline id =>
      obtain ⟨task, found, passed⟩ := Option.bind_eq_some_iff.mp stepped
      unfold deadline at passed
      split at passed
      · rename_i phase
        cases passed
        apply table_step_set_task id task _ found
        simp [AdmittedTask.slot, AdmittedTask.isDone, phase]
      all_goals cases passed
  | settle id ending =>
      obtain ⟨task, found, ended⟩ := Option.bind_eq_some_iff.mp stepped
      unfold settle at ended
      split at ended
      · rename_i expired phase
        cases ended
        apply TableStep.settled id task.key ending
        · simp [slotOf, found, AdmittedTask.slot, AdmittedTask.isDone, phase]
        · rfl
        · intro accepting
          exact (Bool.and_eq_true_iff.mp accepting).1
        · intro other
          exact slot_of_set_task id other task _ found
      all_goals cases ended
  | cancel id =>
      obtain ⟨task, found, rfl⟩ := Option.map_eq_some_iff.mp stepped
      exact table_step_set_task id task _ found task.slot_cancel
  | drain =>
      cases stepped
      exact .kept rfl (fun accepting => nomatch accepting) fun _ => rfl
  | cancelAfterRuntimeClosed =>
      cases stepped
      apply TableStep.kept
      · rfl
      · exact fun accepting => accepting
      · intro id
        simp only [slotOf, cancelAfterRuntimeClosed, List.getElem?_mapIdx, Option.map_map]
        cases slots.tasks[id]? with
        | none => rfl
        | some task =>
            simp only [Option.map_some, Function.comp_apply]
            split
            · rw [AdmittedTask.slot_cancel]
            · rfl
  | returns index =>
      have stepped : slots.returns index = some next := stepped
      unfold returns at stepped
      split at stepped
      · cases stepped
        exact .kept rfl (fun accepting => accepting) fun _ => rfl
      · split at stepped
        · cases stepped
          exact .kept rfl (fun accepting => accepting) fun _ => rfl
        · cases stepped
      · cases stepped

/-! ## What one step does to the shutdown calls -/

/-- Where a call of the next state comes from. -/
inductive CallStep (slots : Slots Value) (next : Slots Value) (index : Nat) :
    SlotLabel Value → ShutdownCall → Prop where
  | kept {label : SlotLabel Value} {call : ShutdownCall} (found : slots.calls[index]? = some call) :
      CallStep slots next index label call
  | drains (result : Option Bool) (closed : next.admission.accepting = false)
      (table : next.admission.tasks = slots.admission.tasks)
      (answered : result = some true → slots.waits = []) :
      CallStep slots next index .drain (.drain slots.waits result)
  | cancels (finished : Bool) (table : next.admission.tasks = slots.admission.tasks)
      (answered : finished = true → slots.waits = []) :
      CallStep slots next index .cancelAfterRuntimeClosed
        (.cancelAfterRuntimeClosed slots.waits finished)
  | drained (waits : List Nat) (found : slots.calls[index]? = some (.drain waits none))
      (admission : next.admission = slots.admission) :
      CallStep slots next index (.returns index)
        (.drain waits (some (waits.all slots.isDone)))
  | gathered (waits : List Nat)
      (found : slots.calls[index]? = some (.cancelAfterRuntimeClosed waits false))
      (ended : waits.all slots.isDone = true) (admission : next.admission = slots.admission) :
      CallStep slots next index (.returns index) (.cancelAfterRuntimeClosed waits true)

theorem kept_of_calls {index : Nat} {call : ShutdownCall} (same : next.calls = slots.calls)
    (found : next.calls[index]? = some call) : CallStep slots next index label call :=
  .kept (same ▸ found)

/-- A call that was appended is either an earlier one or the new one. -/
theorem call_of_append {calls : List ShutdownCall} {added call : ShutdownCall} {index : Nat}
    (found : (calls ++ [added])[index]? = some call) : calls[index]? = some call ∨ call = added := by
  rw [List.getElem?_append] at found
  split at found
  · exact .inl found
  · right
    have member := List.mem_of_getElem? found
    exact List.mem_singleton.mp member

theorem call_step_returns {index other : Nat} {call : ShutdownCall}
    (stepped : slots.returns index = some next) (found : next.calls[other]? = some call) :
    CallStep slots next other (.returns index) call := by
  have rewritten : ∀ old fresh : ShutdownCall, slots.calls[index]? = some old →
      next = slots.setCall index fresh →
      (other ≠ index ∧ slots.calls[other]? = some call) ∨ (other = index ∧ call = fresh) := by
    intro old fresh before after
    have bound := (List.getElem?_eq_some_iff.mp before).1
    subst after
    simp only [setCall, List.getElem?_set] at found
    by_cases same : index = other
    · subst same
      simp only [if_pos, if_pos bound, Option.some.injEq] at found
      exact .inr ⟨rfl, found.symm⟩
    · rw [if_neg same] at found
      exact .inl ⟨fun equal => same equal.symm, found⟩
  unfold returns at stepped
  split at stepped
  · rename_i waits before
    cases stepped
    rcases rewritten _ _ before rfl with ⟨-, earlier⟩ | ⟨rfl, rfl⟩
    · exact .kept earlier
    · exact .drained waits before rfl
  · rename_i waits before
    split at stepped
    · rename_i ended
      cases stepped
      rcases rewritten _ _ before rfl with ⟨-, earlier⟩ | ⟨rfl, rfl⟩
      · exact .kept earlier
      · exact .gathered waits before ended rfl
    · cases stepped
  · cases stepped

theorem call_step {index : Nat} {call : ShutdownCall} (stepped : slots.step label = some next)
    (found : next.calls[index]? = some call) : CallStep slots next index label call := by
  cases label with
  | submit key =>
      cases stepped
      apply kept_of_calls _ found
      unfold submit
      split
      · rfl
      · rfl
  | firstStep id =>
      obtain ⟨task, -, started⟩ := Option.bind_eq_some_iff.mp stepped
      unfold firstStep at started
      apply kept_of_calls _ found
      split at started
      · split at started
        · cases started
          rfl
        · cases started
          rfl
      all_goals cases started
  | deadline id =>
      obtain ⟨task, -, passed⟩ := Option.bind_eq_some_iff.mp stepped
      unfold deadline at passed
      apply kept_of_calls _ found
      split at passed
      · cases passed
        rfl
      all_goals cases passed
  | settle id ending =>
      obtain ⟨task, -, ended⟩ := Option.bind_eq_some_iff.mp stepped
      unfold settle at ended
      apply kept_of_calls _ found
      split at ended
      · cases ended
        rfl
      all_goals cases ended
  | cancel id =>
      obtain ⟨task, -, rfl⟩ := Option.map_eq_some_iff.mp stepped
      exact .kept found
  | drain =>
      cases stepped
      rcases call_of_append found with earlier | rfl
      · exact .kept earlier
      · apply CallStep.drains
        · rfl
        · rfl
        · intro answered
          by_contra pending
          simp [pending] at answered
  | cancelAfterRuntimeClosed =>
      cases stepped
      rcases call_of_append found with earlier | rfl
      · exact .kept earlier
      · apply CallStep.cancels
        · rfl
        · exact List.isEmpty_iff.mp
  | returns other => exact call_step_returns stepped found

end Slots

end AgentHarness.Runtime
