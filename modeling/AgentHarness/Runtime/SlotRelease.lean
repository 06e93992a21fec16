import AgentHarness.Runtime.AdmissionTasks
import Mathlib.Data.List.Perm.Subperm

/-!
# The slots of the admission controller

A slot is reserved by `submit` and given back by the `finally` of `execute`, so a task that is
cancelled before its first step ends without reaching the statement that gives its slot back.
-/

namespace AgentHarness.Runtime

open AgentHarness.Library

set_option autoImplicit false

variable {Value : Type}

namespace Slots

/-- A slot is held by a task that is not done, and by the time a shutdown call has confirmed that
the tasks ended there is none left. -/
structure GivenBack (slots next : Slots Value) : Prop where
  live : ∀ key id, (key, id) ∈ next.admission.tasks.entries →
    ∃ task, next.tasks[id]? = some task ∧ task.key = key ∧ task.isDone = false
  busy : ∀ key id, next.admission.submit key id = .error .conversationBusy →
    ∃ task ∈ next.tasks, task.key = key ∧ task.isDone = false
  capacity : next.activeCount ≤ next.unfinished.length
  drained : ∀ waits, ShutdownCall.drain waits (some true) ∈ next.calls → next.activeCount = 0
  closed : ∀ (index : Nat) (waits : List Nat),
    next.calls[index]? = some (ShutdownCall.cancelAfterRuntimeClosed waits true) →
    slots.calls[index]? ≠ some (ShutdownCall.cancelAfterRuntimeClosed waits true) →
    next.activeCount = 0

/-- No task takes its first step with a cancellation pending, and `cancel_after_runtime_closed`
returns when no task is unfinished but those it cancelled. -/
def Timely (slots : Slots Value) : SlotLabel Value → Prop
  | .firstStep id => ∀ task, slots.tasks[id]? = some task → task.cancelRequested = false
  | .returns index => ∀ waits,
      slots.calls[index]? = some (ShutdownCall.cancelAfterRuntimeClosed waits false) →
        ∀ id ∈ slots.unfinished, id ∈ waits
  | _ => True

instance decidableTimely (slots : Slots Value) :
    (label : SlotLabel Value) → Decidable (slots.Timely label)
  | .firstStep id =>
      inferInstanceAs (Decidable (∀ task ∈ slots.tasks[id]?, task.cancelRequested = false))
  | .returns index =>
      match pending : slots.calls[index]? with
      | some (.cancelAfterRuntimeClosed waits false) =>
          decidable_of_iff (∀ id ∈ slots.unfinished, id ∈ waits) (by simp [Timely, pending])
      | none | some (.drain _ _) | some (.cancelAfterRuntimeClosed _ true) =>
          isTrue (by simp [Timely, pending])
  | .submit _ | .deadline _ | .settle _ _ | .cancel _ | .drain | .cancelAfterRuntimeClosed =>
      isTrue trivial

variable {slots next : Slots Value} {label : SlotLabel Value}

/-! ## The invariant -/

/-- The table is exactly the tasks that are not done, and what a pending `drain` still waits for is
everything that is left of it. -/
structure Held (slots : Slots Value) : Prop where
  table : ∀ key id, (key, id) ∈ slots.admission.tasks.entries ↔
    slots.slotOf id = some (key, false)
  drains : ∀ waits result, ShutdownCall.drain waits result ∈ slots.calls →
    slots.admission.accepting = false ∧
      (∀ key id, (key, id) ∈ slots.admission.tasks.entries → id ∈ waits) ∧
      (result = some true → slots.admission.tasks.entries = [])

theorem held_start (limit : Nat) (positive : 1 ≤ limit) :
    (start limit positive : Slots Value).Held where
  table key id := by simp [start, AdmissionController.new, Dict.empty, slotOf]
  drains waits result member := by simp [start] at member

namespace Held

/-- A table whose tasks are all done is empty. -/
theorem empty_of_done (held : slots.Held) (waits : List Nat)
    (covered : ∀ key id, (key, id) ∈ slots.admission.tasks.entries → id ∈ waits)
    (ended : waits.all slots.isDone = true) : slots.admission.tasks.entries = [] := by
  apply List.eq_nil_iff_forall_not_mem.mpr
  intro entry member
  have unfinished := is_done_of_slot ((held.table entry.1 entry.2).mp member)
  have done := List.all_eq_true.mp ended entry.2 (covered entry.1 entry.2 member)
  rw [unfinished] at done
  cases done

theorem table_of_step (held : slots.Held) (timely : slots.Timely label)
    (stepped : slots.step label = some next) (key : String) (id : Nat) :
    (key, id) ∈ next.admission.tasks.entries ↔ next.slotOf id = some (key, false) := by
  cases table_step stepped with
  | kept table _ same =>
      rw [table, same]
      exact held.table key id
  | admitted fresh free _ table added =>
      rw [table, Dict.mem_insert_new, held.table, added]
      by_cases here : id = slots.tasks.length
      · have unknown : slots.slotOf id = none := by simp [slotOf, here]
        simp [here ▸ unknown, here, eq_comm]
      · simp [here]
  | settled ended name ending slot table _ after =>
      rw [table, Dict.mem_pop, held.table, after]
      by_cases here : id = ended
      · subst here
        simp only [slot, if_pos, Option.some.injEq, Prod.mk.injEq]
        constructor
        · intro kept
          exact absurd kept.1.1.symm kept.2
        · intro impossible
          exact absurd impossible.2 (by simp)
      · rw [if_neg here]
        constructor
        · exact fun kept => kept.1
        · intro kept
          apply And.intro kept
          intro same
          have one := slots.admission.tasks.value_unique ((held.table name id).mpr (same ▸ kept))
            ((held.table name ended).mpr slot)
          exact here one
  | dropped task old found _ requested _ _ =>
      have prompt := timely old found
      rw [prompt] at requested
      cases requested

theorem table_shrinks (stepped : slots.step label = some next)
    (closed : slots.admission.accepting = false) :
    next.admission.accepting = false ∧
      ∀ entry ∈ next.admission.tasks.entries, entry ∈ slots.admission.tasks.entries := by
  have stays (accepting : next.admission.accepting = true → slots.admission.accepting = true) :
      next.admission.accepting = false := by
    by_contra reopened
    have opened := accepting ((Bool.not_eq_false _).mp reopened)
    rw [closed] at opened
    cases opened
  cases table_step stepped with
  | kept table accepting _ => exact ⟨stays accepting, fun entry member => table ▸ member⟩
  | admitted key free accepting _ _ =>
      rw [closed] at accepting
      cases accepting
  | settled id key ending _ table accepting _ =>
      apply And.intro (stays accepting)
      intro entry member
      rw [table, Dict.mem_pop] at member
      exact member.1
  | dropped id task found _ requested admission _ =>
      exact ⟨admission ▸ closed, fun entry member => admission ▸ member⟩

theorem step (held : slots.Held) (timely : slots.Timely label)
    (stepped : slots.step label = some next) : next.Held where
  table := held.table_of_step timely stepped
  drains waits result member := by
    obtain ⟨index, found⟩ := List.mem_iff_getElem?.mp member
    cases call_step stepped found with
    | kept earlier =>
        obtain ⟨closed, covered, empty⟩ := held.drains waits result (List.mem_of_getElem? earlier)
        obtain ⟨stays, fewer⟩ := table_shrinks stepped closed
        refine ⟨stays, fun key id entry => covered key id (fewer (key, id) entry), ?_⟩
        intro answered
        apply List.eq_nil_iff_forall_not_mem.mpr
        intro entry left
        simpa [empty answered] using fewer entry left
    | drains _ closed table answered =>
        refine ⟨closed, ?_, ?_⟩
        · intro key id entry
          rw [table] at entry
          exact List.mem_map.mpr ⟨(key, id), entry, rfl⟩
        · intro confirmed
          rw [table]
          exact List.map_eq_nil_iff.mp (answered confirmed)
    | drained _ earlier admission =>
        obtain ⟨closed, covered, -⟩ := held.drains waits none (List.mem_of_getElem? earlier)
        rw [admission]
        refine ⟨closed, covered, ?_⟩
        intro confirmed
        exact held.empty_of_done waits covered (Option.some.inj confirmed)

theorem capacity (held : slots.Held) : slots.activeCount ≤ slots.unfinished.length := by
  have distinct : slots.waits.Nodup := by
    have keys : (slots.admission.tasks.entries.map Prod.fst).Nodup := slots.admission.tasks.nodup
    unfold waits
    rw [List.nodup_map_iff_inj_on (List.Nodup.of_map Prod.fst keys)]
    intro left leftMem right rightMem same
    have leftSlot := (held.table left.1 left.2).mp leftMem
    have rightSlot := (held.table right.1 right.2).mp rightMem
    rw [same, rightSlot] at leftSlot
    simp only [Option.some.injEq, Prod.mk.injEq, and_true] at leftSlot
    exact Prod.ext leftSlot.symm same
  have unfinished : slots.waits ⊆ slots.unfinished := by
    intro id member
    obtain ⟨entry, found, rfl⟩ := List.mem_map.mp member
    exact (mem_unfinished_iff entry.2).mpr ⟨entry.1, (held.table entry.1 entry.2).mp found⟩
  have bound := (distinct.subperm unfinished).length_le
  simpa [waits, activeCount, Dict.size] using bound

/-- A slot in the table is held by a task that is not done. -/
theorem holder (held : slots.Held) {key : String} {id : Nat}
    (entry : (key, id) ∈ slots.admission.tasks.entries) :
    ∃ task, slots.tasks[id]? = some task ∧ task.key = key ∧ task.isDone = false := by
  obtain ⟨task, found, slot⟩ := Option.map_eq_some_iff.mp ((held.table key id).mp entry)
  exact ⟨task, found, congrArg Prod.fst slot, congrArg Prod.snd slot⟩

theorem active_count_eq_zero (empty : slots.admission.tasks.entries = []) :
    slots.activeCount = 0 := by
  simp [activeCount, Dict.size, empty]

/-- When every unfinished task is done, so is every task that holds a slot. -/
theorem given_back (held : slots.Held) (timely : slots.Timely label)
    (stepped : slots.step label = some next) : slots.GivenBack next where
  live key id entry := (held.step timely stepped).holder entry
  busy key id refused := by
    have taken : key ∈ next.admission.tasks.keys :=
      next.admission.submit_busy key id refused
    obtain ⟨holder, entry⟩ := (next.admission.tasks.mem_keys_iff key).mp taken
    obtain ⟨task, found, named, unfinished⟩ := (held.step timely stepped).holder entry
    exact ⟨task, List.mem_of_getElem? found, named, unfinished⟩
  capacity := (held.step timely stepped).capacity
  drained waits confirmed := by
    have later := (held.step timely stepped).drains waits (some true) confirmed
    exact active_count_eq_zero (later.2.2 rfl)
  closed index waits finished pending := by
    apply active_count_eq_zero
    cases call_step stepped finished with
    | kept earlier => exact absurd earlier pending
    | cancels _ table answered =>
        rw [table]
        exact List.map_eq_nil_iff.mp (answered rfl)
    | gathered _ before ended admission =>
        rw [admission]
        apply held.empty_of_done waits _ ended
        intro key id entry
        have unfinished : id ∈ slots.unfinished :=
          (mem_unfinished_iff id).mpr ⟨key, (held.table key id).mp entry⟩
        exact timely waits before id unfinished

/-- The slot of a task that is dropped stays in the table. -/
theorem not_dropped (held : slots.Held) {id : Nat} {task : AdmittedTask Value}
    (found : slots.tasks[id]? = some task) (stepped : slots.step (.firstStep id) = some next)
    (back : slots.GivenBack next) : task.cancelRequested = false := by
  by_contra requested
  have requested : task.cancelRequested = true := (Bool.not_eq_false _).mp requested
  simp only [Slots.step, found, Option.bind_some, firstStep, requested, if_true] at stepped
  split at stepped
  · rename_i phase
    cases stepped
    have slot : slots.slotOf id = some (task.key, false) := by
      simp [slotOf, found, AdmittedTask.slot, AdmittedTask.isDone, phase]
    obtain ⟨left, kept, -, unfinished⟩ := back.live task.key id ((held.table task.key id).mpr slot)
    have after := slot_of_set_task id id task (task.finish (.error .cancelled)) found
    rw [slotOf, kept, if_pos rfl] at after
    have ended : left.isDone = true := congrArg Prod.snd (Option.some.inj after)
    rw [unfinished] at ended
    cases ended
  all_goals cases stepped

/-- Where `cancel_after_runtime_closed` returns with an empty table, no task is unfinished. -/
theorem nothing_unfinished (held : slots.Held) {index : Nat} {waits : List Nat}
    (pending : slots.calls[index]? = some (.cancelAfterRuntimeClosed waits false))
    (stepped : slots.step (.returns index) = some next) (back : slots.GivenBack next) :
    slots.unfinished = [] := by
  simp only [Slots.step, returns, pending] at stepped
  split at stepped
  · cases stepped
    have bound := (List.getElem?_eq_some_iff.mp pending).1
    have finished : (slots.setCall index (.cancelAfterRuntimeClosed waits true)).calls[index]? =
        some (.cancelAfterRuntimeClosed waits true) := by
      simp [setCall, bound]
    have empty := back.closed index waits finished (by simp [pending])
    apply List.eq_nil_iff_forall_not_mem.mpr
    intro id unfinished
    obtain ⟨key, slot⟩ := (mem_unfinished_iff id).mp unfinished
    have entry := (held.table key id).mpr slot
    have none_left : slots.admission.tasks.entries = [] := List.length_eq_zero_iff.mp empty
    simp [none_left] at entry
  · cases stepped

/-- A step that gives the slots back was timely. -/
theorem timely (held : slots.Held) (stepped : slots.step label = some next)
    (back : slots.GivenBack next) : slots.Timely label := by
  cases label with
  | firstStep id => exact fun task found => held.not_dropped found stepped back
  | returns index =>
      intro waits pending id unfinished
      rw [held.nothing_unfinished pending stepped back] at unfinished
      cases unfinished
  | submit _ | deadline _ | settle _ _ | cancel _ | drain | cancelAfterRuntimeClosed => trivial

end Held

/-- In every schedule the slots are given back at every step exactly when no task is cancelled
before its first step and no task admitted during `cancel_after_runtime_closed` outlives it. -/
theorem slots_given_back_iff (limit : Nat) (positive : 1 ≤ limit)
    (labels : List (SlotLabel Value)) :
    (slotMachine Value).EachStep (fun slots _ next => slots.GivenBack next) (start limit positive)
        labels ↔
      (slotMachine Value).EachStep (fun slots label _ => slots.Timely label)
        (start limit positive) labels := by
  apply (slotMachine Value).each_step_iff_guard Held
  · intro slots label next held timely stepped
    exact held.step timely stepped
  · intro slots label next held stepped
    constructor
    · exact held.timely stepped
    · exact fun timely => held.given_back timely stepped
  · exact held_start limit positive

/-- One operation that is cancelled while it runs, one whose deadline passes, and a `drain`. -/
def servedRun : List (SlotLabel Unit) :=
  [.submit "left", .submit "right", .firstStep 0, .firstStep 1, .cancel 0, .deadline 1,
    .settle 0 (.error .cancelled), .drain, .settle 1 (.error .cancelled), .returns 0]

theorem slots_given_back_served :
    (slotMachine Unit).EachStep (fun slots _ next => slots.GivenBack next)
      (start 2 (by decide)) servedRun :=
  (slots_given_back_iff 2 (by decide) servedRun).mpr (by decide +kernel)

/-- `cancel_after_runtime_closed` right after a `submit`. -/
def droppedRun : List (SlotLabel Unit) :=
  [.submit "conversation", .cancelAfterRuntimeClosed, .firstStep 0, .returns 0]

theorem dropped_task_keeps_slot :
    ((slotMachine Unit).run (start 1 (by decide)) droppedRun).map
        (fun slots => (slots.activeCount, slots.isDone 0, slots.calls)) =
      some (1, true, [.cancelAfterRuntimeClosed [0] true]) ∧
    ¬ (slotMachine Unit).EachStep (fun slots _ next => slots.GivenBack next)
      (start 1 (by decide)) droppedRun := by
  constructor
  · decide +kernel
  · intro each
    have cancelled := ((each _ rfl).2 _ rfl).2
    have returned := ((cancelled _ rfl).2 _ rfl).1
    have empty := returned.closed 0 [0] rfl (by decide +kernel)
    cases empty

end Slots

end AgentHarness.Runtime
