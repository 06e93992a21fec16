import AgentHarness.Runtime.AdmissionTasks

/-!
# What shutting down leaves of the admitted tasks

A task that is not done is in the table, also where cancelled tasks have left their slots behind, so
cancelling the table and gathering it leaves no task that is not done.
-/

namespace AgentHarness.Runtime

open AgentHarness.Library

set_option autoImplicit false

variable {Value : Type}

namespace Slots

variable {slots next : Slots Value} {label : SlotLabel Value}

/-- Every task that is not done is in the table, under its key. -/
def Tabled (slots : Slots Value) : Prop :=
  ∀ id key, slots.slotOf id = some (key, false) → (key, id) ∈ slots.admission.tasks.entries

theorem tabled_start (limit : Nat) (positive : 1 ≤ limit) :
    (start limit positive : Slots Value).Tabled := by
  intro id key held
  simp [slotOf, start] at held

/-- A task whose first step is due is ended or goes on, and the others stay as they are. -/
theorem slot_of_first_step {id other : Nat} {key : String}
    (stepped : slots.step (.firstStep id) = some next)
    (held : next.slotOf other = some (key, false)) : slots.slotOf other = some (key, false) := by
  have ⟨task, found, started⟩ := Option.bind_eq_some_iff.mp stepped
  unfold firstStep at started
  cases phase : task.phase with
  | scheduled =>
      simp only [phase] at started
      split_ifs at started
      · cases started
        rw [slot_of_set_task id other task _ found] at held
        split_ifs at held with here
        · simp at held
        · exact held
      · cases started
        rw [slot_of_set_task id other task _ found] at held
        split_ifs at held with here
        · rw [here, ← held]
          simp [slotOf, found, AdmittedTask.slot, AdmittedTask.isDone, phase]
        · exact held
  | running expired => simp [phase] at started
  | done result => simp [phase] at started

/-- A task that is not done was not done before, or was admitted by this step. -/
theorem unfinished_step (stepped : slots.step label = some next) {id : Nat} {key : String}
    (held : next.slotOf id = some (key, false)) :
    slots.slotOf id = some (key, false) ∨ slots.admission.accepting = true := by
  cases table_step stepped with
  | kept _ _ same =>
      left
      rw [← same]
      exact held
  | admitted fresh free accepting table added => exact .inr accepting
  | settled ended name ending slot table _ after =>
      rw [after] at held
      split_ifs at held
      · simp at held
      · exact .inl held
  | dropped ended task found unfinished requested table after =>
      exact .inl (slot_of_first_step stepped held)

theorem tabled_step (tabled : slots.Tabled) (stepped : slots.step label = some next) :
    next.Tabled := by
  intro id key held
  cases table_step stepped with
  | kept table _ same =>
      rw [table]
      apply tabled
      rw [← same]
      exact held
  | admitted fresh free accepting table added =>
      rw [table, Dict.mem_insert_new]
      rw [added] at held
      split_ifs at held with here
      · right
        simp only [Option.some.injEq, Prod.mk.injEq, and_true] at held
        rw [held, here]
      · exact .inl (tabled id key held)
  | settled ended name ending slot table _ after =>
      rw [after] at held
      split_ifs at held with here
      · simp at held
      · rw [table, Dict.mem_pop]
        apply And.intro (tabled id key held)
        intro same
        have same : key = name := same
        rw [same] at held
        have one := slots.admission.tasks.value_unique (tabled id name held)
          (tabled ended name slot)
        exact here one
  | dropped ended task found unfinished requested table after =>
      rw [table]
      exact tabled id key (slot_of_first_step stepped held)

theorem accepting_step (stepped : slots.step label = some next)
    (closed : slots.admission.accepting = false) : next.admission.accepting = false := by
  apply Bool.eq_false_iff.mpr
  intro opened
  cases table_step stepped with
  | kept _ accepting _ =>
      rw [accepting opened] at closed
      cases closed
  | admitted fresh free accepting _ _ =>
      rw [accepting] at closed
      cases closed
  | settled ended name ending slot _ accepting _ =>
      rw [accepting opened] at closed
      cases closed
  | dropped ended task found unfinished requested table _ =>
      rw [table, closed] at opened
      cases opened

/-- Nothing new is admitted, so what is not done only becomes less. -/
theorem unfinished_within (stepped : slots.step label = some next)
    (closed : slots.admission.accepting = false) {id : Nat} (member : id ∈ next.unfinished) :
    id ∈ slots.unfinished := by
  have ⟨key, held⟩ := (mem_unfinished_iff id).mp member
  rcases unfinished_step stepped held with before | accepting
  · exact (mem_unfinished_iff id).mpr ⟨key, before⟩
  · rw [closed] at accepting
    cases accepting

theorem unfinished_mem_waits (tabled : slots.Tabled) {id : Nat} (member : id ∈ slots.unfinished) :
    id ∈ slots.waits := by
  have ⟨key, held⟩ := (mem_unfinished_iff id).mp member
  exact List.mem_map.mpr ⟨(key, id), tabled id key held, rfl⟩

/-- Tasks that are waited for and done leave nothing that is not done. -/
theorem nothing_unfinished_of_waits {waits : List Nat}
    (covers : ∀ id ∈ slots.unfinished, id ∈ waits) (done : waits.all slots.isDone = true) :
    slots.unfinished = [] := by
  apply List.eq_nil_iff_forall_not_mem.mpr
  intro id member
  have isDone := List.all_eq_true.mp done id (covers id member)
  have pending := (List.mem_filter.mp member).2
  rw [isDone] at pending
  cases pending

end Slots

end AgentHarness.Runtime
