import AgentHarness.Core.HeldResources
import AgentHarness.Runtime.SlotShutdown

/-!
# What a lifespan does to the admitted tasks

The shutdown calls the coroutine makes, and what is left of the tasks behind each of them.
-/

namespace AgentHarness.Core

open AgentHarness.Library AgentHarness.Runtime

set_option autoImplicit false

variable {Value : Type}

/-- The points behind the shutdown of the tasks. -/
def Point.behindTasks : Point → Bool
  | .unwinding | .closingReadiness | .exitingRuntime | .ended => true
  | _ => false

namespace Process

variable {process next : Process Value}

/-- The shutdown calls the coroutine has made, and that nothing is admitted after the first. -/
def AdmissionFits (point : Point) (slots : Slots Value) : Prop :=
  match point with
  | .serving => slots.calls = []
  | .draining call => call = 0 ∧ slots.admission.accepting = false ∧
      ∃ waits result, slots.calls = [.drain waits result]
  | .closingRuntime => slots.admission.accepting = false ∧
      ∃ waits result, slots.calls = [.drain waits result]
  | .cancelling call => call = 1 ∧ slots.admission.accepting = false ∧
      ∃ waits result targets finished,
        slots.calls = [.drain waits result, .cancelAfterRuntimeClosed targets finished] ∧
        (finished = true → targets = []) ∧ ∀ id ∈ slots.unfinished, id ∈ targets
  | .unwinding | .closingReadiness | .exitingRuntime | .ended => slots.admission.accepting = false
  | _ => False

structure Shutting (process : Process Value) : Prop where
  tabled : ∀ slots, process.admission = some slots → slots.Tabled
  fits : ∀ slots, process.admission = some slots → AdmissionFits process.point slots
  cancelled : ∀ slots, process.admission = some slots → ∀ waits finished,
    .cancelAfterRuntimeClosed waits finished ∈ slots.calls → process.codex.exits ≠ []
  calm : process.raising = false → process.point.behindTasks = true →
    ∀ slots, process.admission = some slots → slots.unfinished = []

theorem calls_of_requests {slots after : Slots Value} {label : SlotLabel Value}
    (ofRequests : SlotLabel.ofRequests label = true) (stepped : slots.step label = some after) :
    after.calls = slots.calls := by
  cases label with
  | submit key =>
      cases stepped
      unfold Slots.submit
      split
      · rfl
      · rfl
  | firstStep id =>
      have ⟨task, _, started⟩ := Option.bind_eq_some_iff.mp stepped
      unfold Slots.firstStep at started
      split at started
      · split_ifs at started
        · cases started
          rfl
        · cases started
          rfl
      all_goals cases started
  | deadline id =>
      have ⟨task, _, passed⟩ := Option.bind_eq_some_iff.mp stepped
      unfold Slots.deadline at passed
      split at passed
      · cases passed
        rfl
      all_goals cases passed
  | settle id ending =>
      have ⟨task, _, ended⟩ := Option.bind_eq_some_iff.mp stepped
      unfold Slots.settle at ended
      split at ended
      · cases ended
        rfl
      all_goals cases ended
  | cancel id =>
      have ⟨task, _, result⟩ := Option.map_eq_some_iff.mp stepped
      subst result
      rfl
  | drain => cases ofRequests
  | cancelAfterRuntimeClosed => cases ofRequests
  | returns index => cases ofRequests

theorem shutting_start (now : Nat) : Shutting (start now : Process Value) where
  tabled _ admitted := nomatch admitted
  fits _ admitted := nomatch admitted
  cancelled _ admitted := nomatch admitted
  calm _ _ _ admitted := nomatch admitted

/-- The steps of requests, tasks and timers change none of it. -/
theorem shutting_slot {slots after : Slots Value} {label : SlotLabel Value}
    (shutting : Shutting process) (admitted : process.admission = some slots)
    (ofRequests : SlotLabel.ofRequests label = true) (stepped : slots.step label = some after) :
    Shutting { process with admission := some after } where
  tabled _ same := by
    cases same
    exact Slots.tabled_step (shutting.tabled slots admitted) stepped
  fits _ same := by
    cases same
    have fits := shutting.fits slots admitted
    have calls := calls_of_requests ofRequests stepped
    have closed := Slots.accepting_step stepped
    unfold AdmissionFits at fits ⊢
    cases point : process.point with
    | serving =>
        simp only [point] at fits ⊢
        rw [calls, fits]
    | draining call =>
        simp only [point] at fits ⊢
        rw [calls]
        exact ⟨fits.1, closed fits.2.1, fits.2.2⟩
    | closingRuntime =>
        simp only [point] at fits ⊢
        rw [calls]
        exact ⟨closed fits.1, fits.2⟩
    | cancelling call =>
        simp only [point] at fits ⊢
        have ⟨number, wasClosed, waits, result, targets, finished, made, nothing, covers⟩ := fits
        rw [calls]
        refine ⟨number, closed wasClosed, waits, result, targets, finished, made, nothing, ?_⟩
        intro id member
        exact covers id (Slots.unfinished_within stepped wasClosed member)
    | unwinding | closingReadiness | exitingRuntime | ended =>
        simp only [point] at fits ⊢
        exact closed fits
    | openConversations | openApprovals | startReadiness | assembleRuntime | enterCodex
    | abandonCodex | assembleServices => simp [point] at fits
  cancelled _ same := by
    cases same
    rw [calls_of_requests ofRequests stepped]
    exact shutting.cancelled slots admitted
  calm quiet behind _ same := by
    cases same
    have nothing := shutting.calm quiet behind slots admitted
    have fits := shutting.fits slots admitted
    have closed : slots.admission.accepting = false := by
      unfold AdmissionFits at fits
      cases point : process.point <;> simp [point, Point.behindTasks] at behind fits
      all_goals exact fits
    apply List.eq_nil_iff_forall_not_mem.mpr
    intro id member
    have before := Slots.unfinished_within stepped closed member
    rw [nothing] at before
    cases before

theorem shutting_of_none (absent : next.admission = none) : Shutting next where
  tabled _ admitted := by
    rw [absent] at admitted
    cases admitted
  fits _ admitted := by
    rw [absent] at admitted
    cases admitted
  cancelled _ admitted := by
    rw [absent] at admitted
    cases admitted
  calm _ _ _ admitted := by
    rw [absent] at admitted
    cases admitted

/-- Before the services are assembled there is no controller. -/
theorem none_of_early (shutting : Shutting process)
    (early : ∀ slots : Slots Value, ¬ AdmissionFits process.point slots) :
    process.admission = none := by
  cases admitted : process.admission with
  | none => rfl
  | some slots => exact absurd (shutting.fits slots admitted) (early slots)

/-- A step behind the shutdown of the tasks, or into it. -/
theorem shutting_behind (shutting : Shutting process)
    (same : next.admission = process.admission) (behind : next.point.behindTasks = true)
    (closed : ∀ slots, process.admission = some slots → slots.admission.accepting = false)
    (exits : process.codex.exits ≠ [] → next.codex.exits ≠ [])
    (calm : next.raising = false → ∀ slots, process.admission = some slots →
      slots.unfinished = []) : Shutting next where
  tabled slots admitted := shutting.tabled slots (same ▸ admitted)
  fits slots admitted := by
    rw [same] at admitted
    have isClosed := closed slots admitted
    cases point : next.point <;> simp [point, Point.behindTasks] at behind
    all_goals exact isClosed
  cancelled slots admitted waits finished member :=
    exits (shutting.cancelled slots (same ▸ admitted) waits finished member)
  calm quiet _ slots admitted := calm quiet slots (same ▸ admitted)

theorem shutting_fail (shutting : Shutting process)
    (closed : ∀ slots, process.admission = some slots → slots.admission.accepting = false) :
    Shutting process.fail := by
  apply shutting_behind shutting _ _ closed
  · exact fun left => left
  · exact fun quiet => nomatch quiet
  · rfl
  · rfl

theorem closed_of_behind (shutting : Shutting process)
    (behind : process.point.behindTasks = true) (slots : Slots Value)
    (admitted : process.admission = some slots) : slots.admission.accepting = false := by
  have fits := shutting.fits slots admitted
  cases point : process.point <;> simp [point, Point.behindTasks] at behind
  all_goals
    rw [point] at fits
    exact fits

theorem unwind_effect {returned : Bool} (point : process.point = .unwinding)
    (unwound : process.unwind returned = some next) :
    next.admission = process.admission ∧ next.point.behindTasks = true ∧
      next.codex = process.codex ∧ (next.raising = false → process.raising = false) := by
  have behind : process.point.behindTasks = true := by
    rw [point]
    rfl
  unfold unwind at unwound
  split at unwound
  · split_ifs at unwound
    cases unwound
    exact ⟨rfl, rfl, rfl, fun quiet => quiet⟩
  · cases unwound
    exact ⟨rfl, behind, rfl, fun quiet => (Bool.or_eq_false_iff.mp quiet).1⟩
  · cases unwound
    exact ⟨rfl, behind, rfl, fun quiet => (Bool.or_eq_false_iff.mp quiet).1⟩
  · split_ifs at unwound
    have ⟨monitor, _, result⟩ := Option.map_eq_some_iff.mp unwound
    subst result
    exact ⟨rfl, rfl, rfl, fun quiet => quiet⟩
  · split_ifs at unwound
    · cases unwound
      exact ⟨rfl, rfl, rfl, fun quiet => quiet⟩
    · cases unwound
      exact ⟨rfl, behind, rfl, fun quiet => quiet⟩

theorem shutting_unwind {returned : Bool} (shutting : Shutting process)
    (point : process.point = .unwinding) (unwound : process.unwind returned = some next) :
    Shutting next := by
  have behind : process.point.behindTasks = true := by
    rw [point]
    rfl
  have ⟨same, nextBehind, codex, quieter⟩ := unwind_effect point unwound
  apply shutting_behind shutting same nextBehind (closed_of_behind shutting behind)
  · rw [codex]
    exact fun left => left
  · exact fun quiet => shutting.calm (quieter quiet) behind

theorem tabled_of_same {slots after : Slots Value} (tabled : slots.Tabled)
    (admission : after.admission = slots.admission) (tasks : after.tasks = slots.tasks) :
    after.Tabled := by
  unfold Slots.Tabled Slots.slotOf
  rw [admission, tasks]
  exact tabled

theorem unfinished_of_same {slots after : Slots Value} (tasks : after.tasks = slots.tasks) :
    after.unfinished = slots.unfinished := by
  unfold Slots.unfinished Slots.isDone
  rw [tasks]

/-- `drain` has returned. -/
theorem fits_of_drained {slots after : Slots Value} {call : Nat}
    (fits : AdmissionFits (.draining call) slots) (tabled : slots.Tabled)
    (isSettled : settled slots call = some after) :
    AdmissionFits .closingRuntime after ∧ after.Tabled := by
  have ⟨number, closed, waits, result, made⟩ := fits
  subst number
  rcases settled_cases isSettled with ⟨same, _⟩ | returned
  · subst same
    exact ⟨⟨closed, waits, result, made⟩, tabled⟩
  · have ⟨calls, admission, tasks⟩ := returns_drain made returned
    refine ⟨⟨?_, waits, _, calls⟩, tabled_of_same tabled admission tasks⟩
    rw [admission]
    exact closed

/-- `cancel_after_runtime_closed` has returned: all tasks it found are done, and there were no
others. -/
theorem nothing_of_gathered {slots after : Slots Value} {call : Nat}
    (fits : AdmissionFits (.cancelling call) slots) (tabled : slots.Tabled)
    (isSettled : settled slots call = some after) :
    after.admission.accepting = false ∧ after.Tabled ∧ after.unfinished = [] := by
  have ⟨number, closed, waits, result, targets, finished, made, nothing, covers⟩ := fits
  subst number
  rcases settled_cases isSettled with ⟨same, others, _, found⟩ | returned
  · subst same
    refine ⟨closed, tabled, ?_⟩
    simp only [made, List.getElem?_cons_succ, List.getElem?_cons_zero, Option.some.injEq,
      reduceCtorEq, false_or, ShutdownCall.cancelAfterRuntimeClosed.injEq] at found
    rw [nothing found.2] at covers
    exact List.eq_nil_iff_forall_not_mem.mpr fun id member => nomatch covers id member
  · have ⟨done, admission, tasks⟩ := returns_gather made returned
    refine ⟨?_, tabled_of_same tabled admission tasks, ?_⟩
    · rw [admission]
      exact closed
    · rw [unfinished_of_same tasks]
      exact Slots.nothing_unfinished_of_waits covers done

theorem shutting_cancel_tasks {slots : Slots Value} (tabled : slots.Tabled)
    (fits : AdmissionFits .closingRuntime slots) (exits : process.codex.exits ≠ []) :
    Shutting { process with
      point := .cancelling slots.calls.length
      admission := some slots.cancelAfterRuntimeClosed } := by
  obtain ⟨closed, waits, answer, made⟩ := fits
  have stepped : slots.step .cancelAfterRuntimeClosed = some slots.cancelAfterRuntimeClosed := rfl
  constructor
  · intro after same
    cases same
    exact Slots.tabled_step tabled stepped
  · intro after same
    cases same
    refine ⟨?_, closed, waits, answer, slots.waits, slots.waits.isEmpty, ?_, ?_, ?_⟩
    · simp [made]
    · simp [Slots.cancelAfterRuntimeClosed, made]
    · exact List.isEmpty_iff.mp
    · intro id member
      have before := Slots.unfinished_within stepped closed member
      exact Slots.unfinished_mem_waits tabled before
  · exact fun _ _ _ _ _ => exits
  · exact fun _ behind => Bool.noConfusion behind

theorem shutting_drain {slots : Slots Value} (returned : Bool) (shutting : Shutting process)
    (point : process.point = .serving) (admitted : process.admission = some slots) :
    Shutting { process.note returned with
      point := .draining slots.calls.length
      admission := some slots.drain } := by
  have calls : slots.calls = [] := by
    have fits := shutting.fits slots admitted
    rw [point] at fits
    exact fits
  have stepped : slots.step .drain = some slots.drain := rfl
  constructor
  · intro after same
    cases same
    exact Slots.tabled_step (shutting.tabled slots admitted) stepped
  · intro after same
    cases same
    refine ⟨?_, rfl, slots.waits, if slots.waits.isEmpty then some true else none, ?_⟩
    · simp [calls]
    · simp only [Slots.drain, calls, List.nil_append]
  · intro after same waits finished member
    cases same
    simp [Slots.drain, calls] at member
  · exact fun _ behind => nomatch behind

theorem shutting_advance (standing : Standing process) (shutting : Shutting process)
    (advance : Advance process next) : Shutting next := by
  have early : ∀ point, process.point = point →
      (∀ slots : Slots Value, ¬ AdmissionFits point slots) → process.admission = none := by
    intro point here
    subst here
    exact none_of_early shutting
  cases advance with
  | failed raises =>
      cases admitted : process.admission with
      | none => exact shutting_of_none admitted
      | some slots =>
          apply shutting_fail shutting
          intro other same
          rw [admitted] at same
          cases same
          have fits := shutting.fits slots admitted
          unfold AdmissionFits at fits
          cases point : process.point <;> simp [point, Point.raises] at raises fits
          · exact fits.2.1
          · exact fits.2.1
          · exact fits
  | openedConversations point => exact shutting_of_none (early _ point fun _ fits => fits)
  | openedApprovals point begun =>
      apply shutting_of_none
      rw [resume_start_admission begun]
      exact early _ point fun _ fits => fits
  | assembled point => exact shutting_of_none (early _ point fun _ fits => fits)
  | entered point => exact shutting_of_none (early _ point fun _ fits => fits)
  | notEntered point => exact shutting_of_none (early _ point fun _ fits => fits)
  | abandoned point returned => exact shutting_of_none (early _ point fun _ fits => fits)
  | served point limit positive =>
      constructor
      · intro slots same
        cases same
        exact Slots.tabled_start limit positive
      · intro slots same
        cases same
        rfl
      · intro slots same waits finished member
        cases same
        cases member
      · exact fun _ behind => Bool.noConfusion behind
  | drains point returned slots admitted => exact shutting_drain returned shutting point admitted
  | drained call point slots after admitted isSettled closes =>
      obtain ⟨_, _, _, codex⟩ := held_of_standing standing point rfl
      have fits := shutting.fits slots admitted
      rw [point] at fits
      obtain ⟨nextFits, tabled⟩ := fits_of_drained fits (shutting.tabled slots admitted) isSettled
      simp only [closeRuntime, codex, if_true] at closes
      cases closes
      constructor
      · intro slots same
        cases same
        exact tabled
      · intro slots same
        cases same
        exact nextFits
      · intro slots same waits finished member
        cases same
        obtain ⟨_, waits, result, made⟩ := nextFits
        simp [made] at member
      · exact fun _ behind => Bool.noConfusion behind
  | closed point returned slots admitted =>
      apply shutting_cancel_tasks
      · exact shutting.tabled slots admitted
      · have fits := shutting.fits slots admitted
        rw [point] at fits
        exact fits
      · simp [exited, note]
  | gathered call point slots after admitted isSettled =>
      have fits := shutting.fits slots admitted
      rw [point] at fits
      obtain ⟨closed, tabled, nothing⟩ :=
        nothing_of_gathered fits (shutting.tabled slots admitted) isSettled
      obtain ⟨_, _, waits, result, targets, finished, made, _, _⟩ := fits
      have exits := shutting.cancelled slots admitted targets finished (by simp [made])
      constructor
      · intro slots same
        cases same
        exact tabled
      · intro slots same
        cases same
        exact closed
      · exact fun _ _ _ _ _ => exits
      · intro _ _ slots same
        cases same
        exact nothing
  | unwinds point returned unwound => exact shutting_unwind shutting point unwound
  | closedReadiness point monitor closed =>
      have behind : process.point.behindTasks = true := by
        rw [point]
        rfl
      exact shutting_behind shutting rfl rfl (closed_of_behind shutting behind)
        (fun left => left) (fun quiet => shutting.calm quiet behind)
  | exitedRuntime point returned =>
      have behind : process.point.behindTasks = true := by
        rw [point]
        rfl
      apply shutting_behind shutting _ _ (closed_of_behind shutting behind)
      · simp [exited, note]
      · intro quiet
        exact shutting.calm (Bool.or_eq_false_iff.mp quiet).1 behind
      · rfl
      · rfl

theorem shutting_step {maxActive : Nat} {label : LifespanLabel Value}
    (standing : Standing process) (shutting : Shutting process)
    (stepped : process.step maxActive label = some next) : Shutting next := by
  cases step_cases stepped with
  | advances advance => exact shutting_advance standing shutting advance
  | starts point label ofStart resumed =>
      apply shutting_of_none
      rw [resume_start_admission resumed]
      exact none_of_early shutting (by simp [point, AdmissionFits])
  | observes label ofLoop monitor moved =>
      exact ⟨shutting.tabled, shutting.fits, shutting.cancelled, shutting.calm⟩
  | works label ofRequests slots after admitted moved =>
      exact shutting_slot shutting admitted ofRequests moved

end Process

end AgentHarness.Core
