import AgentHarness.Core.Lifespan

/-!
# The steps of the lifespan

What one step of the coroutine can do, point by point, and the step of the monitor behind it.
-/

namespace AgentHarness.Core

open AgentHarness.Library AgentHarness.Runtime

set_option autoImplicit false

variable {Value : Type}

/-- The points whose statement may raise straight into the exit stack. -/
def Point.raises : Point → Bool
  | .openConversations | .openApprovals | .assembleRuntime | .assembleServices | .draining _
  | .cancelling _ | .closingReadiness => true
  | _ => false

namespace Process

variable {process next : Process Value}

inductive Advance (process : Process Value) : Process Value → Prop where
  | failed (raises : process.point.raises = true) : Advance process process.fail
  | openedConversations (point : process.point = .openConversations) :
      Advance process { process with
        point := .openApprovals
        stack := .conversationRepository :: process.stack
        conversationPool := .opened }
  | openedApprovals {next : Process Value} (point : process.point = .openApprovals)
      (begun : { process with
        stack := .approvalRepository :: process.stack
        approvalPool := .opened }.resumeStart .start = some next) : Advance process next
  | assembled (point : process.point = .assembleRuntime) :
      Advance process { process with point := .enterCodex }
  | entered (point : process.point = .enterCodex) :
      Advance process { process with
        point := .assembleServices
        stack := .runtime :: process.stack
        codex := { process.codex with started := true, entered := some true } }
  | notEntered (point : process.point = .enterCodex) :
      Advance process { process with
        point := .abandonCodex
        codex := { process.codex with entered := some false } }
  | abandoned (point : process.point = .abandonCodex) (returned : Bool) :
      Advance process (process.exited returned).fail
  | served (point : process.point = .assembleServices) (limit : Nat) (positive : 1 ≤ limit) :
      Advance process { process with point := .serving, admission := some (.start limit positive) }
  | drains (point : process.point = .serving) (returned : Bool) (slots : Slots Value)
      (admitted : process.admission = some slots) :
      Advance process { process.note returned with
        point := .draining slots.calls.length
        admission := some slots.drain }
  | drained (call : Nat) (point : process.point = .draining call) (slots after : Slots Value)
      (admitted : process.admission = some slots) (isSettled : settled slots call = some after)
      {next : Process Value} (closes : { process with admission := some after }.closeRuntime =
        some next) : Advance process next
  | closed (point : process.point = .closingRuntime) (returned : Bool) (slots : Slots Value)
      (admitted : process.admission = some slots) :
      Advance process { process.exited returned with
        point := .cancelling slots.calls.length
        admission := some slots.cancelAfterRuntimeClosed }
  | gathered (call : Nat) (point : process.point = .cancelling call) (slots after : Slots Value)
      (admitted : process.admission = some slots) (isSettled : settled slots call = some after) :
      Advance process { process with point := .unwinding, admission := some after }
  | unwinds (point : process.point = .unwinding) (returned : Bool) {next : Process Value}
      (unwound : process.unwind returned = some next) : Advance process next
  | closedReadiness (point : process.point = .closingReadiness) (monitor : Monitor Healthcheck)
      (closed : process.monitor.step .closeReturns = some monitor) :
      Advance process { process with point := .unwinding, monitor := monitor }
  | exitedRuntime (point : process.point = .exitingRuntime) (returned : Bool) :
      Advance process { process.exited returned with point := .unwinding }

theorem advance_cases {maxActive : Nat} {returned : Bool}
    (advanced : process.advance maxActive returned = some next) : Advance process next := by
  have failed : process.point.raises = true → Advance process process.fail := .failed
  unfold advance at advanced
  cases point : process.point with
  | openConversations =>
      simp only [point] at advanced
      cases returned with
      | true =>
          cases advanced
          exact .openedConversations point
      | false =>
          cases advanced
          exact failed (by rw [point]; rfl)
  | openApprovals =>
      simp only [point] at advanced
      cases returned with
      | true => exact .openedApprovals point advanced
      | false =>
          cases advanced
          exact failed (by rw [point]; rfl)
  | startReadiness => simp [point] at advanced
  | assembleRuntime =>
      simp only [point] at advanced
      cases returned with
      | true =>
          cases advanced
          exact .assembled point
      | false =>
          cases advanced
          exact failed (by rw [point]; rfl)
  | enterCodex =>
      simp only [point] at advanced
      cases returned with
      | true =>
          cases advanced
          exact .entered point
      | false =>
          cases advanced
          exact .notEntered point
  | abandonCodex =>
      simp only [point] at advanced
      cases advanced
      exact .abandoned point returned
  | assembleServices =>
      simp only [point] at advanced
      cases returned with
      | true =>
          simp only [if_true] at advanced
          split_ifs at advanced with positive
          cases advanced
          exact .served point maxActive positive
      | false =>
          cases advanced
          exact failed (by rw [point]; rfl)
  | serving =>
      simp only [point] at advanced
      have ⟨slots, admitted, result⟩ := Option.map_eq_some_iff.mp advanced
      subst result
      exact .drains point returned slots admitted
  | draining call =>
      simp only [point] at advanced
      cases returned with
      | true =>
          have ⟨after, found, closes⟩ := Option.bind_eq_some_iff.mp advanced
          have ⟨slots, admitted, isSettled⟩ := Option.bind_eq_some_iff.mp found
          exact .drained call point slots after admitted isSettled closes
      | false =>
          cases advanced
          exact failed (by rw [point]; rfl)
  | closingRuntime =>
      simp only [point] at advanced
      have ⟨slots, admitted, result⟩ := Option.map_eq_some_iff.mp advanced
      subst result
      exact .closed point returned slots admitted
  | cancelling call =>
      simp only [point] at advanced
      cases returned with
      | true =>
          have ⟨after, found, result⟩ := Option.map_eq_some_iff.mp advanced
          have ⟨slots, admitted, isSettled⟩ := Option.bind_eq_some_iff.mp found
          subst result
          exact .gathered call point slots after admitted isSettled
      | false =>
          cases advanced
          exact failed (by rw [point]; rfl)
  | unwinding =>
      simp only [point] at advanced
      exact .unwinds point returned advanced
  | closingReadiness =>
      simp only [point] at advanced
      cases returned with
      | true =>
          have ⟨monitor, closed, result⟩ := Option.map_eq_some_iff.mp advanced
          subst result
          exact .closedReadiness point monitor closed
      | false =>
          cases advanced
          exact failed (by rw [point]; rfl)
  | exitingRuntime =>
      simp only [point] at advanced
      cases advanced
      exact .exitedRuntime point returned
  | ended => simp [point] at advanced

/-- What one step of the process is. -/
inductive Moves (process : Process Value) : Process Value → Prop where
  | advances {next : Process Value} (advance : Advance process next) : Moves process next
  | starts (point : process.point = .startReadiness) (label : MonitorLabel)
      (ofStart : label = .start ∨ (∃ returned, label = .startProbed returned) ∨
        label = .startCancelled)
      {next : Process Value} (resumed : process.resumeStart label = some next) :
      Moves process next
  | observes (label : MonitorLabel) (ofLoop : label.ofLoop = true) (monitor : Monitor Healthcheck)
      (moved : process.monitor.step label = some monitor) :
      Moves process { process with monitor := monitor }
  | works (label : SlotLabel Value) (ofRequests : SlotLabel.ofRequests label = true)
      (slots after : Slots Value) (admitted : process.admission = some slots)
      (moved : slots.step label = some after) :
      Moves process { process with admission := some after }

theorem step_cases {maxActive : Nat} {label : LifespanLabel Value}
    (stepped : process.step maxActive label = some next) : Moves process next := by
  cases label with
  | advance returned => exact .advances (advance_cases stepped)
  | startProbed returned =>
      simp only [step] at stepped
      split_ifs at stepped with point
      exact .starts point _ (.inr (.inl ⟨returned, rfl⟩)) stepped
  | startCancelled =>
      simp only [step] at stepped
      split_ifs at stepped with point
      exact .starts point _ (.inr (.inr rfl)) stepped
  | monitor label =>
      simp only [step] at stepped
      split_ifs at stepped with ofLoop
      have ⟨monitor, moved, result⟩ := Option.map_eq_some_iff.mp stepped
      subst result
      exact .observes label ofLoop monitor moved
  | slot label =>
      simp only [step] at stepped
      split_ifs at stepped with ofRequests
      have ⟨slots, admitted, works⟩ := Option.bind_eq_some_iff.mp stepped
      have ⟨after, moved, result⟩ := Option.map_eq_some_iff.mp works
      subst result
      exact .works label ofRequests slots after admitted moved

/-! ## The monitor and the shutdown calls -/

/-- Where a step of `start` can leave the owner. -/
theorem owner_of_start {monitor after : Monitor Healthcheck} {label : MonitorLabel}
    (ofStart : label = .start ∨ (∃ returned, label = .startProbed returned) ∨
      label = .startCancelled)
    (stepped : monitor.step label = some after) :
    after.owner = .started ∨ after.owner = .refused ∨
      ∃ probe rest, after.owner = .starting probe rest := by
  have checked : ∀ check, (monitor.startChecks check).owner = .started ∨
      (monitor.startChecks check).owner = .refused ∨
        ∃ probe rest, (monitor.startChecks check).owner = .starting probe rest := by
    intro check
    cases check with
    | awaiting probe rest => exact .inr (.inr ⟨probe, rest, rfl⟩)
    | finished succeeded =>
        unfold Monitor.startChecks
        simp only
        split_ifs
        · exact .inl rfl
        · exact .inr (.inl rfl)
  rcases ofStart with rfl | ⟨returned, rfl⟩ | rfl
  · simp only [Monitor.step] at stepped
    split at stepped
    · cases stepped
      exact checked _
    · cases stepped
  · simp only [Monitor.step] at stepped
    split at stepped
    · cases stepped
      exact checked _
    · cases stepped
  · simp only [Monitor.step] at stepped
    split at stepped
    · cases stepped
      exact .inr (.inl rfl)
    · cases stepped

theorem owner_of_loop {monitor after : Monitor Healthcheck} {label : MonitorLabel}
    (ofLoop : label.ofLoop = true) (stepped : monitor.step label = some after) :
    after.owner = monitor.owner := by
  have checked : ∀ check, (monitor.loopChecks check).owner = monitor.owner := by
    intro check
    cases check with
    | awaiting probe rest => rfl
    | finished succeeded => rfl
  cases label with
  | tick elapsed =>
      cases stepped
      rfl
  | loopStarts =>
      simp only [Monitor.step] at stepped
      split at stepped
      · cases stepped
        rfl
      · cases stepped
  | wakes =>
      simp only [Monitor.step] at stepped
      split at stepped
      · split_ifs at stepped
        cases stepped
        exact checked _
      · cases stepped
  | loopProbed returned =>
      simp only [Monitor.step] at stepped
      split at stepped
      · cases stepped
        exact checked _
      · cases stepped
  | loopCancelled =>
      simp only [Monitor.step] at stepped
      split at stepped
      any_goals cases stepped
      all_goals rfl
  | start => cases ofLoop
  | startProbed returned => cases ofLoop
  | startCancelled => cases ofLoop
  | close => cases ofLoop
  | closeReturns => cases ofLoop

theorem resume_start_admission {label : MonitorLabel}
    (resumed : process.resumeStart label = some next) : next.admission = process.admission := by
  have ⟨monitor, _, result⟩ := Option.map_eq_some_iff.mp resumed
  subst result
  split
  · rfl
  · rfl
  · rfl

/-- The call the coroutine waits for is over, and the rest is as it was. -/
theorem settled_cases {slots after : Slots Value} {call : Nat}
    (isSettled : settled slots call = some after) :
    after = slots ∧ (∃ waits result, slots.calls[call]? = some (.drain waits (some result)) ∨
        slots.calls[call]? = some (.cancelAfterRuntimeClosed waits true)) ∨
      slots.returns call = some after := by
  unfold settled at isSettled
  split at isSettled
  · rename_i waits result found
    cases isSettled
    exact .inl ⟨rfl, waits, result, .inl found⟩
  · rename_i waits found
    cases isSettled
    exact .inl ⟨rfl, waits, true, .inr found⟩
  · exact .inr isSettled

theorem returns_drain {slots after : Slots Value} {waits : List Nat} {result : Option Bool}
    (made : slots.calls = [.drain waits result]) (returned : slots.returns 0 = some after) :
    after.calls = [.drain waits (some (waits.all slots.isDone))] ∧
      after.admission = slots.admission ∧ after.tasks = slots.tasks := by
  unfold Slots.returns at returned
  simp only [made, List.getElem?_cons_zero] at returned
  cases result with
  | none =>
      cases returned
      simp [Slots.setCall, made]
  | some answer => cases returned

theorem returns_gather {slots after : Slots Value} {waits targets : List Nat}
    {result : Option Bool} {finished : Bool}
    (made : slots.calls = [.drain waits result, .cancelAfterRuntimeClosed targets finished])
    (returned : slots.returns 1 = some after) :
    targets.all slots.isDone = true ∧ after.admission = slots.admission ∧
      after.tasks = slots.tasks := by
  unfold Slots.returns at returned
  simp only [made, List.getElem?_cons_succ, List.getElem?_cons_zero] at returned
  cases finished with
  | false =>
      simp only at returned
      split_ifs at returned with done
      cases returned
      exact ⟨done, rfl, rfl⟩
  | true => cases returned

/-! ## The steps of the monitor -/

/-- The step of the monitor behind a step of the process. -/
def monitorLabel (process : Process Value) : LifespanLabel Value → Option MonitorLabel
  | .advance returned =>
      match process.point with
      | .openApprovals => if returned then some .start else none
      | .unwinding => if process.stack.head? = some .readiness then some .close else none
      | .closingReadiness => if returned then some .closeReturns else none
      | _ => none
  | .startProbed returned => some (.startProbed returned)
  | .startCancelled => some .startCancelled
  | .monitor label => some label
  | .slot _ => none

/-- What the process does to its monitor, if it does anything. -/
def MonitorMoves (process next : Process Value) : Option MonitorLabel → Prop
  | none => next.monitor = process.monitor
  | some label => process.monitor.step label = some next.monitor

theorem resume_start_monitor {label : MonitorLabel}
    (resumed : process.resumeStart label = some next) :
    process.monitor.step label = some next.monitor := by
  have ⟨monitor, stepped, result⟩ := Option.map_eq_some_iff.mp resumed
  rw [stepped, ← result]
  split
  · rfl
  · rfl
  · rfl

theorem cancel_tasks_monitor (cancelled : process.cancelTasks = some next) :
    next.monitor = process.monitor := by
  have ⟨slots, _, result⟩ := Option.map_eq_some_iff.mp cancelled
  subst result
  rfl

theorem unwind_monitor {returned : Bool} (unwound : process.unwind returned = some next) :
    MonitorMoves process next
      (if process.stack.head? = some .readiness then some .close else none) := by
  unfold unwind at unwound
  split at unwound
  · rename_i stack
    split_ifs at unwound
    cases unwound
    simp [stack, MonitorMoves]
  · rename_i stack
    cases unwound
    simp [stack, MonitorMoves, note]
  · rename_i stack
    cases unwound
    simp [stack, MonitorMoves, note]
  · rename_i stack
    split_ifs at unwound
    have ⟨monitor, closed, result⟩ := Option.map_eq_some_iff.mp unwound
    subst result
    simp [stack, MonitorMoves, closed]
  · rename_i stack
    split_ifs at unwound
    · cases unwound
      simp [stack, MonitorMoves]
    · cases unwound
      simp [stack, MonitorMoves]

theorem advance_monitor {maxActive : Nat} {returned : Bool}
    (advanced : process.advance maxActive returned = some next) :
    MonitorMoves process next (process.monitorLabel (.advance returned)) := by
  unfold advance at advanced
  unfold monitorLabel
  cases point : process.point with
  | openConversations | assembleRuntime | enterCodex =>
      simp only [point] at advanced
      cases advanced
      simp only [MonitorMoves]
      split
      · rfl
      · rfl
  | openApprovals =>
      simp only [point] at advanced
      cases returned with
      | false =>
          cases advanced
          rfl
      | true =>
          simp only [if_true] at advanced
          have moved := resume_start_monitor advanced
          exact moved
  | startReadiness => simp [point] at advanced
  | abandonCodex | exitingRuntime =>
      simp only [point] at advanced
      cases advanced
      rfl
  | assembleServices =>
      simp only [point] at advanced
      split at advanced
      · split_ifs at advanced
        cases advanced
        rfl
      · cases advanced
        rfl
  | serving =>
      simp only [point] at advanced
      have ⟨slots, _, result⟩ := Option.map_eq_some_iff.mp advanced
      subst result
      rfl
  | draining call =>
      simp only [point] at advanced
      split at advanced
      · have ⟨slots, _, closes⟩ := Option.bind_eq_some_iff.mp advanced
        unfold closeRuntime at closes
        split_ifs at closes
        · cases closes
          rfl
        · have same := cancel_tasks_monitor closes
          exact same
      · cases advanced
        rfl
  | closingRuntime =>
      simp only [point] at advanced
      have same := cancel_tasks_monitor advanced
      exact same
  | cancelling call =>
      simp only [point] at advanced
      split at advanced
      · have ⟨slots, _, result⟩ := Option.map_eq_some_iff.mp advanced
        subst result
        rfl
      · cases advanced
        rfl
  | unwinding =>
      simp only [point] at advanced
      exact unwind_monitor advanced
  | closingReadiness =>
      simp only [point] at advanced
      cases returned with
      | false =>
          cases advanced
          rfl
      | true =>
          have ⟨monitor, closed, result⟩ := Option.map_eq_some_iff.mp advanced
          subst result
          exact closed
  | ended => simp [point] at advanced

theorem step_monitor {maxActive : Nat} {label : LifespanLabel Value}
    (stepped : process.step maxActive label = some next) :
    MonitorMoves process next (process.monitorLabel label) := by
  cases label with
  | advance returned => exact advance_monitor stepped
  | startProbed returned =>
      simp only [step] at stepped
      split_ifs at stepped
      exact resume_start_monitor stepped
  | startCancelled =>
      simp only [step] at stepped
      split_ifs at stepped
      exact resume_start_monitor stepped
  | monitor label =>
      simp only [step] at stepped
      split_ifs at stepped
      have ⟨monitor, moved, result⟩ := Option.map_eq_some_iff.mp stepped
      subst result
      exact moved
  | slot label =>
      simp only [step] at stepped
      split_ifs at stepped
      have ⟨slots, _, moved⟩ := Option.bind_eq_some_iff.mp stepped
      have ⟨after, _, result⟩ := Option.map_eq_some_iff.mp moved
      subst result
      rfl

end Process

end AgentHarness.Core
