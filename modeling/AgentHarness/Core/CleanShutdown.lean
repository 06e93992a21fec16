import AgentHarness.Core.ShutdownOfTasks

/-!
# Every lifespan closes what it has opened

The exit stack is unwound in the reverse of the order in which it was filled, and what the finished
coroutine leaves behind is closed: the pools, the readiness loop, the SDK and the admission.
-/

namespace AgentHarness.Core

open AgentHarness.Library AgentHarness.Runtime

set_option autoImplicit false

variable {Value : Type}

/-- A callback is registered, or taken off the stack to be called. -/
inductive StackUse where
  | pushed (callback : Callback)
  | popped (callback : Callback)
  deriving DecidableEq, Repr

namespace Process

/-- What the step does to the exit stack. -/
def stackUse (maxActive : Nat) (process : Process Value) (label : LifespanLabel Value) :
    Option StackUse :=
  (process.step maxActive label).bind fun next =>
    if process.stack.length < next.stack.length then next.stack.head?.map .pushed
    else if next.stack.length < process.stack.length then process.stack.head?.map .popped
    else none

variable {process next : Process Value} {maxActive : Nat} {label : LifespanLabel Value}

/-- Callbacks are registered only in the body and called only behind it. -/
inductive StackStep (process next : Process Value) : Prop where
  | kept (same : next.stack = process.stack)
      (later : process.point.behindTasks = true → next.point.behindTasks = true)
      (ended : next.point = .ended → process.point = .ended ∨ next.stack = [])
  | pushed (callback : Callback) (same : next.stack = callback :: process.stack)
      (body : process.point.behindTasks = false) (unended : next.point ≠ .ended)
  | popped (callback : Callback) (same : process.stack = callback :: next.stack)
      (behind : next.point.behindTasks = true) (unended : next.point ≠ .ended)

theorem probes_step {monitor after : Monitor Healthcheck} {label : MonitorLabel}
    (stepped : monitor.step label = some after) :
    after.readiness.probes = monitor.readiness.probes := by
  have effect := Monitor.monitor_step stepped
  generalize monitor.verdict label = verdict at effect
  cases effect with
  | kept readiness isOpen requested => rw [readiness]
  | concluded succeeded readiness isOpen requested active =>
      rw [readiness]
      unfold DependencyReadiness.conclude
      split_ifs
      · rfl
      · rfl
  | closes readiness isClosed requested => rw [readiness]

/-- The first step of `start` ends at its first probe. -/
theorem begin_start (begun : process.resumeStart .start = some next)
    (probed : process.monitor.readiness.probes ≠ []) :
    next.stack = process.stack ∧ next.point = .startReadiness := by
  have ⟨monitor, stepped, result⟩ := Option.map_eq_some_iff.mp begun
  simp only [Monitor.step] at stepped
  split at stepped
  · cases stepped
    subst result
    cases listed : process.monitor.readiness.probes with
    | nil => exact absurd listed probed
    | cons probe rest => simp [Check.goOn, Monitor.startChecks]
  · cases stepped

theorem stack_resume {label : MonitorLabel} (body : process.point.behindTasks = false)
    (resumed : process.resumeStart label = some next) : StackStep process next := by
  have ⟨monitor, _, result⟩ := Option.map_eq_some_iff.mp resumed
  subst result
  split
  · exact .pushed .readiness rfl body (fun impossible => nomatch impossible)
  · exact .kept rfl (fun _ => rfl) (fun impossible => nomatch impossible)
  · apply StackStep.kept
    · rfl
    · intro behind
      rw [body] at behind
      cases behind
    · exact fun impossible => nomatch impossible

theorem stack_fail : StackStep process process.fail :=
  .kept rfl (fun _ => rfl) (fun impossible => nomatch impossible)

theorem stack_unwind {returned : Bool} (point : process.point = .unwinding)
    (unwound : process.unwind returned = some next) : StackStep process next := by
  unfold unwind at unwound
  split at unwound
  · rename_i empty
    split_ifs at unwound
    cases unwound
    exact .kept rfl (fun _ => rfl) (fun _ => .inr empty)
  · rename_i stack
    cases unwound
    exact .popped .conversationRepository stack (by rw [note, point]; rfl) (by simp [note, point])
  · rename_i stack
    cases unwound
    exact .popped .approvalRepository stack (by rw [note, point]; rfl) (by simp [note, point])
  · rename_i stack
    split_ifs at unwound
    obtain ⟨monitor, _, result⟩ := Option.map_eq_some_iff.mp unwound
    subst result
    exact .popped .readiness stack rfl (fun impossible => Point.noConfusion impossible)
  · rename_i stack
    split_ifs at unwound
    · cases unwound
      exact .popped .runtime stack rfl (fun impossible => Point.noConfusion impossible)
    · cases unwound
      exact .popped .runtime stack (by rw [point]; rfl) (by simp [point])

theorem stack_advance (probed : process.monitor.readiness.probes ≠ [])
    (advance : Advance process next) : StackStep process next := by
  have body : ∀ point, process.point = point → point.behindTasks = false →
      ∀ {after : Point}, process.point.behindTasks = true → after.behindTasks = true := by
    intro point here inBody after behind
    rw [here, inBody] at behind
    cases behind
  cases advance with
  | failed raises => exact stack_fail
  | openedConversations point =>
      exact .pushed .conversationRepository rfl (by rw [point]; rfl)
        (fun impossible => nomatch impossible)
  | openedApprovals point begun =>
      have ⟨stack, isStarting⟩ := begin_start begun probed
      apply StackStep.pushed .approvalRepository stack
      · rw [point]
        rfl
      · rw [isStarting]
        exact fun impossible => nomatch impossible
  | assembled point =>
      exact .kept rfl (body _ point rfl) (fun impossible => nomatch impossible)
  | entered point =>
      exact .pushed .runtime rfl (by rw [point]; rfl) (fun impossible => nomatch impossible)
  | notEntered point =>
      exact .kept rfl (body _ point rfl) (fun impossible => nomatch impossible)
  | abandoned point returned =>
      exact .kept rfl (body _ point rfl) (fun impossible => nomatch impossible)
  | served point limit positive =>
      exact .kept rfl (body _ point rfl) (fun impossible => nomatch impossible)
  | drains point returned slots admitted =>
      exact .kept rfl (body _ point rfl) (fun impossible => nomatch impossible)
  | drained call point slots after admitted isSettled closes =>
      unfold closeRuntime at closes
      split_ifs at closes
      · cases closes
        exact .kept rfl (body _ point rfl) (fun impossible => nomatch impossible)
      · cases closes
        exact .kept rfl (body _ point rfl) (fun impossible => nomatch impossible)
  | closed point returned slots admitted =>
      exact .kept rfl (body _ point rfl) (fun impossible => nomatch impossible)
  | gathered call point slots after admitted isSettled =>
      exact .kept rfl (fun _ => rfl) (fun impossible => nomatch impossible)
  | unwinds point returned unwound => exact stack_unwind point unwound
  | closedReadiness point monitor closed =>
      exact .kept rfl (fun _ => rfl) (fun impossible => nomatch impossible)
  | exitedRuntime point returned =>
      exact .kept rfl (fun _ => rfl) (fun impossible => nomatch impossible)

theorem stack_step (probed : process.monitor.readiness.probes ≠ [])
    (stepped : process.step maxActive label = some next) : StackStep process next := by
  cases step_cases stepped with
  | advances advance => exact stack_advance probed advance
  | starts point label ofStart resumed => exact stack_resume (by rw [point]; rfl) resumed
  | observes label ofLoop monitor moved => exact .kept rfl (fun behind => behind) .inl
  | works label ofRequests slots after admitted moved =>
      exact .kept rfl (fun behind => behind) .inl

/-! ## Last in, first out -/

/-- The stack holds what was registered and not called yet. -/
structure Used (process : Process Value) (uses : List StackUse) : Prop where
  balanced : ∃ pushed popped : List Callback,
    uses = pushed.map .pushed ++ popped.map .popped ∧
      pushed = process.stack.reverse ++ popped.reverse ∧
      (process.point.behindTasks = false → popped = [])
  ended : process.point = .ended → process.stack = []
  probed : process.monitor.readiness.probes ≠ []

theorem used_start (now : Nat) : Used (start now : Process Value) [] where
  balanced := ⟨[], [], rfl, rfl, fun _ => rfl⟩
  ended isEnded := nomatch isEnded
  probed := by simp [start, Monitor.new, DependencyReadiness.new]

theorem used_step {uses : List StackUse} (used : Used process uses)
    (stepped : process.step maxActive label = some next) :
    Used next (uses ++ (process.stackUse maxActive label).toList) := by
  have ⟨pushed, popped, isUses, balanced, body⟩ := used.balanced
  have probed : next.monitor.readiness.probes ≠ [] := by
    have moves := step_monitor stepped
    cases moved : process.monitorLabel label with
    | none =>
        rw [moved] at moves
        have same : next.monitor = process.monitor := moves
        rw [same]
        exact used.probed
    | some monitorLabel =>
        rw [moved] at moves
        rw [probes_step moves]
        exact used.probed
  unfold stackUse
  rw [stepped, Option.bind_some]
  cases stack_step used.probed stepped with
  | kept same later ended =>
      constructor
      · refine ⟨pushed, popped, ?_, ?_, ?_⟩
        · simp [same, isUses]
        · rw [same, balanced]
        · intro nextBody
          apply body
          by_contra behind
          rw [later (by simpa using behind)] at nextBody
          cases nextBody
      · intro isEnded
        rcases ended isEnded with wasEnded | empty
        · rw [same, used.ended wasEnded]
        · exact empty
      · exact probed
  | pushed callback same inBody unended =>
      have none := body inBody
      constructor
      · refine ⟨pushed ++ [callback], [], ?_, ?_, fun _ => rfl⟩
        · simp [same, isUses, none]
        · rw [same, balanced, none]
          simp
      · exact fun isEnded => absurd isEnded unended
      · exact probed
  | popped callback same behind unended =>
      constructor
      · refine ⟨pushed, popped ++ [callback], ?_, ?_, ?_⟩
        · simp [same, isUses]
        · rw [balanced, same]
          simp
        · intro nextBody
          rw [behind] at nextBody
          cases nextBody
      · exact fun isEnded => absurd isEnded unended
      · exact probed

/-! ## What is left -/

/-- What holds in every state. The tasks are cancelled only once `__aexit__` has ended, and calls of
the SDK are let through exactly from the end of `__aenter__` to the first normal end of
`__aexit__`. -/
structure Orderly (process : Process Value) : Prop where
  cancelled : ∀ slots, process.admission = some slots → ∀ waits finished,
    .cancelAfterRuntimeClosed waits finished ∈ slots.calls → process.codex.exits ≠ []
  started : process.codex.started = true ↔
    process.codex.entered = some true ∧ true ∉ process.codex.exits

/-- What the finished coroutine has left. Where the SDK still counts as started, every call of
`__aexit__` has raised. -/
structure Released (process : Process Value) (uses : List StackUse) : Prop where
  order : ∃ registered : List Callback,
    uses = registered.map .pushed ++ registered.reverse.map .popped
  pools : process.conversationPool ≠ .opened ∧ process.approvalPool ≠ .opened
  readiness : process.monitor.ready = false ∧
    (process.monitor.loop = .absent ∨ process.monitor.cancelRequested = true)
  codex : process.codex.entered ≠ none → process.codex.exits ≠ []
  admission : ∀ slots, process.admission = some slots → slots.admission.accepting = false
  clean : process.raising = false → process.codex.started = false ∧
    process.monitor.loop = .ended ∧
      ∀ slots, process.admission = some slots → slots.unfinished = []

theorem released_of_ended {uses : List StackUse} (standing : Standing process)
    (shutting : Shutting process) (used : Used process uses) (ended : process.point = .ended) :
    Released process uses := by
  have empty := used.ended ended
  have leaving := standing.leaving (by rw [ended]; rfl)
  have notStarted : process.monitor.owner ≠ .started := by
    intro isStarted
    have onStack := (owner_of_standing standing).mp isStarted
    rw [empty] at onStack
    cases onStack
  have unhealthy := standing.owned.quiet notStarted
  have started := started_iff standing
  have wasLeft : process.codex.entered ≠ none → process.codex.exits ≠ [] := by
    intro entered
    rcases leaving.exited entered with left | onStack | isExiting
    · exact left
    · have onStack : .runtime ∈ process.stack := onStack
      rw [empty] at onStack
      cases onStack
    · rw [ended] at isExiting
      cases isExiting
  constructor
  · obtain ⟨pushed, popped, isUses, balanced, _⟩ := used.balanced
    rw [empty, List.reverse_nil, List.nil_append] at balanced
    refine ⟨pushed, ?_⟩
    rw [isUses, balanced, List.reverse_reverse]
  · constructor
    · intro isOpen
      have onStack : .conversationRepository ∈ process.stack := leaving.conversations isOpen
      rw [empty] at onStack
      cases onStack
    · intro isOpen
      have onStack : .approvalRepository ∈ process.stack := leaving.approvals isOpen
      rw [empty] at onStack
      cases onStack
  · constructor
    · simp [Monitor.ready, DependencyReadiness.ready, unhealthy]
    · cases hasStarted : process.monitor.owner.hasStarted with
      | false => exact .inl (standing.owned.absent hasStarted)
      | true =>
          right
          rw [standing.owned.requested]
          cases owner : process.monitor.owner <;> simp [owner, Owner.hasStarted] at hasStarted
          · exact absurd owner notStarted
          · rfl
          · rfl
  · exact wasLeft
  · exact closed_of_behind shutting (by rw [ended]; rfl)
  · intro quiet
    obtain ⟨exits, outside⟩ := standing.calm quiet
    obtain ⟨hasStarted, closing⟩ := outside (by rw [ended]; rfl)
    refine ⟨?_, ?_, shutting.calm quiet (by rw [ended]; rfl)⟩
    · by_contra isStarted
      obtain ⟨entered, never⟩ := started.mp (by simpa using isStarted)
      obtain ⟨exit, member⟩ := List.exists_mem_of_ne_nil _ (wasLeft (by simp [entered]))
      cases exit with
      | false => exact exits member
      | true => exact never member
    · apply standing.owned.ended
      cases owner : process.monitor.owner <;> simp [owner, Owner.hasStarted] at hasStarted
      · exact absurd owner notStarted
      · have impossible := closing owner
        rw [ended] at impossible
        cases impossible
      · rfl

/-- Whichever statements raise and however the tasks, the requests and the readiness loop take their
steps in between: once the lifespan has ended, everything it opened has been closed, the last opened
first; and where nothing was raised no task is left. -/
theorem lifespan_closes_everything (maxActive now : Nat) (labels : List (LifespanLabel Value))
    (process : Process Value) (uses : List StackUse)
    (reached : ((lifespanMachine Value maxActive).withHistory (stackUse maxActive)).run
      (start now, []) labels = some (process, uses)) :
    Orderly process ∧ (process.point = .ended → Released process uses) := by
  have ⟨standing, shutting, used⟩ :
      Standing process ∧ Shutting process ∧ Used process uses := by
    apply Machine.run_invariant _
      (fun current => Standing current.1 ∧ Shutting current.1 ∧ Used current.1 current.2) _
      ⟨standing_start now, shutting_start now, used_start now⟩ reached
    intro current label next holds stepped
    have ⟨here, notes⟩ := (Machine.with_history_step ..).mp stepped
    rw [notes]
    exact ⟨standing_step holds.1 here, shutting_step holds.1 holds.2.1 here,
      used_step holds.2.2 here⟩
  exact ⟨⟨shutting.cancelled, started_iff standing⟩,
    released_of_ended standing shutting used⟩

/-- A chat is running at shutdown and outlasts the drain, and the first call of `__aexit__` raises:
the exit stack calls it again. -/
def failingClose : List (LifespanLabel Unit) :=
  [.advance true, .advance true, .startProbed true, .startProbed true, .advance true,
    .advance true, .advance true, .slot (.submit "chat"), .slot (.firstStep 0), .advance true,
    .advance true, .advance false, .slot (.settle 0 (.error .cancelled)), .advance true,
    .advance true, .advance true, .advance true, .monitor .loopCancelled, .advance true,
    .advance true, .advance true, .advance true]

theorem lifespan_closes_everything_failing_close :
    ∃ process uses, ((lifespanMachine Unit 4).withHistory (stackUse 4)).run (start 0, [])
        failingClose = some (process, uses) ∧
      process.codex.exits = [false, true] ∧ process.raising = true ∧ Released process uses := by
  refine ⟨_, _, rfl, rfl, rfl, ?_⟩
  exact (lifespan_closes_everything 4 0 failingClose _ _ rfl).2 rfl

end Process

end AgentHarness.Core
