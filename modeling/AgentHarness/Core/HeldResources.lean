import AgentHarness.Core.LifespanSteps

/-!
# What the lifespan holds

What the coroutine has opened and not closed yet at each of its points, in every order of the steps
beside it and whichever of its statements raise.
-/

namespace AgentHarness.Core

open AgentHarness.Library AgentHarness.Runtime

set_option autoImplicit false

variable {Value : Type}

/-- What the coroutine has opened and not closed yet. -/
structure Holding where
  stack : List Callback
  conversationPool : Pool
  approvalPool : Pool
  codex : CodexHandle

/-- In the body what is held is known from the point alone. -/
def Point.holding : Point → Option Holding
  | .openConversations => some ⟨[], .absent, .absent, ⟨false, none, []⟩⟩
  | .openApprovals => some ⟨[.conversationRepository], .opened, .absent, ⟨false, none, []⟩⟩
  | .startReadiness =>
      some ⟨[.approvalRepository, .conversationRepository], .opened, .opened, ⟨false, none, []⟩⟩
  | .assembleRuntime | .enterCodex =>
      some ⟨[.readiness, .approvalRepository, .conversationRepository], .opened, .opened,
        ⟨false, none, []⟩⟩
  | .abandonCodex =>
      some ⟨[.readiness, .approvalRepository, .conversationRepository], .opened, .opened,
        ⟨false, some false, []⟩⟩
  | .assembleServices | .serving | .draining _ | .closingRuntime =>
      some ⟨[.runtime, .readiness, .approvalRepository, .conversationRepository], .opened, .opened,
        ⟨true, some true, []⟩⟩
  | .cancelling _ | .unwinding | .closingReadiness | .exitingRuntime | .ended => none

/-- On the way out what is open is what has its callback on the stack. The SDK was left by a call
of `__aexit__`, has its callback on the stack, or is being left. -/
structure Holding.Leaving (holding : Holding) (exiting : Prop) : Prop where
  stack : holding.stack <:+
    [.runtime, .readiness, .approvalRepository, .conversationRepository]
  conversations : holding.conversationPool = .opened → .conversationRepository ∈ holding.stack
  approvals : holding.approvalPool = .opened → .approvalRepository ∈ holding.stack
  started : holding.codex.started = true ↔
    holding.codex.entered = some true ∧ true ∉ holding.codex.exits
  entered : .runtime ∈ holding.stack → holding.codex.entered = some true
  exited : holding.codex.entered ≠ none →
    holding.codex.exits ≠ [] ∨ .runtime ∈ holding.stack ∨ exiting

theorem leaving_of_body {point : Point} {holding : Holding} (held : point.holding = some holding)
    (kept : point ≠ .abandonCodex) : holding.Leaving False := by
  cases point with
  | abandonCodex => exact absurd rfl kept
  | cancelling | unwinding | closingReadiness | exitingRuntime | ended => cases held
  | openConversations | openApprovals | startReadiness | assembleRuntime | enterCodex
  | assembleServices | serving | draining | closingRuntime =>
      cases held
      constructor
      · decide
      all_goals simp

theorem Holding.Leaving.weaken {holding : Holding} {before after : Prop}
    (leaving : holding.Leaving before) (weaker : before → after) : holding.Leaving after where
  stack := leaving.stack
  conversations := leaving.conversations
  approvals := leaving.approvals
  started := leaving.started
  entered := leaving.entered
  exited wasEntered := by
    rcases leaving.exited wasEntered with left | onStack | exiting
    · exact .inl left
    · exact .inr (.inl onStack)
    · exact .inr (.inr (weaker exiting))

namespace Process

variable {process next : Process Value}

def holding (process : Process Value) : Holding :=
  ⟨process.stack, process.conversationPool, process.approvalPool, process.codex⟩

/-- What the coroutine has done to the monitor. -/
def OwnerFits (point : Point) (stack : List Callback) (owner : Owner Healthcheck) : Prop :=
  match point with
  | .openConversations | .openApprovals => owner = .idle
  | .startReadiness => owner.hasStarted = false ∧ owner ≠ .refused
  | .closingReadiness => owner = .closing ∧ .readiness ∉ stack
  | _ => (owner = .started ↔ .readiness ∈ stack)

structure Standing (process : Process Value) : Prop where
  body : ∀ holding, process.point.holding = some holding → process.holding = holding
  leaving : process.point.holding = none →
    process.holding.Leaving (process.point = .exitingRuntime)
  owner : OwnerFits process.point process.stack process.monitor.owner
  owned : process.monitor.Owned
  calm : process.raising = false → false ∉ process.codex.exits ∧
    (process.point.holding = none → process.monitor.owner.hasStarted = true ∧
      (process.monitor.owner = .closing → process.point = .closingReadiness))

/-! ## The coroutine's own steps -/

theorem standing_of_body {holding : Holding} (held : next.point.holding = some holding)
    (same : next.holding = holding) (owner : OwnerFits next.point next.stack next.monitor.owner)
    (owned : next.monitor.Owned) (calm : next.raising = false → false ∉ next.codex.exits) :
    Standing next where
  body other isOther := by
    rw [held] at isOther
    cases isOther
    exact same
  leaving outside := by
    rw [held] at outside
    cases outside
  owner := owner
  owned := owned
  calm quiet := by
    apply And.intro (calm quiet)
    intro outside
    rw [held] at outside
    cases outside

theorem standing_of_leaving (outside : next.point.holding = none)
    (leaving : next.holding.Leaving (next.point = .exitingRuntime))
    (owner : OwnerFits next.point next.stack next.monitor.owner) (owned : next.monitor.Owned)
    (calm : next.raising = false → false ∉ next.codex.exits ∧
      next.monitor.owner.hasStarted = true ∧
        (next.monitor.owner = .closing → next.point = .closingReadiness)) :
    Standing next where
  body other isOther := by
    rw [outside] at isOther
    cases isOther
  leaving _ := leaving
  owner := owner
  owned := owned
  calm quiet := ⟨(calm quiet).1, fun _ => (calm quiet).2⟩

/-- The owner fits the unwinding as soon as the body is left. -/
theorem owner_of_standing (standing : Standing process) :
    process.monitor.owner = .started ↔ .readiness ∈ process.stack := by
  have fits := standing.owner
  have body := standing.body
  unfold OwnerFits at fits
  cases point : process.point with
  | openConversations | openApprovals =>
      simp only [point] at fits body
      have here := congrArg Holding.stack (body _ rfl)
      have stack : process.stack = _ := here
      rw [fits, stack]
      simp
  | startReadiness =>
      simp only [point] at fits body
      have here := congrArg Holding.stack (body _ rfl)
      have stack : process.stack = _ := here
      rw [stack]
      simp only [List.mem_cons, List.not_mem_nil, reduceCtorEq, or_self, iff_false]
      intro isStarted
      rw [isStarted] at fits
      cases fits.1
  | closingReadiness =>
      simp only [point] at fits
      simp [fits]
  | assembleRuntime | enterCodex | abandonCodex | assembleServices | serving | draining
  | closingRuntime | cancelling | unwinding | exitingRuntime | ended =>
      simpa only [point] using fits

/-- An exception that leaves the body, or ends a wait on the way out. -/
theorem standing_fail (standing : Standing process) (kept : process.point ≠ .abandonCodex)
    (notExiting : process.point ≠ .exitingRuntime) : Standing process.fail := by
  apply standing_of_leaving rfl
  · cases held : process.point.holding with
    | some holding =>
        have leaving := leaving_of_body held kept
        rw [← standing.body holding held] at leaving
        exact leaving.weaken fun impossible => impossible.elim
    | none => exact (standing.leaving held).weaken fun isExiting => absurd isExiting notExiting
  · have fits := owner_of_standing standing
    exact fits
  · exact standing.owned
  · exact fun quiet => nomatch quiet

theorem standing_resume_start {label : MonitorLabel}
    (held : Point.startReadiness.holding = some process.holding) (owned : process.monitor.Owned)
    (ofStart : label = .start ∨ (∃ returned, label = .startProbed returned) ∨
      label = .startCancelled)
    (resumed : process.resumeStart label = some next) : Standing next := by
  have ⟨monitor, stepped, result⟩ := Option.map_eq_some_iff.mp resumed
  have nextOwned := Monitor.owned_step owned stepped
  have ⟨stack, conversations, approvals, codex⟩ :
      [.approvalRepository, .conversationRepository] = process.stack ∧
        .opened = process.conversationPool ∧ .opened = process.approvalPool ∧
        ⟨false, none, []⟩ = process.codex := by
    simpa only [Point.holding, holding, Option.some.injEq, Holding.mk.injEq] using held
  rcases owner_of_start ofStart stepped with isStarted | isRefused | ⟨probe, rest, isStarting⟩
  · simp only [isStarted] at result
    subst result
    apply standing_of_body rfl
    · simp only [holding, ← stack, ← conversations, ← approvals, ← codex]
    · simp [OwnerFits, isStarted]
    · exact nextOwned
    · simp [← codex]
  · simp only [isRefused] at result
    subst result
    apply standing_of_leaving rfl
    · have leaving := leaving_of_body held (fun same => nomatch same)
      exact leaving.weaken fun impossible => impossible.elim
    · simp [OwnerFits, fail, isRefused, ← stack]
    · exact nextOwned
    · exact fun quiet => nomatch quiet
  · simp only [isStarting] at result
    subst result
    apply standing_of_body held
    · rfl
    · simp [OwnerFits, isStarting, Owner.hasStarted]
    · exact nextOwned
    · simp [← codex]

theorem suffix_cases {stack : List Callback}
    (suffix : stack <:+ [.runtime, .readiness, .approvalRepository, .conversationRepository]) :
    stack = [.runtime, .readiness, .approvalRepository, .conversationRepository] ∨
      stack = [.readiness, .approvalRepository, .conversationRepository] ∨
      stack = [.approvalRepository, .conversationRepository] ∨
      stack = [.conversationRepository] ∨ stack = [] := by
  simpa [List.suffix_cons_iff] using suffix

theorem standing_unwind {returned : Bool} (standing : Standing process)
    (point : process.point = .unwinding) (unwound : process.unwind returned = some next) :
    Standing next := by
  have leaving := standing.leaving (by rw [point]; rfl)
  have owner := owner_of_standing standing
  have calm : process.raising = false → false ∉ process.codex.exits ∧
      process.monitor.owner.hasStarted = true ∧ process.monitor.owner ≠ .closing := by
    intro quiet
    have ⟨exits, outside⟩ := standing.calm quiet
    have ⟨hasStarted, closing⟩ := outside (by rw [point]; rfl)
    refine ⟨exits, hasStarted, ?_⟩
    intro isClosing
    rw [point] at closing
    cases closing isClosing
  have conversations : process.conversationPool = .opened →
      .conversationRepository ∈ process.stack := leaving.conversations
  have approvals : process.approvalPool = .opened →
      .approvalRepository ∈ process.stack := leaving.approvals
  have entered : .runtime ∈ process.stack → process.codex.entered = some true := leaving.entered
  have started : process.codex.started = true ↔
      process.codex.entered = some true ∧ true ∉ process.codex.exits := leaving.started
  have exited : process.codex.entered ≠ none →
      process.codex.exits ≠ [] ∨ .runtime ∈ process.stack := by
    intro wasEntered
    rcases leaving.exited wasEntered with left | onStack | isExiting
    · exact .inl left
    · exact .inr onStack
    · rw [point] at isExiting
      cases isExiting
  have calmly : process.raising = false → false ∉ process.codex.exits ∧
      process.monitor.owner.hasStarted = true ∧
        (process.monitor.owner = .closing → next.point = .closingReadiness) := by
    intro quiet
    have ⟨exits, hasStarted, notClosing⟩ := calm quiet
    exact ⟨exits, hasStarted, fun isClosing => absurd isClosing notClosing⟩
  unfold unwind at unwound
  rcases suffix_cases leaving.stack with stack | stack | stack | stack | stack
  all_goals
    have stack : process.stack = _ := stack
    rw [stack] at owner conversations approvals entered exited
    simp only [stack] at unwound
  · cases returned with
    | false => simp at unwound
    | true =>
        simp only [Bool.not_true, Bool.false_eq_true, if_false] at unwound
        split_ifs at unwound with isStarted
        · cases unwound
          apply standing_of_leaving rfl
          · constructor
            · exact List.suffix_cons _ _
            · simp [holding]
            · simp [holding]
            · exact started
            · simp [holding]
            · exact fun _ => .inr (.inr rfl)
          · simpa [OwnerFits] using owner
          · exact standing.owned
          · exact calmly
        · cases unwound
          have wasEntered := entered List.mem_cons_self
          have left : true ∈ process.codex.exits := by
            by_contra never
            exact isStarted (started.mpr ⟨wasEntered, never⟩)
          apply standing_of_leaving
          · rw [point]
            rfl
          · constructor
            · exact List.suffix_cons _ _
            · simp [holding]
            · simp [holding]
            · exact started
            · simp [holding]
            · exact fun _ => .inl (List.ne_nil_of_mem left)
          · simpa [OwnerFits, point] using owner
          · exact standing.owned
          · exact calmly
  · cases returned with
    | false => simp at unwound
    | true =>
        simp only [if_true, Option.map_eq_some_iff] at unwound
        have ⟨monitor, closed, result⟩ := unwound
        subst result
        have isClosing : monitor.owner = .closing := by
          simp only [Monitor.step] at closed
          split at closed
          · cases closed
            rfl
          · cases closed
        apply standing_of_leaving rfl
        · constructor
          · exact ⟨[.runtime, .readiness], rfl⟩
          · simp [holding]
          · simp [holding]
          · exact started
          · simp [holding]
          · intro wasEntered
            rcases exited wasEntered with left | onStack
            · exact .inl left
            · simp at onStack
        · simp [OwnerFits, isClosing]
        · exact Monitor.owned_step standing.owned closed
        · intro quiet
          refine ⟨(calm quiet).1, ?_, fun _ => rfl⟩
          simp [isClosing, Owner.hasStarted]
  · cases unwound
    apply standing_of_leaving
    · rw [note, point]
      rfl
    · constructor
      · exact ⟨[.runtime, .readiness, .approvalRepository], rfl⟩
      · simp [holding, note]
      · simp [holding, note]
      · exact started
      · simp [holding, note]
      · intro wasEntered
        rcases exited wasEntered with left | onStack
        · exact .inl left
        · simp at onStack
    · simpa [OwnerFits, point, note] using owner
    · exact standing.owned
    · intro quiet
      exact calmly (Bool.or_eq_false_iff.mp quiet).1
  · cases unwound
    apply standing_of_leaving
    · rw [note, point]
      rfl
    · constructor
      · exact List.nil_suffix
      · simp [holding, note]
      · intro isOpen
        have onStack := approvals isOpen
        simp at onStack
      · exact started
      · simp [holding, note]
      · intro wasEntered
        rcases exited wasEntered with left | onStack
        · exact .inl left
        · simp at onStack
    · simpa [OwnerFits, point, note] using owner
    · exact standing.owned
    · intro quiet
      exact calmly (Bool.or_eq_false_iff.mp quiet).1
  · cases returned with
    | false => simp at unwound
    | true =>
        cases unwound
        apply standing_of_leaving rfl
        · constructor
          · exact List.nil_suffix
          · exact conversations
          · exact approvals
          · exact started
          · exact entered
          · intro wasEntered
            rcases exited wasEntered with left | onStack
            · exact .inl left
            · simp at onStack
        · simpa [OwnerFits, stack] using owner
        · exact standing.owned
        · exact calmly

/-- In the body everything is known. -/
theorem held_of_standing {here : Point} {stack : List Callback} {conversations approvals : Pool}
    {codex : CodexHandle} (standing : Standing process) (point : process.point = here)
    (known : here.holding = some ⟨stack, conversations, approvals, codex⟩) :
    process.stack = stack ∧ process.conversationPool = conversations ∧
      process.approvalPool = approvals ∧ process.codex = codex := by
  have same := standing.body _ (point ▸ known)
  simpa only [holding, Holding.mk.injEq] using same

theorem standing_advance (standing : Standing process) (advance : Advance process next) :
    Standing next := by
  have fits := standing.owner
  have started := owner_of_standing standing
  have owned := standing.owned
  have calm : process.raising = false → false ∉ process.codex.exits :=
    fun quiet => (standing.calm quiet).1
  have outside : process.point.holding = none → process.raising = false →
      process.monitor.owner.hasStarted = true ∧
        (process.monitor.owner = .closing → process.point = .closingReadiness) :=
    fun body quiet => (standing.calm quiet).2 body
  cases advance with
  | failed raises =>
      apply standing_fail standing
      · intro point
        rw [point] at raises
        cases raises
      · intro point
        rw [point] at raises
        cases raises
  | openedConversations point =>
      obtain ⟨stack, _, approvals, codex⟩ := held_of_standing standing point rfl
      rw [point] at fits
      apply standing_of_body rfl
      · simp only [holding, stack, approvals, codex]
      · exact fits
      · exact owned
      · exact calm
  | openedApprovals point begun =>
      obtain ⟨stack, conversations, _, codex⟩ := held_of_standing standing point rfl
      apply standing_resume_start _ _ (.inl rfl) begun
      · simp only [Point.holding, holding, stack, conversations, codex]
      · exact owned
  | assembled point =>
      obtain ⟨stack, conversations, approvals, codex⟩ := held_of_standing standing point rfl
      apply standing_of_body rfl
      · simp only [holding, stack, conversations, approvals, codex]
      · exact started
      · exact owned
      · exact calm
  | entered point =>
      obtain ⟨stack, conversations, approvals, codex⟩ := held_of_standing standing point rfl
      apply standing_of_body rfl
      · simp only [holding, stack, conversations, approvals, codex]
      · simpa [OwnerFits] using started
      · exact owned
      · exact calm
  | notEntered point =>
      obtain ⟨stack, conversations, approvals, codex⟩ := held_of_standing standing point rfl
      apply standing_of_body rfl
      · simp only [holding, stack, conversations, approvals, codex]
      · exact started
      · exact owned
      · exact calm
  | abandoned point returned =>
      obtain ⟨stack, conversations, approvals, codex⟩ := held_of_standing standing point rfl
      apply standing_of_leaving rfl
      · constructor
        · simp only [holding, fail, exited, note, stack]
          exact List.suffix_cons _ _
        all_goals simp [holding, fail, exited, note, stack, codex]
      · exact started
      · exact owned
      · exact fun quiet => Bool.noConfusion quiet
  | served point limit positive =>
      obtain ⟨stack, conversations, approvals, codex⟩ := held_of_standing standing point rfl
      apply standing_of_body rfl
      · simp only [holding, stack, conversations, approvals, codex]
      · exact started
      · exact owned
      · exact calm
  | drains point returned slots admitted =>
      obtain ⟨stack, conversations, approvals, codex⟩ := held_of_standing standing point rfl
      apply standing_of_body rfl
      · simp only [holding, note, stack, conversations, approvals, codex]
      · exact started
      · exact owned
      · simp [note, codex]
  | drained call point slots after admitted isSettled closes =>
      obtain ⟨stack, conversations, approvals, codex⟩ := held_of_standing standing point rfl
      simp only [closeRuntime, codex, if_true] at closes
      cases closes
      apply standing_of_body rfl
      · simp only [holding, stack, conversations, approvals]
      · exact started
      · exact owned
      · simp
  | closed point returned slots admitted =>
      obtain ⟨stack, conversations, approvals, codex⟩ := held_of_standing standing point rfl
      apply standing_of_leaving rfl
      · constructor
        · simp only [holding, exited, note, stack]
          exact List.suffix_refl _
        all_goals cases returned <;> simp [holding, exited, note, stack, codex]
      · exact started
      · exact owned
      · intro quiet
        have isStarted : process.monitor.owner = .started := by
          rw [started, stack]
          simp
        cases returned
        · simp [exited, note] at quiet
        · simp [exited, note, codex, isStarted, Owner.hasStarted]
  | gathered call point slots after admitted isSettled =>
      have leaving := standing.leaving (by rw [point]; rfl)
      apply standing_of_leaving rfl
      · apply leaving.weaken
        intro isExiting
        rw [point] at isExiting
        cases isExiting
      · exact started
      · exact owned
      · intro quiet
        obtain ⟨hasStarted, closing⟩ := outside (by rw [point]; rfl) quiet
        refine ⟨calm quiet, hasStarted, fun isClosing => ?_⟩
        have impossible := closing isClosing
        rw [point] at impossible
        cases impossible
  | unwinds point returned unwound => exact standing_unwind standing point unwound
  | closedReadiness point monitor closed =>
      have leaving := standing.leaving (by rw [point]; rfl)
      rw [point] at fits
      have isClosed : monitor.owner = .closed := by
        simp only [Monitor.step] at closed
        split at closed
        · cases closed
          rfl
        · cases closed
      apply standing_of_leaving rfl
      · apply leaving.weaken
        intro isExiting
        rw [point] at isExiting
        cases isExiting
      · simpa [OwnerFits, isClosed] using fits.2
      · exact Monitor.owned_step owned closed
      · intro quiet
        refine ⟨calm quiet, ?_⟩
        simp [isClosed, Owner.hasStarted]
  | exitedRuntime point returned =>
      have leaving := standing.leaving (by rw [point]; rfl)
      have isStarted : process.codex.started = true ↔
          process.codex.entered = some true ∧ true ∉ process.codex.exits := leaving.started
      apply standing_of_leaving rfl
      · constructor
        · exact leaving.stack
        · exact leaving.conversations
        · exact leaving.approvals
        · cases returned
          · simpa [holding, exited, note] using isStarted
          · simp [holding, exited, note]
        · exact leaving.entered
        · simp [holding, exited, note]
      · exact started
      · exact owned
      · intro quiet
        obtain ⟨wasQuiet, isReturned⟩ := Bool.or_eq_false_iff.mp quiet
        obtain ⟨hasStarted, closing⟩ := outside (by rw [point]; rfl) wasQuiet
        refine ⟨?_, hasStarted, fun isClosing => ?_⟩
        · cases returned
          · cases isReturned
          · simpa [exited, note] using calm wasQuiet
        · have impossible := closing isClosing
          rw [point] at impossible
          cases impossible

theorem standing_start (now : Nat) : Standing (start now : Process Value) := by
  apply standing_of_body rfl
  · rfl
  · rfl
  · exact Monitor.owned_new _ _ _ _ (by decide)
  · simp [start]

theorem standing_step {maxActive : Nat} {label : LifespanLabel Value}
    (standing : Standing process) (stepped : process.step maxActive label = some next) :
    Standing next := by
  cases step_cases stepped with
  | advances advance => exact standing_advance standing advance
  | starts point label ofStart resumed =>
      apply standing_resume_start _ standing.owned ofStart resumed
      rw [standing.body _ (congrArg Point.holding point)]
      rfl
  | observes label ofLoop monitor moved =>
      have same := owner_of_loop ofLoop moved
      constructor
      · exact standing.body
      · exact standing.leaving
      · rw [same]
        exact standing.owner
      · exact Monitor.owned_step standing.owned moved
      · rw [same]
        exact standing.calm
  | works label ofRequests slots after admitted moved =>
      exact ⟨standing.body, standing.leaving, standing.owner, standing.owned, standing.calm⟩

/-- The flag `_started` lets calls through exactly between the two ends of the SDK. -/
theorem started_iff (standing : Standing process) : process.codex.started = true ↔
    process.codex.entered = some true ∧ true ∉ process.codex.exits := by
  cases held : process.point.holding with
  | none => exact (standing.leaving held).started
  | some holding =>
      have same := congrArg Holding.codex (standing.body holding held)
      have codex : process.codex = holding.codex := same
      rw [codex]
      cases point : process.point
      all_goals rw [point] at held
      all_goals cases held
      all_goals simp

end Process

end AgentHarness.Core
