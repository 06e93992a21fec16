import AgentHarness.Library.Machine

/-!
# Readiness of the dependencies

`DependencyReadiness` with the one coroutine that starts and closes it and the task that repeats
`check`, on one event loop with a monotonic clock. Times are in milliseconds. One label is the code
between two suspension points.
-/

namespace AgentHarness.Core

open AgentHarness.Library

set_option autoImplicit false

structure DependencyReadiness (Probe : Type) where
  probes : List Probe
  interval : Nat
  maxAge : Nat
  lastSuccess : Option Nat
  healthy : Bool

/-- A call of `check` up to its next suspension: it awaits a probe, with others to follow, or its
handlers have run. -/
inductive Check (Probe : Type) where
  | awaiting (probe : Probe) (rest : List Probe)
  | finished (succeeded : Bool)

/-- Where the coroutine stands that owns the monitor. Only a monitor that was started is closed. -/
inductive Owner (Probe : Type) where
  | idle
  | starting (probe : Probe) (rest : List Probe)
  | refused
  | started
  | closing
  | closed

/-- Where the task of `_run` is suspended. -/
inductive Loop (Probe : Type) where
  | absent
  | created
  | sleeping (wakes : Nat)
  | checking (probe : Probe) (rest : List Probe)
  | ended

inductive MonitorLabel where
  | tick (elapsed : Nat)
  | start
  | startProbed (returned : Bool)
  | startCancelled
  | loopStarts
  | wakes
  | loopProbed (returned : Bool)
  | loopCancelled
  | close
  | closeReturns
  deriving DecidableEq, Repr

variable {Probe : Type}

/-- The `for` loop of `check` with these probes left. -/
def Check.goOn : List Probe → Check Probe
  | [] => .finished true
  | probe :: rest => .awaiting probe rest

/-- The awaited probe has answered. One that raises ends the loop. -/
def Check.answered (rest : List Probe) (returned : Bool) : Check Probe :=
  if returned then .goOn rest else .finished false

namespace DependencyReadiness

def new (probes : List Probe) (interval maxAge : Nat) : DependencyReadiness Probe where
  probes := probes
  interval := interval
  maxAge := maxAge
  lastSuccess := none
  healthy := false

/-- The clock is monotonic, so the difference is never cut off. -/
def ready (readiness : DependencyReadiness Probe) (now : Nat) : Bool :=
  readiness.healthy && readiness.lastSuccess.any fun last => decide (now - last < readiness.maxAge)

/-- The `except` and the `else` of `check`. -/
def conclude (readiness : DependencyReadiness Probe) (now : Nat) (succeeded : Bool) :
    DependencyReadiness Probe :=
  if succeeded then { readiness with lastSuccess := some now, healthy := true }
  else { readiness with healthy := false }

end DependencyReadiness

structure Monitor (Probe : Type) where
  readiness : DependencyReadiness Probe
  now : Nat
  owner : Owner Probe
  loop : Loop Probe
  cancelRequested : Bool

namespace Monitor

def new (probes : List Probe) (interval maxAge now : Nat) : Monitor Probe where
  readiness := .new probes interval maxAge
  now := now
  owner := .idle
  loop := .absent
  cancelRequested := false

def ready (monitor : Monitor Probe) : Bool := monitor.readiness.ready monitor.now

/-- `start` after a resumption of its `check`: it refuses a monitor that is not ready. -/
def startChecks (monitor : Monitor Probe) : Check Probe → Monitor Probe
  | .awaiting probe rest => { monitor with owner := .starting probe rest }
  | .finished succeeded =>
      let readiness := monitor.readiness.conclude monitor.now succeeded
      if readiness.ready monitor.now then
        { monitor with readiness := readiness, owner := .started, loop := .created }
      else { monitor with readiness := readiness, owner := .refused }

/-- `_run` after a resumption of its `check`. -/
def loopChecks (monitor : Monitor Probe) : Check Probe → Monitor Probe
  | .awaiting probe rest => { monitor with loop := .checking probe rest }
  | .finished succeeded =>
      { monitor with
        readiness := monitor.readiness.conclude monitor.now succeeded
        loop := .sleeping (monitor.now + monitor.readiness.interval) }

/-- A cancellation that was requested is thrown at the next resumption of the loop, whatever it was
waiting for, and no handler catches it. -/
def step (monitor : Monitor Probe) : MonitorLabel → Option (Monitor Probe)
  | .tick elapsed => some { monitor with now := monitor.now + elapsed }
  | .start =>
      match monitor.owner with
      | .idle => some (monitor.startChecks (.goOn monitor.readiness.probes))
      | _ => none
  | .startProbed returned =>
      match monitor.owner with
      | .starting _ rest => some (monitor.startChecks (.answered rest returned))
      | _ => none
  | .startCancelled =>
      match monitor.owner with
      | .starting _ _ => some { monitor with owner := .refused }
      | _ => none
  | .loopStarts =>
      match monitor.loop, monitor.cancelRequested with
      | .created, false =>
          some { monitor with loop := .sleeping (monitor.now + monitor.readiness.interval) }
      | _, _ => none
  | .wakes =>
      match monitor.loop, monitor.cancelRequested with
      | .sleeping wakes, false =>
          if wakes ≤ monitor.now then some (monitor.loopChecks (.goOn monitor.readiness.probes))
          else none
      | _, _ => none
  | .loopProbed returned =>
      match monitor.loop, monitor.cancelRequested with
      | .checking _ rest, false => some (monitor.loopChecks (.answered rest returned))
      | _, _ => none
  | .loopCancelled =>
      match monitor.loop, monitor.cancelRequested with
      | .created, true | .sleeping _, true | .checking _ _, true =>
          some { monitor with loop := .ended }
      | _, _ => none
  | .close =>
      match monitor.owner with
      | .started =>
          some { monitor with
            readiness := { monitor.readiness with healthy := false }
            cancelRequested := true
            owner := .closing }
      | _ => none
  | .closeReturns =>
      match monitor.owner, monitor.loop with
      | .closing, .ended => some { monitor with owner := .closed }
      | _, _ => none

end Monitor

def monitorMachine (Probe : Type) : Machine (Monitor Probe) MonitorLabel where
  step := Monitor.step

def Owner.isOpen : Owner Probe → Bool
  | .idle | .starting _ _ | .refused | .started => true
  | .closing | .closed => false

def Owner.hasStarted : Owner Probe → Bool
  | .idle | .starting _ _ | .refused => false
  | .started | .closing | .closed => true

namespace Monitor

/-- How far the step takes a call of `check`. -/
def checkOf (monitor : Monitor Probe) : MonitorLabel → Option (Check Probe)
  | .start | .wakes => some (.goOn monitor.readiness.probes)
  | .startProbed returned =>
      match monitor.owner with
      | .starting _ rest => some (.answered rest returned)
      | _ => none
  | .loopProbed returned =>
      match monitor.loop with
      | .checking _ rest => some (.answered rest returned)
      | _ => none
  | _ => none

/-- The time and the result of the check that the step finishes. -/
def verdict (monitor : Monitor Probe) (label : MonitorLabel) : Option (Nat × Bool) :=
  match monitor.checkOf label with
  | some (.finished succeeded) => some (monitor.now, succeeded)
  | _ => none

/-! ## What one step does to the readiness -/

inductive MonitorStep (monitor next : Monitor Probe) : Option (Nat × Bool) → Prop where
  | kept (readiness : next.readiness = monitor.readiness)
      (isOpen : next.owner.isOpen = monitor.owner.isOpen)
      (requested : next.cancelRequested = monitor.cancelRequested) : MonitorStep monitor next none
  | concluded (succeeded : Bool)
      (readiness : next.readiness = monitor.readiness.conclude monitor.now succeeded)
      (isOpen : next.owner.isOpen = monitor.owner.isOpen)
      (requested : next.cancelRequested = monitor.cancelRequested)
      (active : monitor.owner.isOpen = true ∨ monitor.cancelRequested = false) :
      MonitorStep monitor next (some (monitor.now, succeeded))
  | closes (readiness : next.readiness = { monitor.readiness with healthy := false })
      (isClosed : next.owner.isOpen = false) (requested : next.cancelRequested = true) :
      MonitorStep monitor next none

variable {monitor next : Monitor Probe} {label : MonitorLabel}

theorem start_checks_step {check : Check Probe} (current : monitor.checkOf label = some check)
    (isOpen : monitor.owner.isOpen = true) :
    MonitorStep monitor (monitor.startChecks check) (monitor.verdict label) := by
  cases check with
  | awaiting probe rest =>
      simp only [verdict, current]
      exact .kept rfl isOpen.symm rfl
  | finished succeeded =>
      simp only [verdict, current, startChecks]
      split_ifs
      · exact .concluded succeeded rfl isOpen.symm rfl (.inl isOpen)
      · exact .concluded succeeded rfl isOpen.symm rfl (.inl isOpen)

theorem loop_checks_step {check : Check Probe} (current : monitor.checkOf label = some check)
    (active : monitor.cancelRequested = false) :
    MonitorStep monitor (monitor.loopChecks check) (monitor.verdict label) := by
  cases check with
  | awaiting probe rest =>
      simp only [verdict, current]
      exact .kept rfl rfl rfl
  | finished succeeded =>
      simp only [verdict, current, loopChecks]
      exact .concluded succeeded rfl rfl rfl (.inr active)

theorem monitor_step (stepped : monitor.step label = some next) :
    MonitorStep monitor next (monitor.verdict label) := by
  cases label with
  | tick elapsed =>
      cases stepped
      exact .kept rfl rfl rfl
  | start =>
      simp only [step] at stepped
      split at stepped
      · rename_i idle
        cases stepped
        apply start_checks_step rfl
        rw [idle]
        rfl
      · cases stepped
  | startProbed returned =>
      simp only [step] at stepped
      split at stepped
      · rename_i probe rest starting
        cases stepped
        apply start_checks_step
        · simp only [checkOf, starting]
        · rw [starting]
          rfl
      · cases stepped
  | startCancelled =>
      simp only [step] at stepped
      split at stepped
      · rename_i starting
        cases stepped
        apply MonitorStep.kept
        · rfl
        · rw [starting]
          rfl
        · rfl
      · cases stepped
  | loopStarts =>
      simp only [step] at stepped
      split at stepped
      · cases stepped
        exact .kept rfl rfl rfl
      · cases stepped
  | wakes =>
      simp only [step] at stepped
      split at stepped
      · rename_i active
        split at stepped
        · cases stepped
          exact loop_checks_step rfl active
        · cases stepped
      · cases stepped
  | loopProbed returned =>
      simp only [step] at stepped
      split at stepped
      · rename_i probe rest checking active
        cases stepped
        apply loop_checks_step _ active
        simp only [checkOf, checking]
      · cases stepped
  | loopCancelled =>
      simp only [step] at stepped
      split at stepped
      any_goals cases stepped
      all_goals exact .kept rfl rfl rfl
  | close =>
      simp only [step] at stepped
      split at stepped
      · cases stepped
        exact .closes rfl rfl rfl
      · cases stepped
  | closeReturns =>
      simp only [step] at stepped
      split at stepped
      · rename_i closing _
        cases stepped
        apply MonitorStep.kept
        · rfl
        · rw [closing]
          rfl
        · rfl
      · cases stepped

/-! ## What the readiness says in a whole run -/

/-- The checks finished so far, as far as the readiness depends on them. -/
structure Recorded (maxAge : Nat) (monitor : Monitor Probe) (verdicts : List (Nat × Bool)) :
    Prop where
  bound : monitor.readiness.maxAge = maxAge
  requested : monitor.cancelRequested = !monitor.owner.isOpen
  healthy : monitor.readiness.healthy = true ↔
    monitor.owner.isOpen = true ∧ ∃ last, verdicts.getLast? = some (last, true)
  latest : ∀ last, verdicts.getLast? = some (last, true) →
    monitor.readiness.lastSuccess = some last

theorem recorded_new (probes : List Probe) (interval maxAge now : Nat) :
    Recorded maxAge (.new probes interval maxAge now) [] where
  bound := rfl
  requested := rfl
  healthy := by simp [new, DependencyReadiness.new]
  latest := by simp

theorem recorded_step {maxAge : Nat} {verdicts : List (Nat × Bool)}
    (recorded : Recorded maxAge monitor verdicts) (stepped : monitor.step label = some next) :
    Recorded maxAge next (verdicts ++ (monitor.verdict label).toList) := by
  have effect := monitor_step stepped
  generalize monitor.verdict label = verdict at effect
  cases effect with
  | kept readiness isOpen requested =>
      rw [Option.toList_none, List.append_nil]
      constructor
      · rw [readiness, recorded.bound]
      · rw [requested, isOpen, recorded.requested]
      · rw [readiness, isOpen]
        exact recorded.healthy
      · rw [readiness]
        exact recorded.latest
  | concluded succeeded readiness isOpen requested active =>
      have wasOpen : monitor.owner.isOpen = true := by
        rcases active with here | notRequested
        · exact here
        · rw [recorded.requested] at notRequested
          simpa using notRequested
      constructor
      · rw [readiness, ← recorded.bound]
        cases succeeded
        · rfl
        · rfl
      · rw [requested, isOpen, recorded.requested]
      · rw [readiness, isOpen, wasOpen]
        cases succeeded
        · simp [DependencyReadiness.conclude]
        · simp [DependencyReadiness.conclude]
      · intro last isLast
        rw [readiness]
        cases succeeded
        · simp at isLast
        · simp only [Option.toList_some, List.getLast?_append, List.getLast?_singleton,
            Option.some_or, Option.some.injEq, Prod.mk.injEq, and_true] at isLast
          rw [← isLast]
          rfl
  | closes readiness isClosed requested =>
      rw [Option.toList_none, List.append_nil]
      constructor
      · rw [readiness]
        exact recorded.bound
      · rw [requested, isClosed]
        rfl
      · rw [readiness, isClosed]
        simp
      · rw [readiness]
        exact recorded.latest

theorem recorded_run {probes : List Probe} {interval maxAge now : Nat}
    {labels : List MonitorLabel} {verdicts : List (Nat × Bool)}
    (reached : ((monitorMachine Probe).withHistory verdict).run
      (.new probes interval maxAge now, []) labels = some (monitor, verdicts)) :
    Recorded maxAge monitor verdicts := by
  apply Machine.run_invariant _ (fun current => Recorded maxAge current.1 current.2) _
    (recorded_new probes interval maxAge now) reached
  intro current label next recorded stepped
  have ⟨here, notes⟩ := (Machine.with_history_step ..).mp stepped
  rw [notes]
  exact recorded_step recorded here

theorem Recorded.ready_iff {maxAge : Nat} {verdicts : List (Nat × Bool)}
    (recorded : Recorded maxAge monitor verdicts) :
    monitor.ready = true ↔ monitor.owner.isOpen = true ∧
      ∃ last, verdicts.getLast? = some (last, true) ∧ monitor.now - last < maxAge := by
  unfold ready DependencyReadiness.ready
  rw [Bool.and_eq_true, recorded.healthy, recorded.bound]
  constructor
  · rintro ⟨⟨isOpen, last, isLast⟩, fresh⟩
    rw [recorded.latest last isLast] at fresh
    exact ⟨isOpen, last, isLast, of_decide_eq_true fresh⟩
  · rintro ⟨isOpen, last, isLast, fresh⟩
    refine ⟨⟨isOpen, last, isLast⟩, ?_⟩
    rw [recorded.latest last isLast]
    exact decide_eq_true fresh

/-! ## What the owner can rely on -/

/-- A loop exists only once the monitor was started, and the owner that closed it has seen it
end. -/
structure Owned (monitor : Monitor Probe) : Prop where
  positive : 0 < monitor.readiness.maxAge
  requested : monitor.cancelRequested = !monitor.owner.isOpen
  quiet : monitor.owner ≠ .started → monitor.readiness.healthy = false
  absent : monitor.owner.hasStarted = false → monitor.loop = .absent
  ended : monitor.owner = .closed → monitor.loop = .ended

theorem owned_new (probes : List Probe) (interval maxAge now : Nat) (positive : 0 < maxAge) :
    Owned (.new probes interval maxAge now) where
  positive := positive
  requested := rfl
  quiet _ := rfl
  absent _ := rfl
  ended isClosed := nomatch isClosed

theorem owned_start_checks (owned : Owned monitor) (waiting : monitor.owner.hasStarted = false)
    (check : Check Probe) : Owned (monitor.startChecks check) := by
  have notStarted : monitor.owner ≠ .started := by
    intro same
    rw [same] at waiting
    cases waiting
  have isOpen : monitor.owner.isOpen = true := by
    cases standing : monitor.owner <;> simp [standing, Owner.hasStarted] at waiting <;> rfl
  have requested : monitor.cancelRequested = false := by
    rw [owned.requested, isOpen]
    rfl
  cases check with
  | awaiting probe rest =>
      exact ⟨owned.positive, requested, fun _ => owned.quiet notStarted,
        fun _ => owned.absent waiting, fun isClosed => nomatch isClosed⟩
  | finished succeeded =>
      cases succeeded with
      | false =>
          unfold startChecks
          simp only [DependencyReadiness.ready, DependencyReadiness.conclude,
            Bool.false_eq_true, if_false, Bool.false_and]
          exact ⟨owned.positive, requested, fun _ => rfl, fun _ => owned.absent waiting,
            fun isClosed => nomatch isClosed⟩
      | true =>
          have ready : (monitor.readiness.conclude monitor.now true).ready monitor.now = true := by
            simp [DependencyReadiness.ready, DependencyReadiness.conclude, owned.positive]
          unfold startChecks
          simp only [ready, if_true]
          exact ⟨owned.positive, requested, fun other => absurd rfl other,
            (fun isWaiting => nomatch isWaiting), fun isClosed => nomatch isClosed⟩

theorem conclude_max_age (readiness : DependencyReadiness Probe) (now : Nat) (succeeded : Bool) :
    (readiness.conclude now succeeded).maxAge = readiness.maxAge := by
  unfold DependencyReadiness.conclude
  split_ifs
  · rfl
  · rfl

/-- A step of the loop, seen by the owner. -/
theorem owned_loop {loop : Loop Probe} {readiness : DependencyReadiness Probe}
    (owned : Owned monitor) (isStarted : monitor.owner = .started)
    (same : readiness.maxAge = monitor.readiness.maxAge) :
    Owned { monitor with readiness := readiness, loop := loop } where
  positive := same ▸ owned.positive
  requested := owned.requested
  quiet other := absurd isStarted other
  absent waiting := by
    rw [isStarted] at waiting
    cases waiting
  ended isClosed := by
    rw [isStarted] at isClosed
    cases isClosed

theorem owned_loop_checks (owned : Owned monitor) (isStarted : monitor.owner = .started)
    (check : Check Probe) : Owned (monitor.loopChecks check) := by
  cases check with
  | awaiting probe rest => exact owned_loop owned isStarted rfl
  | finished succeeded => exact owned_loop owned isStarted (conclude_max_age _ _ _)

/-- A loop that goes on is the loop of a monitor that was started and not closed. -/
theorem Owned.started_of_active (owned : Owned monitor) (active : monitor.cancelRequested = false)
    (present : monitor.loop ≠ .absent) : monitor.owner = .started := by
  have isOpen : monitor.owner.isOpen = true := by
    have requested := owned.requested
    rw [active] at requested
    simpa using requested.symm
  cases standing : monitor.owner with
  | started => rfl
  | closing => simp [standing, Owner.isOpen] at isOpen
  | closed => simp [standing, Owner.isOpen] at isOpen
  | idle => exact absurd (owned.absent (by rw [standing]; rfl)) present
  | starting probe rest => exact absurd (owned.absent (by rw [standing]; rfl)) present
  | refused => exact absurd (owned.absent (by rw [standing]; rfl)) present

theorem owned_step (owned : Owned monitor) (stepped : monitor.step label = some next) :
    Owned next := by
  cases label with
  | tick elapsed =>
      cases stepped
      exact ⟨owned.positive, owned.requested, owned.quiet, owned.absent, owned.ended⟩
  | start =>
      simp only [step] at stepped
      split at stepped
      · rename_i idle
        cases stepped
        apply owned_start_checks owned
        rw [idle]
        rfl
      · cases stepped
  | startProbed returned =>
      simp only [step] at stepped
      split at stepped
      · rename_i probe rest starting
        cases stepped
        apply owned_start_checks owned
        rw [starting]
        rfl
      · cases stepped
  | startCancelled =>
      simp only [step] at stepped
      split at stepped
      · rename_i starting
        cases stepped
        constructor
        · exact owned.positive
        · rw [owned.requested, starting]
          rfl
        · intro _
          apply owned.quiet
          rw [starting]
          exact fun same => nomatch same
        · intro _
          apply owned.absent
          rw [starting]
          rfl
        · exact fun isClosed => nomatch isClosed
      · cases stepped
  | loopStarts =>
      simp only [step] at stepped
      split at stepped
      · rename_i created active
        cases stepped
        have isStarted := owned.started_of_active active (by simp [created])
        exact owned_loop owned isStarted rfl
      · cases stepped
  | wakes =>
      simp only [step] at stepped
      split at stepped
      · rename_i sleeping active
        split at stepped
        · cases stepped
          exact owned_loop_checks owned (owned.started_of_active active (by simp [sleeping])) _
        · cases stepped
      · cases stepped
  | loopProbed returned =>
      simp only [step] at stepped
      split at stepped
      · rename_i checking active
        cases stepped
        exact owned_loop_checks owned (owned.started_of_active active (by simp [checking])) _
      · cases stepped
  | loopCancelled =>
      have ended : next = { monitor with loop := .ended } ∧ monitor.loop ≠ .absent := by
        simp only [step] at stepped
        split at stepped
        any_goals cases stepped
        all_goals
          rename_i standing _
          simp [standing]
      rw [ended.1]
      exact ⟨owned.positive, owned.requested, owned.quiet,
        fun waiting => absurd (owned.absent waiting) ended.2, fun _ => rfl⟩
  | close =>
      simp only [step] at stepped
      split at stepped
      · cases stepped
        exact ⟨owned.positive, rfl, fun _ => rfl, (fun waiting => nomatch waiting),
          fun isClosed => nomatch isClosed⟩
      · cases stepped
  | closeReturns =>
      simp only [step] at stepped
      split at stepped
      · rename_i closing ended
        cases stepped
        constructor
        · exact owned.positive
        · rw [owned.requested, closing]
          rfl
        · intro _
          apply owned.quiet
          rw [closing]
          exact fun same => nomatch same
        · exact fun waiting => nomatch waiting
        · exact fun _ => ended
      · cases stepped

end Monitor

end AgentHarness.Core
