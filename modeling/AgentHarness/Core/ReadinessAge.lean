import AgentHarness.Core.DependencyReadiness

/-!
# How old a readiness may get

The monitor where every await of its loop ends in time: a probe answers, and a task that can go on
is resumed, within `lag` milliseconds. The question is for which intervals and ages a service whose
probes all succeed never reports that it is not ready.
-/

namespace AgentHarness.Core

open AgentHarness.Library

set_option autoImplicit false

variable {Probe : Type}

namespace Monitor

/-- The times at which a coroutine was resumed. -/
def stamp (monitor : Monitor Probe) : MonitorLabel → Option Nat
  | .tick _ => none
  | _ => some monitor.now

/-- The time of the last resumption. -/
def since (stamps : List Nat) : Nat := stamps.getLast?.getD 0

/-- All probes return, nobody cancels or closes, and no await of the loop outlasts its limit. -/
def punctual (lag : Nat) (current : Monitor Probe × List Nat) : MonitorLabel → Bool
  | .tick elapsed =>
      match current.1.loop with
      | .absent | .ended => true
      | .sleeping wakes => decide (current.1.now + elapsed ≤ wakes + lag)
      | .created | .checking _ _ => decide (current.1.now + elapsed ≤ since current.2 + lag)
  | .startProbed returned | .loopProbed returned => returned
  | .start | .loopStarts | .wakes => true
  | .startCancelled | .loopCancelled | .close | .closeReturns => false

end Monitor

def punctualMachine (Probe : Type) (lag : Nat) : Machine (Monitor Probe × List Nat) MonitorLabel :=
  ((monitorMachine Probe).withHistory Monitor.stamp).restrict (Monitor.punctual lag)

namespace Monitor

variable {monitor next : Monitor Probe} {label : MonitorLabel} {stamps : List Nat} {lag : Nat}

theorem punctual_step (final : Monitor Probe × List Nat) :
    (punctualMachine Probe lag).step (monitor, stamps) label = some final ↔
      punctual lag (monitor, stamps) label = true ∧ monitor.step label = some final.1 ∧
        final.2 = stamps ++ (monitor.stamp label).toList := by
  unfold punctualMachine
  rw [Machine.restrict_step_eq_some, Machine.with_history_step]
  rfl

@[simp] theorem since_append (time : Nat) : since (stamps ++ [time]) = time := by
  simp [since]

/-! ## The age is bounded -/

/-- How long ago the last success can be, from where the loop stands. -/
def LoopAge (lag last : Nat) (monitor : Monitor Probe) (stamps : List Nat) : Prop :=
  match monitor.loop with
  | .absent | .ended => False
  | .created => since stamps = last ∧ monitor.now ≤ last + lag
  | .sleeping wakes =>
      wakes ≤ last + lag + monitor.readiness.interval ∧ monitor.now ≤ wakes + lag
  | .checking _ rest =>
      since stamps + (rest.length + 1) * lag ≤
          last + monitor.readiness.interval + (monitor.readiness.probes.length + 2) * lag ∧
        monitor.now ≤ since stamps + lag

/-- A monitor that was started has succeeded and is not overdue. -/
structure Aged (probes : List Probe) (interval maxAge lag : Nat)
    (monitor : Monitor Probe) (stamps : List Nat) : Prop where
  probed : monitor.readiness.probes = probes
  interval : monitor.readiness.interval = interval
  bound : monitor.readiness.maxAge = maxAge
  active : monitor.cancelRequested = false
  waiting : monitor.owner ≠ .started → monitor.loop = .absent
  started : monitor.owner = .started → monitor.readiness.healthy = true ∧
    ∃ last, monitor.readiness.lastSuccess = some last ∧ last ≤ monitor.now ∧
      LoopAge lag last monitor stamps

variable {probes : List Probe} {interval maxAge : Nat}

theorem aged_new (now : Nat) :
    Aged probes interval maxAge lag (.new probes interval maxAge now) [] where
  probed := rfl
  interval := rfl
  bound := rfl
  active := rfl
  waiting _ := rfl
  started isStarted := nomatch isStarted

theorem aged_start_checks (aged : Aged probes interval maxAge lag monitor stamps)
    (waiting : monitor.loop = .absent) (check : Check Probe) (success : check ≠ .finished false) :
    Aged probes interval maxAge lag (monitor.startChecks check) (stamps ++ [monitor.now]) := by
  cases check with
  | awaiting probe rest =>
      exact ⟨aged.probed, aged.interval, aged.bound, aged.active, fun _ => waiting,
        fun isStarted => nomatch isStarted⟩
  | finished succeeded =>
      cases succeeded with
      | false => exact absurd rfl success
      | true =>
          unfold startChecks
          simp only
          split_ifs with ready
          · constructor
            · exact aged.probed
            · exact aged.interval
            · exact aged.bound
            · exact aged.active
            · exact fun other => absurd rfl other
            · intro _
              refine ⟨rfl, monitor.now, rfl, Nat.le_refl _, ?_⟩
              simp [LoopAge]
          · exact ⟨aged.probed, aged.interval, aged.bound, aged.active, fun _ => waiting,
              fun isStarted => nomatch isStarted⟩

theorem aged_loop_checks (aged : Aged probes interval maxAge lag monitor stamps)
    (isStarted : monitor.owner = .started) (check : Check Probe) (success : check ≠ .finished false)
    (inTime : ∀ last, monitor.readiness.lastSuccess = some last →
      LoopAge lag last monitor stamps → ∀ probe rest, check = .awaiting probe rest →
      monitor.now + (rest.length + 1) * lag ≤ last + interval + (probes.length + 2) * lag) :
    Aged probes interval maxAge lag (monitor.loopChecks check) (stamps ++ [monitor.now]) := by
  have ⟨healthy, last, isLast, past, age⟩ := aged.started isStarted
  cases check with
  | awaiting probe rest =>
      constructor
      · exact aged.probed
      · exact aged.interval
      · exact aged.bound
      · exact aged.active
      · exact fun other => absurd isStarted other
      · intro _
        refine ⟨healthy, last, isLast, past, ?_⟩
        simp only [LoopAge, loopChecks, since_append, aged.probed, aged.interval]
        exact ⟨inTime last isLast age probe rest rfl, Nat.le_add_right _ _⟩
  | finished succeeded =>
      cases succeeded with
      | false => exact absurd rfl success
      | true =>
          constructor
          · exact aged.probed
          · exact aged.interval
          · exact aged.bound
          · exact aged.active
          · exact fun other => absurd isStarted other
          · intro _
            refine ⟨rfl, monitor.now, rfl, Nat.le_refl _, ?_⟩
            simp only [LoopAge, loopChecks, DependencyReadiness.conclude, if_true]
            omega

theorem answered_success (rest : List Probe) :
    Check.answered rest true ≠ .finished false ∧
      ∀ probe later, Check.answered rest true = .awaiting probe later →
        rest.length = later.length + 1 := by
  cases rest with
  | nil => simp [Check.answered, Check.goOn]
  | cons probe rest =>
      simp only [Check.answered, Check.goOn, if_true]
      constructor
      · simp
      · intro first later same
        cases same
        rfl

theorem aged_step (aged : Aged probes interval maxAge lag monitor stamps)
    (admitted : punctual lag (monitor, stamps) label = true)
    (stepped : monitor.step label = some next) :
    Aged probes interval maxAge lag next (stamps ++ (monitor.stamp label).toList) := by
  cases label with
  | tick elapsed =>
      cases stepped
      simp only [stamp, Option.toList_none, List.append_nil]
      constructor
      · exact aged.probed
      · exact aged.interval
      · exact aged.bound
      · exact aged.active
      · exact aged.waiting
      · intro isStarted
        obtain ⟨healthy, last, isLast, past, age⟩ := aged.started isStarted
        refine ⟨healthy, last, isLast, Nat.le_trans past (Nat.le_add_right _ _), ?_⟩
        simp only [punctual] at admitted
        unfold LoopAge at age ⊢
        cases standing : monitor.loop with
        | absent => simp [standing] at age
        | ended => simp [standing] at age
        | created =>
            simp only [standing, decide_eq_true_eq] at admitted age ⊢
            omega
        | sleeping wakes =>
            simp only [standing, decide_eq_true_eq] at admitted age ⊢
            omega
        | checking probe rest =>
            simp only [standing, decide_eq_true_eq] at admitted age ⊢
            exact ⟨age.1, admitted⟩
  | start =>
      simp only [step] at stepped
      split at stepped
      · rename_i idle
        cases stepped
        apply aged_start_checks aged
        · apply aged.waiting
          rw [idle]
          simp
        · exact (answered_success monitor.readiness.probes).1
      · cases stepped
  | startProbed returned =>
      simp only [punctual] at admitted
      subst admitted
      simp only [step] at stepped
      split at stepped
      · rename_i probe rest starting
        cases stepped
        apply aged_start_checks aged
        · apply aged.waiting
          rw [starting]
          simp
        · exact (answered_success rest).1
      · cases stepped
  | loopStarts =>
      simp only [step] at stepped
      split at stepped
      · rename_i created active
        cases stepped
        have isStarted : monitor.owner = .started := by
          by_contra other
          rw [aged.waiting other] at created
          cases created
        obtain ⟨healthy, last, isLast, past, age⟩ := aged.started isStarted
        simp only [LoopAge, created] at age
        constructor
        · exact aged.probed
        · exact aged.interval
        · exact aged.bound
        · exact aged.active
        · exact fun other => absurd isStarted other
        · intro _
          refine ⟨healthy, last, isLast, past, ?_⟩
          simp only [LoopAge]
          omega
      · cases stepped
  | wakes =>
      simp only [step] at stepped
      split at stepped
      · rename_i wakes sleeping active
        split at stepped
        · rename_i due
          cases stepped
          have isStarted : monitor.owner = .started := by
            by_contra other
            rw [aged.waiting other] at sleeping
            cases sleeping
          apply aged_loop_checks aged isStarted
          · exact (answered_success monitor.readiness.probes).1
          · intro last isLast age probe rest same
            simp only [LoopAge, sleeping, aged.interval] at age
            have shorter := (answered_success monitor.readiness.probes).2 probe rest same
            rw [aged.probed] at shorter
            rw [shorter]
            have split : (rest.length + 1 + 2) * lag = (rest.length + 1) * lag + (lag + lag) := by
              rw [Nat.add_mul (rest.length + 1), Nat.two_mul]
            omega
        · cases stepped
      · cases stepped
  | loopProbed returned =>
      simp only [punctual] at admitted
      subst admitted
      simp only [step] at stepped
      split at stepped
      · rename_i probe rest checking active
        cases stepped
        have isStarted : monitor.owner = .started := by
          by_contra other
          rw [aged.waiting other] at checking
          cases checking
        apply aged_loop_checks aged isStarted
        · exact (answered_success rest).1
        · intro last isLast age first later same
          simp only [LoopAge, checking, aged.interval, aged.probed] at age
          have shorter := (answered_success rest).2 first later same
          rw [shorter] at age
          have split : (later.length + 1 + 1) * lag = (later.length + 1) * lag + lag :=
            Nat.succ_mul _ _
          omega
      · cases stepped
  | startCancelled => cases admitted
  | loopCancelled => cases admitted
  | close => cases admitted
  | closeReturns => cases admitted

theorem aged_run {labels : List MonitorLabel} {now : Nat}
    (reached : (punctualMachine Probe lag).run (.new probes interval maxAge now, []) labels =
      some (monitor, stamps)) :
    Aged probes interval maxAge lag monitor stamps := by
  apply Machine.run_invariant _ (fun current => Aged probes interval maxAge lag current.1 current.2)
    _ (aged_new now) reached
  intro current label next aged stepped
  have ⟨admitted, here, notes⟩ := (punctual_step next).mp stepped
  rw [notes]
  exact aged_step aged admitted here

theorem Aged.ready (aged : Aged probes interval maxAge lag monitor stamps)
    (isStarted : monitor.owner = .started)
    (wide : interval + (probes.length + 2) * lag < maxAge) : monitor.ready = true := by
  have ⟨healthy, last, isLast, past, age⟩ := aged.started isStarted
  have young : monitor.now ≤ last + interval + (probes.length + 2) * lag := by
    have split : (probes.length + 2) * lag = probes.length * lag + (lag + lag) := by
      rw [Nat.add_mul, Nat.two_mul]
    unfold LoopAge at age
    cases standing : monitor.loop with
    | absent => simp [standing] at age
    | ended => simp [standing] at age
    | created =>
        simp only [standing] at age
        omega
    | sleeping wakes =>
        simp only [standing, aged.interval] at age
        omega
    | checking probe rest =>
        simp only [standing, aged.interval, aged.probed] at age
        have more : (rest.length + 1) * lag = rest.length * lag + lag := Nat.succ_mul _ _
        omega
  unfold Monitor.ready DependencyReadiness.ready
  rw [healthy, isLast, aged.bound, Bool.true_and, Option.any_some, decide_eq_true_eq]
  omega

/-! ## The bound is reached -/

theorem run_one {current final : Monitor Probe × List Nat}
    (stepped : (punctualMachine Probe lag).step current label = some final) :
    (punctualMachine Probe lag).run current [label] = some final :=
  (Machine.run_cons ..).mpr ⟨final, stepped, rfl⟩

theorem start_run (lag : Nat) (rest : List Probe) (probe : Probe) (monitor : Monitor Probe)
    (stamps : List Nat) (starting : monitor.owner = .starting probe rest)
    (positive : 0 < monitor.readiness.maxAge) :
    ∃ earlier, (punctualMachine Probe lag).run (monitor, stamps)
        (List.replicate (rest.length + 1) (.startProbed true)) =
      some ({ monitor with
        readiness := monitor.readiness.conclude monitor.now true
        owner := .started
        loop := .created }, earlier ++ [monitor.now]) := by
  induction rest generalizing probe monitor stamps with
  | nil =>
      refine ⟨stamps, run_one ((punctual_step _).mpr ⟨rfl, ?_, rfl⟩)⟩
      have ready : (monitor.readiness.conclude monitor.now true).ready monitor.now = true := by
        simpa [DependencyReadiness.ready, DependencyReadiness.conclude] using positive
      simp only [step, starting, Check.answered, Check.goOn, if_true, startChecks, ready]
  | cons later rest ih =>
      obtain ⟨earlier, remaining⟩ := ih later { monitor with owner := .starting later rest }
        (stamps ++ [monitor.now]) rfl positive
      refine ⟨earlier, (Machine.run_cons ..).mpr ⟨_, (punctual_step _).mpr ⟨rfl, ?_, rfl⟩,
        remaining⟩⟩
      simp only [step, starting, Check.answered, Check.goOn, if_true, startChecks]

/-- The monitor after a first check that succeeded. -/
def justStarted (probes : List Probe) (interval maxAge now : Nat) : Monitor Probe where
  readiness := (DependencyReadiness.new probes interval maxAge).conclude now true
  now := now
  owner := .started
  loop := .created
  cancelRequested := false

theorem just_started_ready (probes : List Probe) (interval maxAge now : Nat)
    (positive : 0 < maxAge) :
    ((DependencyReadiness.new probes interval maxAge).conclude now true).ready now = true := by
  simp [DependencyReadiness.ready, DependencyReadiness.conclude, DependencyReadiness.new, positive]

theorem begin_run (lag : Nat) (probes : List Probe) (interval maxAge now : Nat)
    (positive : 0 < maxAge) :
    ∃ labels earlier, (punctualMachine Probe lag).run (.new probes interval maxAge now, []) labels =
      some (justStarted probes interval maxAge now, earlier ++ [now]) := by
  cases probes with
  | nil =>
      refine ⟨[.start], [], run_one ((punctual_step _).mpr ⟨rfl, ?_, rfl⟩)⟩
      have ready := just_started_ready ([] : List Probe) interval maxAge now positive
      exact congrArg some (if_pos ready)
  | cons probe rest =>
      have ⟨earlier, remaining⟩ := start_run lag rest probe
        { Monitor.new (probe :: rest) interval maxAge now with owner := .starting probe rest }
        [now] rfl positive
      refine ⟨.start :: List.replicate (rest.length + 1) (.startProbed true), earlier, ?_⟩
      exact (Machine.run_cons ..).mpr ⟨_, (punctual_step (_, _)).mpr ⟨rfl, rfl, rfl⟩, remaining⟩

/-- Its loop was started late and slept too long. -/
def overslept (probes : List Probe) (interval maxAge lag now : Nat) : Monitor Probe :=
  { justStarted probes interval maxAge now with
    now := now + lag + (interval + lag)
    loop := .sleeping (now + lag + interval) }

theorem sleep_run (probes : List Probe) (interval maxAge lag now : Nat) (earlier : List Nat) :
    (punctualMachine Probe lag).run (justStarted probes interval maxAge now, earlier ++ [now])
        [.tick lag, .loopStarts, .tick (interval + lag)] =
      some (overslept probes interval maxAge lag now, earlier ++ [now] ++ [now + lag]) := by
  apply (Machine.run_cons ..).mpr
  refine ⟨({ justStarted probes interval maxAge now with now := now + lag }, earlier ++ [now]),
    (punctual_step _).mpr ⟨?_, rfl, (List.append_nil _).symm⟩, ?_⟩
  · simp [punctual, justStarted]
  · apply (Machine.run_cons ..).mpr
    refine ⟨({ justStarted probes interval maxAge now with
      now := now + lag
      loop := .sleeping (now + lag + interval) }, earlier ++ [now] ++ [now + lag]),
      (punctual_step _).mpr ⟨rfl, rfl, rfl⟩, ?_⟩
    apply run_one
    refine (punctual_step _).mpr ⟨?_, rfl, (List.append_nil _).symm⟩
    simp [punctual, Nat.add_assoc]

/-- Every probe takes as long as it may. -/
theorem probing_run (lag : Nat) (rest : List Probe) (probe : Probe) (monitor : Monitor Probe)
    (stamps : List Nat) (checking : monitor.loop = .checking probe rest)
    (active : monitor.cancelRequested = false) (resumed : since stamps = monitor.now) :
    ∃ labels last times, (punctualMachine Probe lag).run (monitor, stamps) labels =
      some ({ monitor with
        now := monitor.now + (rest.length + 1) * lag
        loop := .checking last [] }, times) := by
  induction rest generalizing probe monitor stamps with
  | nil =>
      refine ⟨[.tick lag], probe, stamps, run_one ((punctual_step _).mpr ⟨?_, ?_, ?_⟩)⟩
      · simp [punctual, checking, resumed]
      · simp [step, ← checking]
      · simp [stamp]
  | cons later rest ih =>
      obtain ⟨labels, last, times, remaining⟩ := ih later
        { monitor with now := monitor.now + lag, loop := .checking later rest }
        (stamps ++ [monitor.now + lag]) rfl active (since_append _)
      refine ⟨.tick lag :: .loopProbed true :: labels, last, times, ?_⟩
      apply (Machine.run_cons ..).mpr
      refine ⟨({ monitor with now := monitor.now + lag }, stamps),
        (punctual_step _).mpr ⟨?_, rfl, (List.append_nil _).symm⟩, ?_⟩
      · simp [punctual, checking, resumed]
      · have longer : monitor.now + ((later :: rest).length + 1) * lag =
            monitor.now + lag + (rest.length + 1) * lag := by
          rw [List.length_cons, Nat.succ_mul (rest.length + 1)]
          omega
        rw [longer]
        apply (Machine.run_cons ..).mpr
        refine ⟨_, (punctual_step (_, _)).mpr ⟨rfl, ?_, rfl⟩, remaining⟩
        simp [step, checking, active, Check.answered, Check.goOn, loopChecks]

/-- A start that succeeds, a sleep that ends late and probes that take their time. -/
theorem late_run (lag : Nat) (probes : List Probe) (interval maxAge now : Nat)
    (positive : 0 < maxAge) :
    ∃ labels monitor stamps, (punctualMachine Probe lag).run
        (.new probes interval maxAge now, []) labels = some (monitor, stamps) ∧
      monitor.owner = .started ∧ monitor.readiness.lastSuccess = some now ∧
      monitor.readiness.maxAge = maxAge ∧
      monitor.now = now + (interval + (probes.length + 2) * lag) := by
  have ⟨labels, earlier, begun⟩ := begin_run lag probes interval maxAge now positive
  have slept := (Machine.run_append ..).mpr
    ⟨_, begun, sleep_run probes interval maxAge lag now earlier⟩
  have sum : (probes.length + 2) * lag = probes.length * lag + (lag + lag) := by
    rw [Nat.add_mul, Nat.two_mul]
  cases probes with
  | nil =>
      refine ⟨_, _, _, slept, rfl, rfl, rfl, ?_⟩
      simp only [overslept, List.length_nil]
      omega
  | cons probe rest =>
      have ⟨probing, last, times, probed⟩ := probing_run lag rest probe
        { overslept (probe :: rest) interval maxAge lag now with loop := .checking probe rest }
        (earlier ++ [now] ++ [now + lag] ++ [now + lag + (interval + lag)]) rfl rfl
        (since_append _)
      have wakes : (punctualMachine Probe lag).step
          (overslept (probe :: rest) interval maxAge lag now, earlier ++ [now] ++ [now + lag])
          .wakes = some
            ({ overslept (probe :: rest) interval maxAge lag now with
                loop := .checking probe rest },
              earlier ++ [now] ++ [now + lag] ++ [now + lag + (interval + lag)]) := by
        refine (punctual_step _).mpr ⟨rfl, if_pos ?_, rfl⟩
        simp only [overslept]
        omega
      have woken := (Machine.run_cons ..).mpr ⟨_, wakes, probed⟩
      refine ⟨_, _, _, (Machine.run_append ..).mpr ⟨_, slept, woken⟩, rfl, rfl, rfl, ?_⟩
      simp only [overslept, List.length_cons] at sum ⊢
      omega

/-- Whatever the timing, a started monitor reports that it is ready. -/
def StaysReady (probes : List Probe) (interval maxAge lag now : Nat) : Prop :=
  ∀ labels monitor stamps, (punctualMachine Probe lag).run
      (.new probes interval maxAge now, []) labels = some (monitor, stamps) →
    monitor.owner = .started → monitor.ready = true

/-- A started monitor whose probes all succeed in time stays ready exactly if one round, with every
await as long as it may take, is shorter than the age it accepts. -/
theorem stays_ready_iff (probes : List Probe) (interval maxAge lag now : Nat)
    (positive : 0 < maxAge) :
    StaysReady probes interval maxAge lag now ↔
      interval + (probes.length + 2) * lag < maxAge := by
  constructor
  · intro always
    have ⟨labels, monitor, stamps, reached, isStarted, last, bound, time⟩ :=
      late_run lag probes interval maxAge now positive
    have ready := always labels monitor stamps reached isStarted
    unfold Monitor.ready DependencyReadiness.ready at ready
    rw [Bool.and_eq_true, last, bound, time] at ready
    have young := of_decide_eq_true ready.2
    omega
  · intro wide labels monitor stamps reached isStarted
    exact (aged_run reached).ready isStarted wide

/-- With two probes every five seconds and an age of a minute, every await may take thirteen
seconds, but not fourteen. -/
theorem stays_ready_iff_thirteen_seconds :
    StaysReady [(), ()] 5000 60000 13000 0 ∧ ¬ StaysReady [(), ()] 5000 60000 14000 0 := by
  constructor
  · exact (stays_ready_iff [(), ()] 5000 60000 13000 0 (by decide)).mpr (by decide)
  · rw [stays_ready_iff [(), ()] 5000 60000 14000 0 (by decide)]
    decide

end Monitor

end AgentHarness.Core
