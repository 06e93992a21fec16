import AgentHarness.Core.ShutdownOfTasks

/-!
# What the readiness endpoint tells

`GET /ready` asks nobody: it reads the admission and the readiness as the last steps have left them.
What it answers is compared with everything that has happened since the process started.
-/

namespace AgentHarness.Core

open AgentHarness.Library AgentHarness.Runtime

set_option autoImplicit false

variable {Value : Type}

/-- A check has finished, or an operation has ended without its outcome being known. -/
inductive Sign where
  | checked (time : Nat) (succeeded : Bool)
  | unconfirmed
  deriving DecidableEq, Repr

def Sign.verdict : Sign → Option (Nat × Bool)
  | .checked time succeeded => some (time, succeeded)
  | .unconfirmed => none

def SlotLabel.isUnconfirmed : SlotLabel Value → Bool
  | .settle _ ending => !AdmissionController.outcomeKnown ending
  | _ => false

/-- The last check that finished succeeded, less than a minute ago. -/
def CheckedLately (signs : List Sign) (now : Nat) : Prop :=
  ∃ last, (signs.filterMap Sign.verdict).getLast? = some (last, true) ∧ now - last < 60000

namespace Process

def sign (process : Process Value) (label : LifespanLabel Value) : Option Sign :=
  match label with
  | .slot label => if SlotLabel.isUnconfirmed label then some .unconfirmed else none
  | _ =>
      ((process.monitorLabel label).bind process.monitor.verdict).map fun verdict =>
        .checked verdict.1 verdict.2

variable {process next : Process Value} {maxActive : Nat} {label : LifespanLabel Value}

theorem accepting_of_requests {slots after : Slots Value} {label : SlotLabel Value}
    (ofRequests : SlotLabel.ofRequests label = true) (stepped : slots.step label = some after) :
    after.admission.accepting =
      (slots.admission.accepting && !SlotLabel.isUnconfirmed label) := by
  cases label with
  | submit key =>
      cases stepped
      simp only [SlotLabel.isUnconfirmed, Bool.not_false, Bool.and_true]
      unfold Slots.submit
      cases answer : slots.admission.submit key slots.tasks.length with
      | error rejection => rfl
      | ok admission =>
          obtain ⟨accepting, _, free, same⟩ :=
            (AdmissionController.submit_eq_ok_iff slots.admission admission key _).mp answer
          rw [same]
  | firstStep id =>
      obtain ⟨task, _, started⟩ := Option.bind_eq_some_iff.mp stepped
      simp only [SlotLabel.isUnconfirmed, Bool.not_false, Bool.and_true]
      unfold Slots.firstStep at started
      split at started
      · split_ifs at started
        · cases started
          rfl
        · cases started
          rfl
      all_goals cases started
  | deadline id =>
      obtain ⟨task, _, passed⟩ := Option.bind_eq_some_iff.mp stepped
      simp only [SlotLabel.isUnconfirmed, Bool.not_false, Bool.and_true]
      unfold Slots.deadline at passed
      split at passed
      · cases passed
        rfl
      all_goals cases passed
  | settle id ending =>
      obtain ⟨task, _, ended⟩ := Option.bind_eq_some_iff.mp stepped
      unfold Slots.settle at ended
      split at ended
      · cases ended
        rw [SlotLabel.isUnconfirmed, Bool.not_not]
        exact AdmissionController.leave_accepting ..
      all_goals cases ended
  | cancel id =>
      obtain ⟨task, _, result⟩ := Option.map_eq_some_iff.mp stepped
      subst result
      simp [SlotLabel.isUnconfirmed, Slots.setTask]
  | drain => cases ofRequests
  | cancelAfterRuntimeClosed => cases ofRequests
  | returns index => cases ofRequests

/-- What has happened, as far as the endpoint depends on it. -/
structure Signed (process : Process Value) (signs : List Sign) : Prop where
  recorded : Monitor.Recorded 60000 process.monitor (signs.filterMap Sign.verdict)
  silent : process.admission = none → .unconfirmed ∉ signs
  serving : process.point = .serving → ∃ slots, process.admission = some slots ∧
    (slots.admission.accepting = true ↔ .unconfirmed ∉ signs)

theorem signed_start (now : Nat) : Signed (start now : Process Value) [] where
  recorded := Monitor.recorded_new _ _ _ _
  silent _ := List.not_mem_nil
  serving isServing := nomatch isServing

/-- The checks the signs tell of are those the monitor has finished. -/
theorem recorded_of_step {signs : List Sign} (signed : Signed process signs)
    (stepped : process.step maxActive label = some next) :
    Monitor.Recorded 60000 next.monitor
      ((signs ++ (process.sign label).toList).filterMap Sign.verdict) := by
  have moves := step_monitor stepped
  have verdicts : (process.sign label).toList.filterMap Sign.verdict =
      ((process.monitorLabel label).bind process.monitor.verdict).toList := by
    unfold sign
    cases label with
    | slot label =>
        simp only [monitorLabel]
        split_ifs
        · rfl
        · rfl
    | advance _ | startProbed _ | startCancelled | monitor _ =>
        simp only
        cases (process.monitorLabel _).bind process.monitor.verdict with
        | none => rfl
        | some verdict => rfl
  rw [List.filterMap_append, verdicts]
  cases moved : process.monitorLabel label with
  | none =>
      rw [moved] at moves
      have same : next.monitor = process.monitor := moves
      rw [same]
      simpa using signed.recorded
  | some monitorLabel =>
      rw [moved] at moves
      exact Monitor.recorded_step signed.recorded moves

/-- The coroutine never takes the controller away, and serves from the step that makes it. -/
theorem advance_admission (advance : Advance process next) :
    (next.admission = none → process.admission = none) ∧
      (next.point = .serving → process.point = .assembleServices ∧
        ∃ limit positive, next.admission = some (.start limit positive)) := by
  have made : ∀ {slots : Slots Value} {goal : Prop}, some slots = none → goal :=
    fun absent => absurd absent (Option.some_ne_none _)
  cases advance with
  | failed raises => exact ⟨fun absent => absent, fun isServing => Point.noConfusion isServing⟩
  | openedConversations point =>
      exact ⟨fun absent => absent, fun isServing => Point.noConfusion isServing⟩
  | openedApprovals point begun =>
      rw [resume_start_admission begun]
      apply And.intro (fun absent => absent)
      intro isServing
      obtain ⟨monitor, _, result⟩ := Option.map_eq_some_iff.mp begun
      subst result
      split at isServing
      all_goals cases isServing
  | assembled point => exact ⟨fun absent => absent, fun isServing => Point.noConfusion isServing⟩
  | entered point => exact ⟨fun absent => absent, fun isServing => Point.noConfusion isServing⟩
  | notEntered point => exact ⟨fun absent => absent, fun isServing => Point.noConfusion isServing⟩
  | abandoned point returned =>
      exact ⟨fun absent => absent, fun isServing => Point.noConfusion isServing⟩
  | served point limit positive => exact ⟨made, fun _ => ⟨point, limit, positive, rfl⟩⟩
  | drains point returned slots admitted =>
      exact ⟨made, fun isServing => Point.noConfusion isServing⟩
  | drained call point slots after admitted isSettled closes =>
      unfold closeRuntime at closes
      split_ifs at closes
      · cases closes
        exact ⟨made, fun isServing => Point.noConfusion isServing⟩
      · cases closes
        exact ⟨made, fun isServing => Point.noConfusion isServing⟩
  | closed point returned slots admitted =>
      exact ⟨made, fun isServing => Point.noConfusion isServing⟩
  | gathered call point slots after admitted isSettled =>
      exact ⟨made, fun isServing => Point.noConfusion isServing⟩
  | unwinds point returned unwound =>
      obtain ⟨same, behind, _, _⟩ := unwind_effect point unwound
      rw [same]
      apply And.intro (fun absent => absent)
      intro isServing
      rw [isServing] at behind
      cases behind
  | closedReadiness point monitor closed =>
      exact ⟨fun absent => absent, fun isServing => Point.noConfusion isServing⟩
  | exitedRuntime point returned =>
      exact ⟨fun absent => absent, fun isServing => Point.noConfusion isServing⟩

theorem signed_slot {signs : List Sign} {slots after : Slots Value} {label : SlotLabel Value}
    (signed : Signed process signs) (admitted : process.admission = some slots)
    (ofRequests : SlotLabel.ofRequests label = true) (stepped : slots.step label = some after)
    (recorded : Monitor.Recorded 60000 process.monitor
      ((signs ++ (process.sign (.slot label)).toList).filterMap Sign.verdict)) :
    Signed { process with admission := some after }
      (signs ++ (process.sign (.slot label)).toList) where
  recorded := recorded
  silent absent := nomatch absent
  serving isServing := by
    have ⟨found, same, accepting⟩ := signed.serving isServing
    rw [admitted] at same
    cases same
    refine ⟨after, rfl, ?_⟩
    rw [accepting_of_requests ofRequests stepped, Bool.and_eq_true, accepting]
    simp only [sign]
    cases SlotLabel.isUnconfirmed label
    · simp
    · simp

/-- Only the steps of the tasks end an operation. -/
theorem unconfirmed_of_other (signs : List Sign) (other : ∀ moved, label ≠ .slot moved) :
    .unconfirmed ∈ signs ++ (process.sign label).toList ↔ .unconfirmed ∈ signs := by
  have silent : Sign.unconfirmed ∉ (process.sign label).toList := by
    intro member
    have found := Option.mem_toList.mp member
    unfold sign at found
    cases label with
    | slot moved => exact other moved rfl
    | advance _ | startProbed _ | startCancelled | monitor _ =>
        have ⟨verdict, _, same⟩ := Option.map_eq_some_iff.mp found
        cases same
  simp [silent]

/-- A step that leaves the controller alone or makes it. -/
theorem signed_of_other {signs : List Sign} (shutting : Shutting process)
    (signed : Signed process signs) (other : ∀ moved, label ≠ .slot moved)
    (stepped : process.step maxActive label = some next)
    (kept : next.admission = none → process.admission = none)
    (serves : next.point = .serving →
      (process.point = .serving ∧ next.admission = process.admission) ∨
        (process.point = .assembleServices ∧
          ∃ limit positive, next.admission = some (.start limit positive))) :
    Signed next (signs ++ (process.sign label).toList) where
  recorded := recorded_of_step signed stepped
  silent absent := by
    rw [unconfirmed_of_other signs other]
    exact signed.silent (kept absent)
  serving isServing := by
    rw [unconfirmed_of_other signs other]
    rcases serves isServing with ⟨wasServing, same⟩ | ⟨point, limit, positive, made⟩
    · rw [same]
      exact signed.serving wasServing
    · have absent := none_of_early shutting (by simp [point, AdmissionFits])
      refine ⟨_, made, ?_⟩
      simp [Slots.start, AdmissionController.new, signed.silent absent]

theorem signed_step {signs : List Sign} (shutting : Shutting process)
    (signed : Signed process signs) (stepped : process.step maxActive label = some next) :
    Signed next (signs ++ (process.sign label).toList) := by
  have recorded := recorded_of_step signed stepped
  have resumed : ∀ {moved}, process.resumeStart moved = some next →
      (next.admission = none → process.admission = none) ∧ next.point ≠ .serving := by
    intro moved resumes
    rw [resume_start_admission resumes]
    apply And.intro (fun absent => absent)
    obtain ⟨monitor, _, result⟩ := Option.map_eq_some_iff.mp resumes
    subst result
    split
    · exact fun isServing => Point.noConfusion isServing
    · exact fun isServing => Point.noConfusion isServing
    · exact fun isServing => Point.noConfusion isServing
  cases label with
  | advance returned =>
      have other : ∀ moved : SlotLabel Value, LifespanLabel.advance returned ≠ .slot moved :=
        by simp
      obtain ⟨kept, serves⟩ := advance_admission (advance_cases stepped)
      exact signed_of_other shutting signed other stepped kept fun isServing =>
        .inr (serves isServing)
  | startProbed returned =>
      have other : ∀ moved : SlotLabel Value, LifespanLabel.startProbed returned ≠ .slot moved :=
        by simp
      have taken := stepped
      simp only [step] at taken
      split_ifs at taken
      obtain ⟨kept, elsewhere⟩ := resumed taken
      exact signed_of_other shutting signed other stepped kept fun isServing =>
        absurd isServing elsewhere
  | startCancelled =>
      have other : ∀ moved : SlotLabel Value, LifespanLabel.startCancelled ≠ .slot moved := by simp
      have taken := stepped
      simp only [step] at taken
      split_ifs at taken
      obtain ⟨kept, elsewhere⟩ := resumed taken
      exact signed_of_other shutting signed other stepped kept fun isServing =>
        absurd isServing elsewhere
  | monitor observed =>
      have other : ∀ moved : SlotLabel Value, LifespanLabel.monitor observed ≠ .slot moved :=
        by simp
      have taken := stepped
      simp only [step] at taken
      split_ifs at taken
      obtain ⟨monitor, _, result⟩ := Option.map_eq_some_iff.mp taken
      subst result
      exact signed_of_other shutting signed other stepped (fun absent => absent) fun isServing =>
        .inl ⟨isServing, rfl⟩
  | slot moved =>
      simp only [step] at stepped
      split_ifs at stepped with ofRequests
      obtain ⟨slots, admitted, works⟩ := Option.bind_eq_some_iff.mp stepped
      obtain ⟨after, taken, result⟩ := Option.map_eq_some_iff.mp works
      subst result
      exact signed_slot signed admitted ofRequests taken recorded

/-- Outside `yield` there is no controller, or it does not accept. -/
theorem accepting_elsewhere (shutting : Shutting process) (elsewhere : process.point ≠ .serving)
    (slots : Slots Value) (admitted : process.admission = some slots) :
    slots.admission.accepting = false := by
  have fits := shutting.fits slots admitted
  unfold AdmissionFits at fits
  cases point : process.point with
  | serving => exact absurd point elsewhere
  | draining call =>
      rw [point] at fits
      exact fits.2.1
  | closingRuntime =>
      rw [point] at fits
      exact fits.1
  | cancelling call =>
      rw [point] at fits
      exact fits.2.1
  | unwinding | closingReadiness | exitingRuntime | ended =>
      rw [point] at fits
      exact fits
  | openConversations | openApprovals | startReadiness | assembleRuntime | enterCodex
  | abandonCodex | assembleServices => simp [point] at fits

theorem ready_of_serving {signs : List Sign} (standing : Standing process)
    (signed : Signed process signs) (point : process.point = .serving) :
    process.monitor.ready = true ↔ CheckedLately signs process.monitor.now := by
  have ⟨stack, _, _, _⟩ := held_of_standing standing point rfl
  have isStarted : process.monitor.owner = .started := by
    rw [owner_of_standing standing, stack]
    simp
  rw [signed.recorded.ready_iff, isStarted]
  simp [Owner.isOpen, CheckedLately]

/-- In every state that the start, the requests, the tasks, the checks and the shutdown can lead to:
the endpoint answers 200 exactly while the application serves, no operation has ended without its
outcome being known, and the last check that finished succeeded less than a minute ago. -/
theorem ready_status_iff (maxActive now : Nat) (labels : List (LifespanLabel Value))
    (process : Process Value) (signs : List Sign)
    (reached : ((lifespanMachine Value maxActive).withHistory sign).run (start now, []) labels =
      some (process, signs)) :
    process.readyStatus = 200 ↔ process.point = .serving ∧ .unconfirmed ∉ signs ∧
      CheckedLately signs process.monitor.now := by
  have ⟨standing, shutting, signed⟩ :
      Standing process ∧ Shutting process ∧ Signed process signs := by
    apply Machine.run_invariant _
      (fun current => Standing current.1 ∧ Shutting current.1 ∧ Signed current.1 current.2) _
      ⟨standing_start now, shutting_start now, signed_start now⟩ reached
    intro current label next holds stepped
    have ⟨here, notes⟩ := (Machine.with_history_step ..).mp stepped
    rw [notes]
    exact ⟨standing_step holds.1 here, shutting_step holds.1 holds.2.1 here,
      signed_step holds.2.1 holds.2.2 here⟩
  unfold readyStatus
  by_cases point : process.point = .serving
  · have ⟨slots, admitted, accepting⟩ := signed.serving point
    simp only [admitted]
    rw [← accepting, ← ready_of_serving standing signed point]
    cases slots.admission.accepting
    · simp
    · cases process.monitor.ready
      · simp
      · simp [point]
  · cases admitted : process.admission with
    | none => simp [point]
    | some slots =>
        have closed := accepting_elsewhere shutting point slots admitted
        simp [closed, point]

/-- The database fails for one check and is back for the next. -/
def recoveringDatabase : List (LifespanLabel Unit) :=
  [.advance true, .advance true, .startProbed true, .startProbed true, .advance true,
    .advance true, .advance true, .monitor .loopStarts, .monitor (.tick 5000), .monitor .wakes,
    .monitor (.loopProbed false), .monitor (.tick 5000), .monitor .wakes,
    .monitor (.loopProbed true), .monitor (.loopProbed true), .monitor (.tick 1000)]

theorem ready_status_iff_recovering_database :
    ∃ process signs, ((lifespanMachine Unit 4).withHistory sign).run (start 0, [])
        recoveringDatabase = some (process, signs) ∧
      signs = [.checked 0 true, .checked 5000 false, .checked 10000 true] ∧
      process.readyStatus = 200 := by
  refine ⟨_, _, rfl, rfl, ?_⟩
  apply (ready_status_iff 4 0 recoveringDatabase _ _ rfl).mpr
  exact ⟨rfl, by decide, 10000, rfl, by decide⟩

end Process

end AgentHarness.Core
