import AgentHarness.Services.RemoteExclusion

/-!
# Why admission closes

The wrapper around an operation classifies by exception type, while `_create_conversation` mixes
runtime calls with a repository call. The causes a run has given are kept as its history and
compared with the flag.
-/

namespace AgentHarness.Services

open AgentHarness.Library AgentHarness.Events AgentHarness.Runtime AgentHarness.Conversations

set_option autoImplicit false

namespace Service

/-- The events after which the remote outcome may be unknown, and the two shutdown calls. -/
inductive Cause where
  | drained
  | runtimeClosed
  | callRaised (fault : RuntimeFault)
  | callOutlivedDeadline
  deriving DecidableEq, Repr

def taskAt (service : Service) (key : String) (test : Task → Bool) : Bool :=
  (service.admission.tasks.get? key).any test

def cause (service : Service) : Label → Option Cause
  | .drain => some .drained
  | .cancelAfterRuntimeClosed => some .runtimeClosed
  | .settle _ (.error .failed) => some (.callRaised .failed)
  | .settle _ (.error .cancelled) => some (.callRaised .cancelled)
  | .deadline key =>
      if service.taskAt key fun task => task.portCall.isSome then some .callOutlivedDeadline
      else none
  | _ => none

/-- The service with the causes its run has given so far. -/
def audited : Machine (Service × List Cause) Label := machine.withHistory cause

def isArchiving (task : Task) : Bool :=
  match task.phase with
  | .archiving _ => true
  | _ => false

/-- `archive_thread` returns after the repository's error. -/
def archiveSucceeds (service : Service) : Label → Bool
  | .settle key (.ok _) => service.taskAt key isArchiving
  | _ => false

/-- A cancellation reaches a task while only its repository call is running. -/
def interruptsStore : Label → Bool
  | .storeCancelled _ => true
  | _ => false

/-- In every state reached, closed admission has a cause, and an error of the repository alone
leaves admission as it was. -/
structure ClosesForCause (current : Service × List Cause) (labels : List Label) : Prop where
  caused : ∀ early late reached, labels = early ++ late →
    audited.run current early = some reached →
    reached.1.admission.accepting = false → reached.2 ≠ []
  compensated : audited.EachStep
    (fun before label after => archiveSucceeds before.1 label = true →
      after.1.admission.accepting = before.1.admission.accepting) current labels

/-- Compensated creations and interrupted repository calls only happen once admission is closed,
or, for the latter, once there is another cause. -/
def Harmless (current : Service × List Cause) (labels : List Label) : Prop :=
  audited.EachStep
    (fun before label _ =>
      (archiveSucceeds before.1 label = true → before.1.admission.accepting = false) ∧
        (interruptsStore label = true →
          before.1.admission.accepting = false ∨ before.2 ≠ [])) current labels

theorem task_at_found {service : Service} {key : String} {task : Task}
    (found : (key, task) ∈ service.admission.tasks.entries) (test : Task → Bool) :
    service.taskAt key test = test task := by
  simp [taskAt, (service.admission.tasks.get?_eq_some_iff key task).mpr found]

/-- What one step does to the flag, and on what grounds. -/
inductive FlagStep (service : Service) (label : Label) (after : Bool) : Prop where
  | kept (same : after = service.admission.accepting)
      (noArchive : archiveSucceeds service label = false)
      (noInterrupt : interruptsStore label = false)
  | grounded (closes : after = false) (given : (cause service label).isSome = true)
      (noArchive : archiveSucceeds service label = false)
      (noInterrupt : interruptsStore label = false)
  | groundless (closes : after = false) (none : cause service label = none)
      (slip : archiveSucceeds service label = true ∨ interruptsStore label = true)

theorem flag_kept {service : Service} {label : Label} (answers : label.answers = false) :
    FlagStep service label service.admission.accepting := by
  refine .kept rfl ?_ ?_ <;> cases label <;> first | rfl | cases answers

theorem leave_accepting (service : Service) (key : String) (task : Task)
    (ending : Except RuntimeFault Value) :
    (service.leave key task ending).admission.accepting =
      (service.admission.accepting && AdmissionController.outcomeKnown ending) :=
  service.admission.leave_accepting key ending

/-- An answer to a port call is a ground or keeps the flag; the two groundless ends are those of a
task whose port calls all went well. -/
theorem flag_left {service : Service} {label : Label} {key : String} {task : Task}
    {ending : Except RuntimeFault Value} (found : (key, task) ∈ service.admission.tasks.entries)
    (ends : Ends key task label ending) :
    FlagStep service label (service.leave key task ending).admission.accepting := by
  have archiving_eq := task_at_found found isArchiving
  have kept : AdmissionController.outcomeKnown ending = true →
      (service.leave key task ending).admission.accepting = service.admission.accepting := by
    intro known
    rw [leave_accepting, known, Bool.and_true]
  have closes : AdmissionController.outcomeKnown ending = false →
      (service.leave key task ending).admission.accepting = false := by
    intro unknown
    rw [leave_accepting, unknown, Bool.and_false]
  cases ends with
  | called call _ calling =>
      have noArchive : archiveSucceeds service (.settle key ending) = false := by
        cases ending <;> simp [archiveSucceeds, archiving_eq, isArchiving, calling]
      rcases ending with (_ | _ | _) | value
      · exact .kept (kept rfl) noArchive rfl
      · exact .grounded (closes rfl) rfl noArchive rfl
      · exact .grounded (closes rfl) rfl noArchive rfl
      · exact .kept (kept rfl) noArchive rfl
  | archived row value archiving =>
      refine .groundless (closes rfl) rfl (.inl ?_)
      simp [archiveSucceeds, archiving_eq, isArchiving, archiving]
  | archiveFailed row fault archiving =>
      cases fault with
      | executionFailed => exact .kept (kept rfl) rfl rfl
      | failed => exact .grounded (closes rfl) rfl rfl rfl
      | cancelled => exact .grounded (closes rfl) rfl rfl rfl
  | stored row storing => exact .kept (kept rfl) rfl rfl
  | storeCancelled row storing => exact .groundless (closes rfl) rfl (.inr rfl)

theorem flag_step {service next : Service} {label : Label}
    (stepped : service.step label = some next) :
    FlagStep service label next.admission.accepting := by
  have effect := step_effect stepped
  cases effect with
  | refused operation => exact flag_kept rfl
  | admitted operation resolved accepting room free => exact flag_kept rfl
  | continued label key task next calls consumers answers found continues kept =>
      exact flag_kept answers
  | threadCreated key task principal row call found calling operation fresh named =>
      refine .kept rfl ?_ rfl
      simp [archiveSucceeds, task_at_found found, isArchiving, calling]
  | left label key task ending found ends => exact flag_left found ends
  | committed row rows pending created => exact flag_kept rfl
  | insertFailed row pending => exact flag_kept rfl
  | drained => exact .grounded rfl rfl rfl rfl
  | cancelledAll label change consumers answers continues kept => exact flag_kept answers
  | consumed index action consumers kept => exact flag_kept rfl

theorem audited_step {current next : Service × List Cause} {label : Label}
    (stepped : audited.step current label = some next) :
    current.1.step label = some next.1 ∧ next.2 = current.2 ++ (cause current.1 label).toList :=
  (machine.with_history_step cause current.1 current.2 label next).mp stepped

/-- A closed state has a cause, if every step so far was harmless. -/
theorem harmless_caused {current next : Service × List Cause} {label : Label}
    (caused : current.1.admission.accepting = false → current.2 ≠ [])
    (harmless : (archiveSucceeds current.1 label = true →
        current.1.admission.accepting = false) ∧
      (interruptsStore label = true → current.1.admission.accepting = false ∨ current.2 ≠ []))
    (stepped : audited.step current label = some next)
    (closed : next.1.admission.accepting = false) : next.2 ≠ [] := by
  obtain ⟨serviceStep, history⟩ := audited_step stepped
  rw [history]
  cases flag_step serviceStep with
  | kept same noArchive noInterrupt =>
      have earlier := caused (same ▸ closed)
      simp [earlier]
  | grounded closes given noArchive noInterrupt =>
      obtain ⟨note, noted⟩ := Option.isSome_iff_exists.mp given
      simp [noted]
  | groundless closes none slip =>
      rcases slip with archive | interrupt
      · simp [caused (harmless.1 archive)]
      · rcases harmless.2 interrupt with before | earlier
        · simp [caused before]
        · simp [earlier]

theorem harmless_closes_for_cause {current : Service × List Cause} {labels : List Label}
    (caused : current.1.admission.accepting = false → current.2 ≠ [])
    (harmless : Harmless current labels) : ClosesForCause current labels := by
  induction labels generalizing current with
  | nil =>
      refine ⟨?_, trivial⟩
      intro early late reached split run closed
      obtain ⟨rfl, rfl⟩ := List.nil_eq_append_iff.mp split
      cases run
      exact caused closed
  | cons label labels ih =>
      refine ⟨?_, ?_⟩
      · intro early late reached split run closed
        cases early with
        | nil =>
            cases run
            exact caused closed
        | cons first early =>
            obtain ⟨rfl, rfl⟩ := List.cons.inj split
            obtain ⟨next, stepped, rest⟩ := (audited.run_cons ..).1 run
            obtain ⟨here, later⟩ := harmless next stepped
            exact (ih (harmless_caused caused here stepped) later).caused early late reached rfl
              rest closed
      · intro next stepped
        obtain ⟨here, later⟩ := harmless next stepped
        refine ⟨fun archive => ?_, (ih (harmless_caused caused here stepped) later).compensated⟩
        have before := here.1 archive
        rw [before, closed_effect (step_effect (audited_step stepped).1) before]

theorem closes_for_cause_harmless {current : Service × List Cause} {labels : List Label}
    (closes : ClosesForCause current labels) : Harmless current labels := by
  induction labels generalizing current with
  | nil => trivial
  | cons label labels ih =>
      intro next stepped
      obtain ⟨serviceStep, history⟩ := audited_step stepped
      obtain ⟨compensated, compensatedLater⟩ := closes.compensated next stepped
      have caused := closes.caused [label] labels next rfl
        ((audited.run_cons ..).2 ⟨next, stepped, rfl⟩)
      refine ⟨⟨?_, ?_⟩, ih ⟨?_, compensatedLater⟩⟩
      · intro archive
        rw [← compensated archive]
        cases flag_step serviceStep with
        | kept same noArchive noInterrupt => simp [archive] at noArchive
        | grounded shut given noArchive noInterrupt => exact shut
        | groundless shut none slip => exact shut
      · intro interrupt
        right
        cases flag_step serviceStep with
        | kept same noArchive noInterrupt => simp [interrupt] at noInterrupt
        | grounded shut given noArchive noInterrupt => simp [interrupt] at noInterrupt
        | groundless shut none slip =>
            have noted := caused shut
            rwa [history, none, Option.toList_none, List.append_nil] at noted
      · intro early late reached split run
        exact closes.caused (label :: early) late reached (by rw [split, List.cons_append])
          ((audited.run_cons ..).2 ⟨next, stepped, run⟩)

/-- From a fresh service: admission closes for a cause in every state of a run, and errors of the
repository leave it alone, exactly when the run is harmless. -/
theorem closes_for_cause_iff (limit : Nat) (positive : 1 ≤ limit)
    (conversations : List Conversation) (labels : List Label) :
    ClosesForCause (new limit positive conversations, []) labels ↔
      Harmless (new limit positive conversations, []) labels :=
  ⟨closes_for_cause_harmless,
    harmless_closes_for_cause (by simp [new, AdmissionController.new])⟩

/-- A turn the runtime reports as failed. -/
def confirmedFailure : List Label :=
  let conversation : Conversation :=
    { id := "c", tenantId := "t", userId := "u", runtimeThreadId := "r" }
  let principal : ServicePrincipal := { userId := "u", tenantId := "t", roles := ∅ }
  [.submit (.chat conversation "hi" principal), .start "c",
    .settle "c" (.error .executionFailed)]

theorem closes_for_cause_confirmed_failure :
    ClosesForCause (new 1 (by decide) [⟨"c", "t", "u", "r"⟩], []) confirmedFailure := by
  apply (closes_for_cause_iff 1 (by decide) [⟨"c", "t", "u", "r"⟩] confirmedFailure).2
  have harmless : ∀ (current : Service × List Cause) (label : Label),
      label ∈ confirmedFailure →
      (archiveSucceeds current.1 label = true → current.1.admission.accepting = false) ∧
        (interruptsStore label = true →
          current.1.admission.accepting = false ∨ current.2 ≠ []) := by
    intro current label member
    simp only [confirmedFailure, List.mem_cons, List.not_mem_nil, or_false] at member
    rcases member with rfl | rfl | rfl <;> exact ⟨nofun, nofun⟩
  intro first _
  refine ⟨harmless _ _ (by simp [confirmedFailure]), fun second _ => ?_⟩
  refine ⟨harmless _ _ (by simp [confirmedFailure]), fun third _ => ?_⟩
  exact ⟨harmless _ _ (by simp [confirmedFailure]), trivial⟩

/-- Creating a conversation for a user id the table has no room for: the thread is archived, and
the whole service stops. -/
def oversizedCreation : List Label :=
  let userId := String.ofList (List.replicate 129 'u')
  [.submit (.createConversation "c" { userId := userId, tenantId := "t", roles := ∅ }),
    .start "c", .settle "c" (.ok (.thread "r")), .storeFails "c", .settle "c" (.ok .done)]

theorem repository_error_closes_admission :
    ¬ ∀ (limit : Nat) (positive : 1 ≤ limit) (conversations : List Conversation)
      (labels : List Label), ClosesForCause (new limit positive conversations, []) labels := by
  intro law
  have runs : (audited.run (new 8 (by decide) [], []) oversizedCreation).isSome = true := by decide
  exact (law 8 (by decide) [] oversizedCreation).caused oversizedCreation [] _
    (List.append_nil _).symm (Option.some_get runs).symm rfl rfl

end Service

end AgentHarness.Services
