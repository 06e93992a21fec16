import AgentHarness.Library.Dict
import AgentHarness.Runtime.StreamTurn

/-!
# Admission control

`AdmissionController` without its operations: the reservation in `submit`, what `execute` makes of
the way an operation ends, and the two shutdown calls. The table maps a key to its task; the type
of task records is a parameter.
-/

namespace AgentHarness.Runtime

open AgentHarness.Library

set_option autoImplicit false

inductive AdmissionRejected where
  | serviceUnavailable
  | conversationBusy
  | capacityExceeded
  deriving DecidableEq, Repr

namespace AdmissionRejected

def code : AdmissionRejected → String
  | serviceUnavailable => "SERVICE_UNAVAILABLE"
  | conversationBusy => "CONVERSATION_BUSY"
  | capacityExceeded => "CAPACITY_EXCEEDED"

def statusCode : AdmissionRejected → Nat
  | serviceUnavailable => 503
  | conversationBusy => 409
  | capacityExceeded => 503

end AdmissionRejected

/-- What an admitted task raises. -/
inductive TaskError where
  | executionFailed
  | cancelled
  | runtimeUnavailable
  deriving DecidableEq, Repr

structure AdmissionController (Task : Type) where
  limit : Nat
  /-- The constructor refuses a limit below one. -/
  positive : 1 ≤ limit
  tasks : Dict String Task
  accepting : Bool

namespace AdmissionController

variable {Task Value : Type}

def new (limit : Nat) (positive : 1 ≤ limit) : AdmissionController Task where
  limit := limit
  positive := positive
  tasks := .empty
  accepting := true

/-- The checks and the reservation are one step: nothing is awaited between them. -/
def submit (admission : AdmissionController Task) (key : String) (task : Task) :
    Except AdmissionRejected (AdmissionController Task) :=
  if !admission.accepting then .error .serviceUnavailable
  else if busy : key ∈ admission.tasks.keys then .error .conversationBusy
  else if admission.limit ≤ admission.tasks.size then .error .capacityExceeded
  else .ok { admission with tasks := admission.tasks.insertNew key task busy }

/-- The endings of an operation that leave `_accepting` as it is. -/
def confirmed : Except RuntimeFault Value → Bool
  | .ok _ => true
  | .error .executionFailed => true
  | .error .failed | .error .cancelled => false

/-- What the task raises: `asyncio.timeout` turns the cancellation it caused into a `TimeoutError`,
and every exception but the confirmed failure is replaced. -/
def taskResult (timedOut : Bool) : Except RuntimeFault Value → Except TaskError Value
  | .ok value => .ok value
  | .error .executionFailed => .error .executionFailed
  | .error .failed => .error .runtimeUnavailable
  | .error .cancelled => if timedOut then .error .runtimeUnavailable else .error .cancelled

/-- The exception handlers and the `finally` of `execute`. -/
def leave (admission : AdmissionController Task) (key : String)
    (ending : Except RuntimeFault Value) : AdmissionController Task :=
  { admission with
    accepting := admission.accepting && confirmed ending
    tasks := admission.tasks.pop key }

def drain (admission : AdmissionController Task) : AdmissionController Task :=
  { admission with accepting := false }

def updateTask (admission : AdmissionController Task) (key : String) (change : Task → Task) :
    AdmissionController Task :=
  { admission with tasks := admission.tasks.modify key change }

/-- `cancel_after_runtime_closed` cancels every task in the table. -/
def cancelAll (admission : AdmissionController Task) (cancel : Task → Task) :
    AdmissionController Task :=
  { admission with tasks := admission.tasks.mapValues cancel }

/-- What an ending tells about the remote operation, whatever the handlers make of it: it is known
to have stopped where the call returned or raised `ExecutionFailed`, and nowhere else. -/
def outcomeKnown (ending : Except RuntimeFault Value) : Bool :=
  match ending with
  | .ok _ => true
  | .error fault => fault = .executionFailed

/-- The handlers keep admission open exactly where the outcome is known. -/
theorem confirmed_eq_outcome_known (ending : Except RuntimeFault Value) :
    confirmed ending = outcomeKnown ending := by
  cases ending with
  | ok value => rfl
  | error fault => cases fault <;> rfl

theorem leave_accepting (admission : AdmissionController Task) (key : String)
    (ending : Except RuntimeFault Value) :
    (admission.leave key ending).accepting = (admission.accepting && outcomeKnown ending) := by
  rw [← confirmed_eq_outcome_known]
  rfl

/-- An admitted key was free, admission was open and there was room. -/
theorem submit_eq_ok_iff (admission next : AdmissionController Task) (key : String) (task : Task) :
    admission.submit key task = .ok next ↔
      admission.accepting = true ∧ admission.tasks.size < admission.limit ∧
        ∃ free : key ∉ admission.tasks.keys,
          next = { admission with tasks := admission.tasks.insertNew key task free } := by
  unfold submit
  split_ifs with closed busy full
  · simp_all
  · simp [busy]
  · simp only [false_iff]
    omega
  · simp only [Except.ok.injEq]
    constructor
    · rintro rfl
      exact ⟨by simpa using closed, by omega, busy, rfl⟩
    · rintro ⟨_, _, _, rfl⟩
      rfl

theorem submit_busy (admission : AdmissionController Task) (key : String) (task : Task)
    (refused : admission.submit key task = .error .conversationBusy) :
    key ∈ admission.tasks.keys := by
  unfold submit at refused
  split_ifs at refused with closed busy full
  · cases refused
  · exact busy
  · cases refused

theorem submit_closed (admission : AdmissionController Task) (key : String) (task : Task)
    (closed : admission.accepting = false) :
    admission.submit key task = .error .serviceUnavailable := by
  simp [submit, closed]

end AdmissionController

end AgentHarness.Runtime
