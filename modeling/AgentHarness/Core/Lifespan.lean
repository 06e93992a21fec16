import AgentHarness.Core.DependencyReadiness
import AgentHarness.Runtime.AdmissionTasks

/-!
# The lifespan of the application

`lifespan` as one coroutine, from the first repository to the last callback of its exit stack, with
`CodexRuntime.start` and `close` and the state they leave. The readiness loop and the admitted tasks
take their steps whenever the coroutine is suspended. Every statement that can raise may do so: a
constructor, an awaited call of the SDK, a cancelled wait, a callback.
-/

namespace AgentHarness.Core

open AgentHarness.Library AgentHarness.Runtime

set_option autoImplicit false

inductive Healthcheck where
  | conversations
  | approvals
  deriving DecidableEq, Repr

/-- The callbacks of the exit stack, by what they close. -/
inductive Callback where
  | conversationRepository
  | approvalRepository
  | readiness
  | runtime
  deriving DecidableEq, Repr

inductive Pool where
  | absent
  | opened
  | disposed
  deriving DecidableEq, Repr

/-- What the application knows of the SDK: the flag `_started`, and how the calls of `__aenter__`
and `__aexit__` ended. -/
structure CodexHandle where
  started : Bool
  entered : Option Bool
  exits : List Bool

/-- The statement the coroutine is about to run or waits for. A shutdown call of the admission
controller is known by its number. -/
inductive Point where
  | openConversations
  | openApprovals
  | startReadiness
  | assembleRuntime
  | enterCodex
  | abandonCodex
  | assembleServices
  | serving
  | draining (call : Nat)
  | closingRuntime
  | cancelling (call : Nat)
  | unwinding
  | closingReadiness
  | exitingRuntime
  | ended
  deriving DecidableEq, Repr

/-- `advance` ends the current statement of the coroutine, normally or with an exception; the first
check ends by the answers of its probes. -/
inductive LifespanLabel (Value : Type) where
  | advance (returned : Bool)
  | startProbed (returned : Bool)
  | startCancelled
  | monitor (label : MonitorLabel)
  | slot (label : SlotLabel Value)

structure Process (Value : Type) where
  point : Point
  stack : List Callback
  raising : Bool
  conversationPool : Pool
  approvalPool : Pool
  monitor : Monitor Healthcheck
  codex : CodexHandle
  admission : Option (Slots Value)

variable {Value : Type}

/-- The steps of the monitor that the coroutine does not take itself. -/
def MonitorLabel.ofLoop : MonitorLabel → Bool
  | .tick _ | .loopStarts | .wakes | .loopProbed _ | .loopCancelled => true
  | .start | .startProbed _ | .startCancelled | .close | .closeReturns => false

/-- The steps of requests, tasks and timers. Only the coroutine makes the shutdown calls. -/
def SlotLabel.ofRequests : SlotLabel Value → Bool
  | .submit _ | .firstStep _ | .deadline _ | .settle _ _ | .cancel _ => true
  | .drain | .cancelAfterRuntimeClosed | .returns _ => false

namespace Process

/-- A readiness of at most a minute, checked every five seconds. -/
def start (now : Nat) : Process Value where
  point := .openConversations
  stack := []
  raising := false
  conversationPool := .absent
  approvalPool := .absent
  monitor := .new [.conversations, .approvals] 5000 60000 now
  codex := ⟨false, none, []⟩
  admission := none

/-- An exception leaves the body: the exit stack is unwound. -/
def fail (process : Process Value) : Process Value :=
  { process with point := .unwinding, raising := true }

/-- An exception of a callback, or of the closing calls, takes the place of the one before. -/
def note (process : Process Value) (returned : Bool) : Process Value :=
  { process with raising := process.raising || !returned }

/-- `__aexit__` has ended. `_started` is reset only behind it. -/
def exited (process : Process Value) (returned : Bool) : Process Value :=
  { process with
    codex := { process.codex with
      started := process.codex.started && !returned
      exits := process.codex.exits ++ [returned] } }.note returned

/-- The check of `start` goes on, and ends by starting the loop or by raising. -/
def resumeStart (process : Process Value) (label : MonitorLabel) : Option (Process Value) :=
  (process.monitor.step label).map fun monitor =>
    match monitor.owner with
    | .started =>
        { process with
          point := .assembleRuntime, stack := .readiness :: process.stack, monitor := monitor }
    | .refused => { process with monitor := monitor }.fail
    | _ => { process with point := .startReadiness, monitor := monitor }

/-- The first statement of the `finally`. -/
def drain (process : Process Value) : Option (Process Value) :=
  process.admission.map fun slots =>
    { process with point := .draining slots.calls.length, admission := some slots.drain }

/-- A shutdown call that found nothing to wait for has its answer already. -/
def settled (slots : Slots Value) (call : Nat) : Option (Slots Value) :=
  match slots.calls[call]? with
  | some (.drain _ (some _)) | some (.cancelAfterRuntimeClosed _ true) => some slots
  | _ => slots.returns call

def cancelTasks (process : Process Value) : Option (Process Value) :=
  process.admission.map fun slots =>
    { process with
      point := .cancelling slots.calls.length
      admission := some slots.cancelAfterRuntimeClosed }

/-- `drain` has returned: the runtime is closed, and then, also if that raises, the tasks are
cancelled. -/
def closeRuntime (process : Process Value) : Option (Process Value) :=
  if process.codex.started then some { process with point := .closingRuntime }
  else process.cancelTasks

/-- The next callback of the exit stack. Those that await are suspended at a point of their own. A
pool is disposed once its `close` was called, also where that call raises. -/
def unwind (process : Process Value) (returned : Bool) : Option (Process Value) :=
  match process.stack with
  | [] => if returned then some { process with point := .ended } else none
  | .conversationRepository :: stack =>
      some ({ process with stack := stack, conversationPool := .disposed }.note returned)
  | .approvalRepository :: stack =>
      some ({ process with stack := stack, approvalPool := .disposed }.note returned)
  | .readiness :: stack =>
      if returned then
        (process.monitor.step .close).map fun monitor =>
          { process with point := .closingReadiness, stack := stack, monitor := monitor }
      else none
  | .runtime :: stack =>
      if !returned then none
      else if process.codex.started then
        some { process with point := .exitingRuntime, stack := stack }
      else some { process with stack := stack }

/-- The coroutine goes on from the end of its current statement to the end of the next one that it
cannot be sure of. -/
def advance (maxActive : Nat) (process : Process Value) (returned : Bool) :
    Option (Process Value) :=
  match process.point with
  | .openConversations =>
      some (if returned then
        { process with
          point := .openApprovals
          stack := .conversationRepository :: process.stack
          conversationPool := .opened }
      else process.fail)
  | .openApprovals =>
      if returned then
        { process with
          stack := .approvalRepository :: process.stack
          approvalPool := .opened }.resumeStart .start
      else some process.fail
  | .startReadiness => none
  | .assembleRuntime =>
      some (if returned then { process with point := .enterCodex } else process.fail)
  | .enterCodex =>
      some (if returned then
        { process with
          point := .assembleServices
          stack := .runtime :: process.stack
          codex := { process.codex with started := true, entered := some true } }
      else
        { process with
          point := .abandonCodex
          codex := { process.codex with entered := some false } })
  | .abandonCodex => some (process.exited returned).fail
  | .assembleServices =>
      if returned then
        if positive : 1 ≤ maxActive then
          some { process with point := .serving, admission := some (.start maxActive positive) }
        else none
      else some process.fail
  | .serving => (process.note returned).drain
  | .draining call =>
      if returned then
        (process.admission.bind fun slots => settled slots call).bind fun slots =>
          { process with admission := some slots }.closeRuntime
      else some process.fail
  | .closingRuntime => (process.exited returned).cancelTasks
  | .cancelling call =>
      if returned then
        (process.admission.bind fun slots => settled slots call).map fun slots =>
          { process with point := .unwinding, admission := some slots }
      else some process.fail
  | .unwinding => process.unwind returned
  | .closingReadiness =>
      if returned then
        (process.monitor.step .closeReturns).map fun monitor =>
          { process with point := .unwinding, monitor := monitor }
      else some process.fail
  | .exitingRuntime => some { (process.exited returned) with point := .unwinding }
  | .ended => none

def step (maxActive : Nat) (process : Process Value) : LifespanLabel Value → Option (Process Value)
  | .advance returned => process.advance maxActive returned
  | .startProbed returned =>
      if process.point = .startReadiness then process.resumeStart (.startProbed returned) else none
  | .startCancelled =>
      if process.point = .startReadiness then process.resumeStart .startCancelled else none
  | .monitor label =>
      if label.ofLoop then
        (process.monitor.step label).map fun monitor => { process with monitor := monitor }
      else none
  | .slot label =>
      if SlotLabel.ofRequests label then
        process.admission.bind fun slots =>
          (slots.step label).map fun next => { process with admission := some next }
      else none

/-- `GET /ready`. The readiness is published before the service that holds the admission. -/
def readyStatus (process : Process Value) : Nat :=
  match process.admission with
  | none => 503
  | some slots => if slots.admission.accepting && process.monitor.ready then 200 else 503

end Process

/-- `settings.max_active_operations` is the one setting the steps depend on. -/
def lifespanMachine (Value : Type) (maxActive : Nat) :
    Machine (Process Value) (LifespanLabel Value) where
  step := Process.step maxActive

end AgentHarness.Core
