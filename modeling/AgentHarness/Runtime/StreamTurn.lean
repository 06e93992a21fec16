import AgentHarness.Events.CodexEventMapper

/-!
# Streaming one turn

`CodexRuntime.stream_turn` is driven by what the SDK does: each awaited call returns or raises,
and a cancellation is delivered at an await. The result is the sequence of yielded events and how
the generator ends.
-/

namespace AgentHarness.Runtime

open AgentHarness.Library AgentHarness.Events

set_option autoImplicit false

/-- How a call of the runtime ends when it does not return. -/
inductive RuntimeFault where
  | executionFailed
  | failed
  | cancelled
  deriving DecidableEq, Repr

/-- The SDK's side of one streamed turn: `thread_resume` fails, `thread.turn` fails, or the
stream gives its notifications and then ends or fails. -/
inductive TurnScript where
  | resumeFails (fault : RuntimeFault)
  | turnFails (fault : RuntimeFault)
  | streams (notifications : List Notification) (ending : Option RuntimeFault)
  deriving DecidableEq, Repr

structure CodexRuntime where
  started : Bool
  deriving DecidableEq, Repr

namespace CodexRuntime

open CodexEventMapper

/-- The body of `async for notification in turn.stream()` and the check after it. -/
def streamLoop (conversationId : String) (ending : Option RuntimeFault) :
    Bool → List Notification → List AgentEvent × Option RuntimeFault
  | completed, [] =>
      match ending with
      | some fault => ([], some fault)
      | none => if completed then ([], none) else ([], some .failed)
  | completed, notification :: rest =>
      match map notification conversationId with
      | .error _ => ([], some .failed)
      | .ok none => streamLoop conversationId ending completed rest
      | .ok (some event) =>
          let (events, outcome) := streamLoop conversationId ending
            (completed || event.type == "turn.completed") rest
          (event :: events, outcome)

def streamTurn (runtime : CodexRuntime) (conversationId : String) :
    TurnScript → List AgentEvent × Option RuntimeFault
  | .resumeFails fault => if runtime.started then ([], some fault) else ([], some .failed)
  | .turnFails fault => if runtime.started then ([], some fault) else ([], some .failed)
  | .streams notifications ending =>
      if runtime.started then streamLoop conversationId ending false notifications
      else ([], some .failed)

def mapped (conversationId : String) (notification : Notification) : Option AgentEvent :=
  match map notification conversationId with
  | .ok event => event
  | .error _ => none

theorem mapped_terminal {conversationId : String} {notification : Notification}
    {event : AgentEvent} (maps : mapped conversationId notification = some event) :
    event.type ≠ "error" ∧
      (event.type = "turn.completed" ↔ completes notification = true) := by
  have cases := map_cases notification conversationId
  unfold mapped at maps
  generalize map notification conversationId = answer at cases maps
  cases cases with
  | dropped => cases maps
  | event mapped _ _ notError terminal =>
      cases maps
      exact ⟨notError, terminal⟩
  | raised => cases maps

theorem mapped_eq_none_iff {conversationId : String} {notification : Notification}
    (reads : readable notification = true) :
    mapped conversationId notification = none ↔ supported notification = false := by
  have cases := map_cases notification conversationId
  rw [← map_readable notification conversationId] at reads
  unfold mapped
  generalize map notification conversationId = answer at cases reads
  cases cases with
  | dropped unsupported _ => simp [unsupported]
  | event mapped isSupported _ _ _ => simp [isSupported]
  | raised fault _ => cases reads

theorem completes_mapped (conversationId : String) {notification : Notification}
    (completed : completes notification = true) :
    readable notification = true ∧ ∃ event, mapped conversationId notification = some event := by
  have cases := map_cases notification conversationId
  rw [← map_readable notification conversationId]
  unfold mapped
  generalize map notification conversationId = answer at cases
  cases cases with
  | dropped _ quiet =>
      rw [completed] at quiet
      cases quiet
  | event mapped _ _ _ _ => exact ⟨rfl, mapped, rfl⟩
  | raised fault quiet =>
      rw [completed] at quiet
      cases quiet

theorem unsupported_readable {notification : Notification}
    (unsupported : supported notification = false) : readable notification = true := by
  unfold readable map
  cases named : notification.method with
  | none => rfl
  | some method =>
      have unknown : method ∉ supportedMethods := by simpa [supported, named] using unsupported
      simp [unknown, Except.isOk, Except.toBool]

/-- The loop reads up to the first notification the mapper raises on and yields what the mapper
keeps. -/
theorem stream_loop_events (conversationId : String) (ending : Option RuntimeFault)
    (completed : Bool) (notifications : List Notification) :
    (streamLoop conversationId ending completed notifications).1 =
      (notifications.takeWhile readable).filterMap (mapped conversationId) := by
  induction notifications generalizing completed with
  | nil => cases ending <;> cases completed <;> rfl
  | cons notification rest ih =>
      have reads := map_readable notification conversationId
      cases answer : map notification conversationId with
      | error fault =>
          rw [answer] at reads
          simp [streamLoop, answer, ← reads, Except.isOk, Except.toBool]
      | ok event =>
          rw [answer] at reads
          cases event <;>
            simp [streamLoop, answer, mapped, ← reads, Except.isOk, Except.toBool, ih]

theorem stream_loop_returns (conversationId : String) (ending : Option RuntimeFault)
    (completed : Bool) (notifications : List Notification) :
    (streamLoop conversationId ending completed notifications).2 = none ↔
      ending = none ∧ (∀ notification ∈ notifications, readable notification = true) ∧
        (completed = true ∨ ∃ notification ∈ notifications, completes notification = true) := by
  induction notifications generalizing completed with
  | nil => cases ending <;> cases completed <;> simp [streamLoop]
  | cons notification rest ih =>
      have reads := map_readable notification conversationId
      have cases := map_cases notification conversationId
      cases answer : map notification conversationId with
      | error fault =>
          rw [answer] at reads
          simp [streamLoop, answer, ← reads, Except.isOk, Except.toBool]
      | ok event =>
          rw [answer] at reads cases
          cases cases with
          | dropped _ quiet =>
              simp [streamLoop, answer, ← reads, Except.isOk, Except.toBool, ih, quiet]
          | event mapped _ _ _ terminal =>
              simp only [streamLoop, answer, ih, Bool.or_eq_true, beq_iff_eq, terminal,
                List.forall_mem_cons, ← reads, List.exists_mem_cons_iff, or_assoc]
              simp [Except.isOk, Except.toBool]

end CodexRuntime

end AgentHarness.Runtime
