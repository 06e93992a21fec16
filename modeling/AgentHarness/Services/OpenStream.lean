import AgentHarness.Runtime.StreamDelivery
import AgentHarness.Runtime.StreamTurn
import Mathlib.Data.List.TakeWhile

/-!
# The producer of a streamed turn

`produce` in `AgentService.open_stream` forwards every event of `stream_turn` to the subscription
and reports how the generator ended through `finish`.
-/

namespace AgentHarness.Services

open AgentHarness.Library AgentHarness.Events AgentHarness.Runtime

set_option autoImplicit false

/-- The error code of `produce`'s handlers. -/
def finishError : Option RuntimeFault → Option String
  | none => none
  | some .executionFailed => some "TURN_FAILED"
  | some .failed | some .cancelled => some "RUNTIME_UNAVAILABLE"

/-- The calls `produce` makes on the subscription. -/
def produce (turn : List AgentEvent × Option RuntimeFault) : List Stream.Label :=
  Stream.producerScript turn.1 (finishError turn.2)

/-- `EventSubscription`'s default bound. -/
def maxEvents : Int := 128

theorem finish_error_visible (outcome : Option RuntimeFault) :
    truthyText (finishError outcome) = true ↔ outcome ≠ none := by
  rcases outcome with _ | (_ | _ | _) <;> decide

def isTerminal (event : AgentEvent) : Bool :=
  event.type = "turn.completed" || event.type = "error"

def OneTerminalLast (delivered : List AgentEvent) : Prop :=
  ∃ before last, delivered = before ++ [last] ∧ isTerminal last = true ∧
    ∀ event ∈ before, isTerminal event = false

/-- An attached consumer that keeps up gets one terminal event, at the end, under every
interleaving with the producer. -/
def EndsWithOneTerminal (runtime : CodexRuntime) (conversationId : String)
    (script : TurnScript) : Prop :=
  ∀ labels final,
    labels.filter Stream.Label.produced = produce (runtime.streamTurn conversationId script) →
    (∀ label ∈ labels, label.attached = true) →
    Stream.KeepsUp (Stream.new conversationId maxEvents) labels →
    Stream.Settles conversationId maxEvents labels final →
    OneTerminalLast final.delivered

section Ending

open CodexEventMapper CodexRuntime

/-- Either no `turn/completed` is read at all, or the stream ends by itself, everything in it can
be read, and its only `turn/completed` is followed by unsupported notifications alone. -/
def SingleEnding (notifications : List Notification) (ending : Option RuntimeFault) : Prop :=
  (∀ notification ∈ notifications.takeWhile readable, completes notification = false) ∨
    (ending = none ∧ ∃ before last after, notifications = before ++ last :: after ∧
      (∀ notification ∈ before,
        readable notification = true ∧ completes notification = false) ∧
      completes last = true ∧ ∀ notification ∈ after, supported notification = false)

def HasSingleEnding (runtime : CodexRuntime) : TurnScript → Prop
  | .resumeFails _ | .turnFails _ => True
  | .streams notifications ending => runtime.started = false ∨ SingleEnding notifications ending

theorem error_event_terminal (conversationId code : String) :
    isTerminal (EventSubscription.errorEvent conversationId code) = true := rfl

theorem mapped_is_terminal {conversationId : String} {notification : Notification}
    {event : AgentEvent} (maps : mapped conversationId notification = some event) :
    isTerminal event = completes notification := by
  obtain ⟨notError, terminal⟩ := mapped_terminal maps
  cases completed : completes notification <;> simp_all [isTerminal]

theorem mapped_quiet_iff (conversationId : String) (notifications : List Notification) :
    (∀ event ∈ notifications.filterMap (mapped conversationId), isTerminal event = false) ↔
      ∀ notification ∈ notifications, completes notification = false := by
  constructor
  · intro quiet notification member
    cases completed : completes notification with
    | false => rfl
    | true =>
        obtain ⟨_, event, maps⟩ := completes_mapped conversationId completed
        have silent := quiet event (List.mem_filterMap.mpr ⟨notification, member, maps⟩)
        rw [mapped_is_terminal maps, completed] at silent
        exact silent
  · intro quiet event member
    obtain ⟨notification, memberNotification, maps⟩ := List.mem_filterMap.mp member
    rw [mapped_is_terminal maps]
    exact quiet notification memberNotification

/-- With a failing end the consumer that reads in step sees every event and then the error. -/
theorem failing_end_iff (conversationId : String) (events : List AgentEvent)
    (error : Option String) (raised : truthyText error = true) :
    (∀ labels final,
      labels.filter Stream.Label.produced = Stream.producerScript events error →
      (∀ label ∈ labels, label.attached = true) →
      Stream.KeepsUp (Stream.new conversationId maxEvents) labels →
      Stream.Settles conversationId maxEvents labels final →
      OneTerminalLast final.delivered) ↔
      ∀ event ∈ events, isTerminal event = false := by
  constructor
  · intro ends
    obtain ⟨labels, final, schedule, keepsUp, settles, delivered⟩ :=
      Stream.lockstep_schedule conversationId maxEvents events error
    obtain ⟨before, last, split, _, quiet⟩ :=
      ends labels final schedule.script schedule.attached keepsUp settles
    rw [delivered, if_pos raised] at split
    obtain ⟨rfl, _⟩ := List.append_inj' split rfl
    exact quiet
  · intro quiet labels final script attached keepsUp settles
    rcases Stream.schedule_settles ⟨script, attached⟩ keepsUp settles with
      ⟨silent, _⟩ | ⟨code, taken, _, _, part, delivered⟩
    · rw [raised] at silent
      cases silent
    · exact ⟨taken, _, delivered, error_event_terminal conversationId code,
        fun event member => quiet event (part.subset member)⟩

/-- After a plain `finish` every schedule delivers exactly the published events. -/
theorem plain_end_iff (conversationId : String) (events : List AgentEvent) :
    (∀ labels final,
      labels.filter Stream.Label.produced = Stream.producerScript events none →
      (∀ label ∈ labels, label.attached = true) →
      Stream.KeepsUp (Stream.new conversationId maxEvents) labels →
      Stream.Settles conversationId maxEvents labels final →
      OneTerminalLast final.delivered) ↔ OneTerminalLast events := by
  constructor
  · intro ends
    obtain ⟨labels, final, schedule, keepsUp, settles, delivered⟩ :=
      Stream.lockstep_schedule conversationId maxEvents events none
    have ended := ends labels final schedule.script schedule.attached keepsUp settles
    rw [delivered] at ended
    simpa [truthyText] using ended
  · intro ended labels final script attached keepsUp settles
    rcases Stream.schedule_settles ⟨script, attached⟩ keepsUp settles with
      ⟨_, delivered⟩ | ⟨code, _, contradiction, _⟩
    · rwa [delivered]
    · cases contradiction

/-- A stream that returns has a completion, so the terminal event is last exactly when only
unsupported notifications follow the first one. -/
theorem returned_end_iff (conversationId : String) (notifications : List Notification)
    (reads : ∀ notification ∈ notifications, readable notification = true) :
    OneTerminalLast (notifications.filterMap (mapped conversationId)) ↔
      ∃ before last after, notifications = before ++ last :: after ∧
        (∀ notification ∈ before,
          readable notification = true ∧ completes notification = false) ∧
        completes last = true ∧ ∀ notification ∈ after, supported notification = false := by
  constructor
  · rintro ⟨events, terminal, split, isLast, quiet⟩
    obtain ⟨front, back, rfl, frontMaps, backMaps⟩ := List.filterMap_eq_append_iff.mp split
    obtain ⟨skipped, last, after, rfl, dropped, maps, rest⟩ := List.filterMap_eq_cons_iff.mp backMaps
    have readsOf : ∀ notification, notification ∈ front ∨ notification ∈ skipped ∨
        notification ∈ after → readable notification = true := by
      rintro notification (member | member | member) <;> exact reads notification (by simp [member])
    refine ⟨front ++ skipped, last, after, by simp, ?_, ?_, ?_⟩
    · intro notification member
      rcases List.mem_append.mp member with early | late
      · refine ⟨readsOf notification (.inl early), ?_⟩
        exact (mapped_quiet_iff conversationId front).mp (frontMaps ▸ quiet) notification early
      · refine ⟨readsOf notification (.inr (.inl late)), ?_⟩
        cases completed : completes notification with
        | false => rfl
        | true =>
            obtain ⟨_, event, kept⟩ := completes_mapped conversationId completed
            rw [dropped notification late] at kept
            cases kept
    · rw [← mapped_is_terminal maps]
      exact isLast
    · intro notification member
      have gone := List.filterMap_eq_nil_iff.mp rest notification member
      exact (mapped_eq_none_iff (readsOf notification (.inr (.inr member)))).mp gone
  · rintro ⟨before, last, after, rfl, quiet, completed, unsupported⟩
    obtain ⟨_, event, maps⟩ := completes_mapped conversationId completed
    have rest : after.filterMap (mapped conversationId) = [] := by
      refine List.filterMap_eq_nil_iff.mpr fun notification member => ?_
      exact (mapped_eq_none_iff (unsupported_readable (unsupported notification member))).mpr
        (unsupported notification member)
    refine ⟨before.filterMap (mapped conversationId), event, by simp [maps, rest], ?_, ?_⟩
    · rw [mapped_is_terminal maps, completed]
    · exact (mapped_quiet_iff conversationId before).mpr fun notification member =>
        (quiet notification member).2

/-- One terminal event, at the end, whatever the interleaving: exactly for the streams whose
completion is not followed by anything. -/
theorem ends_with_one_terminal_iff (runtime : CodexRuntime) (conversationId : String)
    (script : TurnScript) :
    EndsWithOneTerminal runtime conversationId script ↔ HasSingleEnding runtime script := by
  have faulty : ∀ fault, runtime.streamTurn conversationId script = ([], some fault) →
      EndsWithOneTerminal runtime conversationId script := by
    intro fault turn
    unfold EndsWithOneTerminal produce
    rw [turn, failing_end_iff _ _ _ ((finish_error_visible _).mpr (by simp))]
    simp
  cases script with
  | resumeFails fault =>
      refine iff_of_true ?_ trivial
      cases started : runtime.started with
      | false => exact faulty .failed (by simp [streamTurn, started])
      | true => exact faulty fault (by simp [streamTurn, started])
  | turnFails fault =>
      refine iff_of_true ?_ trivial
      cases started : runtime.started with
      | false => exact faulty .failed (by simp [streamTurn, started])
      | true => exact faulty fault (by simp [streamTurn, started])
  | streams notifications ending =>
      cases started : runtime.started with
      | false => exact iff_of_true (faulty .failed (by simp [streamTurn, started])) (.inl started)
      | true =>
          have turn : runtime.streamTurn conversationId (.streams notifications ending) =
              streamLoop conversationId ending false notifications := by simp [streamTurn, started]
          have events := stream_loop_events conversationId ending false notifications
          have returns := stream_loop_returns conversationId ending false notifications
          have goal : HasSingleEnding runtime (.streams notifications ending) ↔
              SingleEnding notifications ending := by simp [HasSingleEnding, started]
          unfold EndsWithOneTerminal produce
          rw [goal, turn, events]
          cases outcome : (streamLoop conversationId ending false notifications).2 with
          | some fault =>
              rw [failing_end_iff _ _ _ ((finish_error_visible _).mpr (by simp)),
                mapped_quiet_iff]
              refine ⟨.inl, ?_⟩
              rintro (quiet | ⟨rfl, before, last, after, rfl, quiet, completed, unsupported⟩)
              · exact quiet
              · have returned := returns.mpr ⟨rfl, ?_, .inr ⟨last, by simp, completed⟩⟩
                · rw [outcome] at returned
                  cases returned
                · intro notification member
                  rcases List.mem_append.mp member with early | late
                  · exact (quiet notification early).1
                  · rcases List.mem_cons.mp late with rfl | later
                    · exact (completes_mapped conversationId completed).1
                    · exact unsupported_readable (unsupported notification later)
          | none =>
              obtain ⟨ended, reads, completed⟩ := returns.mp outcome
              have whole : notifications.takeWhile readable = notifications :=
                List.takeWhile_eq_self_iff.mpr reads
              rw [finishError, plain_end_iff, whole, returned_end_iff conversationId _ reads]
              constructor
              · intro split
                exact .inr ⟨ended, split⟩
              · rintro (quiet | ⟨_, split⟩)
                · rcases completed with never | ⟨notification, member, completed⟩
                  · cases never
                  · rw [whole] at quiet
                    rw [quiet notification member] at completed
                    cases completed
                · exact split

/-- The SDK connection fails after the completion notification: the client gets both terminal
events. -/
theorem failure_after_completion_has_two_terminals :
    ¬ ∀ (runtime : CodexRuntime) (conversationId : String) (script : TurnScript),
      EndsWithOneTerminal runtime conversationId script := by
  intro law
  have ends := law ⟨true⟩ "c" (.streams [⟨some "turn/completed", .none⟩] (some .failed))
  unfold EndsWithOneTerminal produce at ends
  have quiet := (failing_end_iff "c" _ _ (by decide)).mp ends
  exact absurd quiet (by decide)

end Ending

end AgentHarness.Services
