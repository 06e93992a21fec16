import AgentHarness.Runtime.EventSubscription

/-!
# The signal and the queue

The signal is cleared only where the consumer has found nothing to hand out, and every method that
changes this sets it again. The queue stays within its bound and is empty once detached.
-/

namespace AgentHarness.Runtime

open AgentHarness.Library AgentHarness.Events

set_option autoImplicit false

namespace EventSubscription

variable {maxEvents : Int} {subscription : EventSubscription}

/-- What every method keeps. An error is recorded by an overflow, which detaches, or by `finish`. -/
structure Sound (maxEvents : Int) (subscription : EventSubscription) : Prop where
  capacity : subscription.queue.maxsize = maxEvents
  bounded : (subscription.queue.items.length : Int) ≤ maxEvents
  closed : subscription.detached = true → subscription.queue.items = []
  ended : subscription.error ≠ none →
    subscription.finished = true ∨ subscription.detached = true

/-- Nothing can be handed out and the stream is not over. -/
structure Quiet (subscription : EventSubscription) : Prop where
  empty : subscription.queue.items = []
  clean : subscription.error = none
  unfinished : subscription.finished = false
  attached : subscription.detached = false

theorem sound_new (conversationId : String) (positive : 1 ≤ maxEvents) :
    Sound maxEvents (EventSubscription.new conversationId maxEvents) where
  capacity := rfl
  bounded := by
    simp only [EventSubscription.new, List.length_nil]
    omega
  closed := fun _ => rfl
  ended := fun recorded => absurd rfl recorded

theorem sound_aclose (sound : Sound maxEvents subscription) :
    Sound maxEvents subscription.aclose where
  capacity := sound.capacity
  bounded := by
    have room := sound.bounded
    simp only [aclose, AsyncQueue.clear, List.length_nil]
    omega
  closed := fun _ => rfl
  ended := fun _ => .inr rfl

theorem sound_take {event : AgentEvent} {rest : List AgentEvent}
    (sound : Sound maxEvents subscription) (queued : subscription.queue.items = event :: rest) :
    Sound maxEvents
      { subscription with queue := { subscription.queue with items := rest } } where
  capacity := sound.capacity
  bounded := by
    have room := sound.bounded
    rw [queued, List.length_cons] at room
    change (rest.length : Int) ≤ maxEvents
    omega
  closed := by
    intro detached
    have empty := sound.closed detached
    rw [queued] at empty
    cases empty
  ended := sound.ended

theorem sound_changed (sound : Sound maxEvents subscription) (changed : Bool) :
    Sound maxEvents { subscription with changed := changed } where
  capacity := sound.capacity
  bounded := sound.bounded
  closed := sound.closed
  ended := sound.ended

theorem sound_finish (sound : Sound maxEvents subscription) (error : Option String) :
    Sound maxEvents (subscription.finish error) where
  capacity := sound.capacity
  bounded := sound.bounded
  closed := sound.closed
  ended := fun _ => .inl rfl

theorem sound_put (sound : Sound maxEvents subscription) (positive : 1 ≤ maxEvents)
    (attached : subscription.detached = false) (room : subscription.queue.full = false)
    (event : AgentEvent) :
    Sound maxEvents
      { subscription with
        queue := { subscription.queue with items := subscription.queue.items ++ [event] }
        changed := true } where
  capacity := sound.capacity
  bounded := by
    have below : (subscription.queue.items.length : Int) < maxEvents := by
      simp only [AsyncQueue.full, sound.capacity, Bool.and_eq_false_iff,
        decide_eq_false_iff_not] at room
      omega
    simp only [List.length_append, List.length_singleton]
    omega
  closed := by
    intro detached
    rw [attached] at detached
    cases detached
  ended := sound.ended

theorem sound_loop_body (sound : Sound maxEvents subscription) :
    Sound maxEvents subscription.loopBody.1 := by
  rcases subscription.loop_body_cases with ⟨_, _, _, body⟩ | ⟨_, event, rest, queued, body⟩ |
    ⟨_, _, _, body⟩ | ⟨_, _, _, _, body⟩
  · rw [body]
    exact sound
  · rw [body]
    exact sound_take sound queued
  · rw [body]
    exact sound_aclose sound
  · rw [body]
    exact sound_changed sound false

end EventSubscription

namespace Stream

open EventSubscription

variable {maxEvents : Int} {stream next final : Stream}

theorem sound_step {label : Label} (positive : 1 ≤ maxEvents)
    (sound : Sound maxEvents stream.subscription) (stepped : step stream label = some next) :
    Sound maxEvents next.subscription := by
  cases label with
  | publish event =>
      rcases publish_cases stepped with ⟨_, rfl⟩ | ⟨attached, room, rfl⟩ | ⟨_, _, rfl⟩
      · exact sound
      · exact sound_put sound positive attached room event
      · have emptied := sound_aclose sound
        exact ⟨emptied.capacity, emptied.bounded, emptied.closed, fun _ => .inr rfl⟩
  | finish error =>
      cases stepped
      exact sound_finish sound error
  | resume =>
      rcases resume_cases stepped with ⟨_, rfl⟩ | ⟨_, rfl⟩
      · exact sound_aclose sound
      · exact sound_loop_body sound
  | aclose =>
      cases stepped
      exact sound_aclose sound
  | abandon =>
      cases stepped
      rcases stream.abandon_cases with ⟨_, left⟩ | ⟨_, left⟩
      · rw [left]
        exact sound
      · rw [left]
        exact sound_aclose sound

/-- The subscription is sound, and the consumer sleeps on a signal that is not set only while it is
quiet. -/
structure Alert (maxEvents : Int) (stream : Stream) : Prop where
  sound : Sound maxEvents stream.subscription
  asleep : stream.consumer = .waiting → stream.subscription.changed = false →
    Quiet stream.subscription

theorem alert_new (conversationId : String) (positive : 1 ≤ maxEvents) :
    Alert maxEvents (Stream.new conversationId maxEvents) where
  sound := sound_new conversationId positive
  asleep := by
    intro waiting
    cases waiting

/-- The loop goes to sleep only behind checks that have found nothing, and clears the signal. -/
theorem loop_body_of_waiting (waiting : stream.subscription.loopBody.2.1 = .waiting) :
    stream.subscription.queue.items = [] ∧ stream.subscription.finished = false ∧
      stream.subscription.detached = false ∧
      stream.subscription.loopBody.1 = { stream.subscription with changed := false } := by
  rcases stream.subscription.loop_body_cases with ⟨_, _, _, body⟩ | ⟨_, _, _, _, body⟩ |
    ⟨_, _, _, body⟩ | ⟨_, empty, unfinished, attached, body⟩
  · rw [body] at waiting
    cases waiting
  · rw [body] at waiting
    cases waiting
  · rw [body] at waiting
    cases waiting
  · exact ⟨empty, unfinished, attached, by rw [body]⟩

theorem quiet_of_waiting (sound : Sound maxEvents stream.subscription)
    (waiting : stream.subscription.loopBody.2.1 = .waiting) : Quiet stream.subscription := by
  have ⟨empty, unfinished, attached, _⟩ := loop_body_of_waiting waiting
  have clean : stream.subscription.error = none := by
    by_contra recorded
    have ended := sound.ended recorded
    rw [unfinished, attached] at ended
    simp at ended
  exact ⟨empty, clean, unfinished, attached⟩

theorem alert_step {label : Label} (positive : 1 ≤ maxEvents) (alert : Alert maxEvents stream)
    (stepped : step stream label = some next) : Alert maxEvents next := by
  apply Alert.mk (sound_step positive alert.sound stepped)
  intro waiting unset
  cases label with
  | publish event =>
      rcases publish_cases stepped with ⟨_, rfl⟩ | ⟨_, _, rfl⟩ | ⟨_, _, rfl⟩
      · exact alert.asleep waiting unset
      · cases unset
      · cases unset
  | finish error =>
      cases stepped
      cases unset
  | resume =>
      rcases resume_cases stepped with ⟨_, rfl⟩ | ⟨_, rfl⟩
      · cases waiting
      · have quiet := quiet_of_waiting alert.sound waiting
        have ⟨_, _, _, cleared⟩ := loop_body_of_waiting waiting
        rw [cleared]
        exact ⟨quiet.empty, quiet.clean, quiet.unfinished, quiet.attached⟩
  | aclose =>
      cases stepped
      cases unset
  | abandon =>
      cases stepped
      cases waiting

theorem alert_run {conversationId : String} {labels : List Label} (positive : 1 ≤ maxEvents)
    (reached : machine.run (Stream.new conversationId maxEvents) labels = some final) :
    Alert maxEvents final :=
  machine.run_invariant (Alert maxEvents)
    (fun _ _ _ alert stepped => alert_step positive alert stepped)
    (alert_new conversationId positive) reached

/-- A sleeping consumer that something has come for can be resumed and does not go back to sleep. -/
theorem wakes_unless_quiet (alert : Alert maxEvents stream) (waiting : stream.consumer = .waiting)
    (due : ¬ Quiet stream.subscription) :
    ∃ next, step stream .resume = some next ∧ next.consumer ≠ .waiting := by
  have woken : stream.subscription.changed = true := by
    by_contra unset
    exact due (alert.asleep waiting (Bool.not_eq_true _ ▸ unset))
  have resumes : step stream .resume = some
      { subscription := stream.subscription.loopBody.1
        consumer := stream.subscription.loopBody.2.1
        delivered := stream.delivered ++ stream.subscription.loopBody.2.2.toList } := by
    simp [step, resume, waiting, woken]
  apply Exists.intro
  apply And.intro resumes
  intro again
  exact due (quiet_of_waiting alert.sound again)

end Stream

end AgentHarness.Runtime
