import AgentHarness.Events.Models
import AgentHarness.Library.AsyncQueue
import AgentHarness.Library.Machine

/-!
# The bounded event subscriber

`EventSubscription` as one event loop runs it: every method body between two suspension points
is one step. The generator `events()` is suspended at a `yield` or on the `changed` signal, and
one resumption runs its loop up to the next suspension.
-/

namespace AgentHarness.Runtime

open AgentHarness.Library AgentHarness.Events

set_option autoImplicit false

/-- Python truthiness of an optional text: `None` and the empty text are false. -/
def truthyText : Option String → Bool
  | none => false
  | some text => text != ""

def orElse (left right : Option String) : Option String :=
  if truthyText left then left else right

def tooSlow : String := "STREAM_CONSUMER_TOO_SLOW"

structure EventSubscription where
  conversationId : String
  queue : AsyncQueue AgentEvent
  changed : Bool
  detached : Bool
  finished : Bool
  error : Option String
  deriving DecidableEq, Repr

namespace EventSubscription

def new (conversationId : String) (maxEvents : Int) : EventSubscription where
  conversationId := conversationId
  queue := { maxsize := maxEvents, items := [] }
  changed := false
  detached := false
  finished := false
  error := none

def aclose (subscription : EventSubscription) : EventSubscription :=
  { subscription with detached := true, queue := subscription.queue.clear, changed := true }

/-- The handler covers `QueueFull` only; any other fault would leave `publish`. -/
def publish (subscription : EventSubscription) (event : AgentEvent) :
    Except QueueFault EventSubscription :=
  if subscription.detached then .ok subscription
  else
    match subscription.queue.putNowait event with
    | .ok queue => .ok { subscription with queue := queue, changed := true }
    | .error .full => .ok { subscription with error := some tooSlow }.aclose
    | .error .empty => .error .empty

def finish (subscription : EventSubscription) (error : Option String) : EventSubscription :=
  { subscription with
    finished := true
    error := orElse subscription.error error
    changed := true }

def errorEvent (conversationId code : String) : AgentEvent where
  type := "error"
  conversationId := conversationId
  data := [("code", .str code)]

/-- Where the generator `events()` stands: created and not yet resumed, suspended at the `yield` of
a queued event, at the `yield` of the error event or on `changed.wait()`, or closed. -/
inductive Consumer where
  | unstarted
  | looping
  | failing
  | waiting
  | done
  deriving DecidableEq, Repr

namespace Consumer

/-- Suspended inside the `try`: only then does closing the generator run its `finally`. -/
def entered : Consumer → Bool
  | unstarted | done => false
  | looping | failing | waiting => true

/-- The next resumption runs the loop and waits for nothing. -/
def AtLoop (consumer : Consumer) : Prop := consumer = unstarted ∨ consumer = looping

end Consumer

/-- One pass of the `while` body: what it yields and where the generator stops next. -/
def loopBody (subscription : EventSubscription) :
    EventSubscription × Consumer × Option AgentEvent :=
  if truthyText subscription.error then
    (subscription, .failing,
      some (errorEvent subscription.conversationId (subscription.error.getD "")))
  else
    match subscription.queue.getNowait with
    | .ok (event, queue) => ({ subscription with queue := queue }, .looping, some event)
    | .error _ =>
        if subscription.finished || subscription.detached then
          (subscription.aclose, .done, none)
        else ({ subscription with changed := false }, .waiting, none)

/-- One resumption of the generator, or `none` while it cannot be resumed. -/
def resume (subscription : EventSubscription) :
    Consumer → Option (EventSubscription × Consumer × Option AgentEvent)
  | .unstarted | .looping => some subscription.loopBody
  | .failing => some (subscription.aclose, .done, none)
  | .waiting => if subscription.changed then some subscription.loopBody else none
  | .done => none

end EventSubscription

/-- A subscription with its one consumer and the events that consumer has received. -/
structure Stream where
  subscription : EventSubscription
  consumer : EventSubscription.Consumer
  delivered : List AgentEvent
  deriving DecidableEq, Repr

namespace Stream

open EventSubscription

def new (conversationId : String) (maxEvents : Int) : Stream where
  subscription := .new conversationId maxEvents
  consumer := .unstarted
  delivered := []

inductive Label where
  | publish (event : AgentEvent)
  | finish (error : Option String)
  | resume
  /-- `subscription.aclose()` called beside the generator. -/
  | aclose
  /-- The generator is closed, or its task cancelled, where it stands. -/
  | abandon
  deriving DecidableEq, Repr

def abandon (stream : Stream) : Stream :=
  { stream with
    subscription :=
      if stream.consumer.entered then stream.subscription.aclose else stream.subscription
    consumer := .done }

def step (stream : Stream) : Label → Option Stream
  | .publish event =>
      match stream.subscription.publish event with
      | .ok subscription => some { stream with subscription := subscription }
      | .error _ => none
  | .finish error => some { stream with subscription := stream.subscription.finish error }
  | .resume =>
      (stream.subscription.resume stream.consumer).map fun (subscription, consumer, event) =>
        { subscription := subscription
          consumer := consumer
          delivered := stream.delivered ++ event.toList }
  | .aclose => some { stream with subscription := stream.subscription.aclose }
  | .abandon => some stream.abandon

def machine : Machine Stream Label where
  step := step

end Stream

namespace EventSubscription

/-- Publishing neither waits nor raises, whatever state the subscription is in. -/
theorem publish_never_raises (subscription : EventSubscription) (event : AgentEvent) :
    ∃ next, subscription.publish event = .ok next := by
  unfold publish
  by_cases detached : subscription.detached = true
  · exact ⟨subscription, by simp [detached]⟩
  · rcases subscription.queue.put_nowait_cases event with ⟨_, put⟩ | ⟨_, put⟩ <;>
      simp [detached, put]

theorem publish_room (subscription : EventSubscription) (event : AgentEvent)
    (attached : subscription.detached = false) (room : subscription.queue.full = false) :
    subscription.publish event = .ok
      { subscription with
        queue := { subscription.queue with items := subscription.queue.items ++ [event] }
        changed := true } := by
  simp [publish, attached, AsyncQueue.putNowait, room]

/-- What one pass of the loop does: fail, hand out an event, stop, or wait. -/
theorem loop_body_cases (subscription : EventSubscription) :
    (∃ code, subscription.error = some code ∧ truthyText subscription.error = true ∧
      subscription.loopBody =
        (subscription, .failing, some (errorEvent subscription.conversationId code))) ∨
    (truthyText subscription.error = false ∧ ∃ event rest,
      subscription.queue.items = event :: rest ∧
      subscription.loopBody =
        ({ subscription with queue := { subscription.queue with items := rest } }, .looping,
          some event)) ∨
    (truthyText subscription.error = false ∧ subscription.queue.items = [] ∧
      (subscription.finished = true ∨ subscription.detached = true) ∧
      subscription.loopBody = (subscription.aclose, .done, none)) ∨
    (truthyText subscription.error = false ∧ subscription.queue.items = [] ∧
      subscription.finished = false ∧ subscription.detached = false ∧
      subscription.loopBody = ({ subscription with changed := false }, .waiting, none)) := by
  cases raised : truthyText subscription.error with
  | true =>
      cases slot : subscription.error with
      | none => simp [slot, truthyText] at raised
      | some code => exact .inl ⟨code, rfl, rfl, by rw [loopBody, if_pos raised, slot]; rfl⟩
  | false =>
      right
      cases queued : subscription.queue.items with
      | cons event rest =>
          exact .inl ⟨rfl, event, rest, rfl, by simp [loopBody, raised, AsyncQueue.getNowait, queued]⟩
      | nil =>
          right
          cases finished : subscription.finished with
          | true =>
              exact .inl ⟨rfl, rfl, .inl rfl,
                by simp [loopBody, raised, AsyncQueue.getNowait, queued, finished]⟩
          | false =>
              cases detached : subscription.detached with
              | true =>
                  exact .inl ⟨rfl, rfl, .inr rfl,
                    by simp [loopBody, raised, AsyncQueue.getNowait, queued, finished, detached]⟩
              | false =>
                  exact .inr ⟨rfl, rfl, rfl, rfl,
                    by simp [loopBody, raised, AsyncQueue.getNowait, queued, finished, detached]⟩

end EventSubscription

namespace Stream

variable {stream next : Stream}

/-- A publication is ignored, is queued, or overflows the queue. -/
theorem publish_cases {event : AgentEvent} (published : step stream (.publish event) = some next) :
    (stream.subscription.detached = true ∧ next = stream) ∨
    (stream.subscription.detached = false ∧ stream.subscription.queue.full = false ∧
      next = { stream with
        subscription := { stream.subscription with
          queue := { stream.subscription.queue with
            items := stream.subscription.queue.items ++ [event] }
          changed := true } }) ∨
    (stream.subscription.detached = false ∧ stream.subscription.queue.full = true ∧
      next = { stream with
        subscription := { stream.subscription with error := some tooSlow }.aclose }) := by
  cases detached : stream.subscription.detached with
  | true =>
      simp only [step, EventSubscription.publish, detached, if_true, Option.some.injEq] at published
      exact .inl ⟨rfl, published.symm⟩
  | false =>
      right
      rcases stream.subscription.queue.put_nowait_cases event with ⟨full, put⟩ | ⟨room, put⟩
      · exact .inr ⟨rfl, full,
          by simpa [step, EventSubscription.publish, detached, put, eq_comm] using published⟩
      · exact .inl ⟨rfl, room,
          by simpa [step, EventSubscription.publish, detached, put, eq_comm] using published⟩

theorem resume_at_loop (ready : stream.consumer.AtLoop) :
    step stream .resume = some
      { subscription := stream.subscription.loopBody.1
        consumer := stream.subscription.loopBody.2.1
        delivered := stream.delivered ++ stream.subscription.loopBody.2.2.toList } := by
  rcases ready with unstarted | looping
  · simp [step, EventSubscription.resume, unstarted]
  · simp [step, EventSubscription.resume, looping]

/-- A generator closed early leaves its subscription alone, or detaches it on the way out. -/
theorem abandon_cases (stream : Stream) :
    (stream.consumer.entered = false ∧ stream.abandon = { stream with consumer := .done }) ∨
    (stream.consumer.entered = true ∧ stream.abandon =
      { stream with subscription := stream.subscription.aclose, consumer := .done }) := by
  cases entered : stream.consumer.entered with
  | false => exact .inl ⟨rfl, by simp [abandon, entered]⟩
  | true => exact .inr ⟨rfl, by simp [abandon, entered]⟩

/-- A resumption closes a generator that has failed, or runs the loop once. -/
theorem resume_cases (resumed : step stream .resume = some next) :
    (stream.consumer = .failing ∧
      next = { stream with subscription := stream.subscription.aclose, consumer := .done }) ∨
    ((stream.consumer.AtLoop ∨
        stream.consumer = .waiting ∧ stream.subscription.changed = true) ∧
      next = { subscription := stream.subscription.loopBody.1
               consumer := stream.subscription.loopBody.2.1
               delivered := stream.delivered ++ stream.subscription.loopBody.2.2.toList }) := by
  cases consumer : stream.consumer with
  | unstarted =>
      exact .inr ⟨.inl (.inl rfl),
        by simpa [step, EventSubscription.resume, consumer, eq_comm] using resumed⟩
  | looping =>
      exact .inr ⟨.inl (.inr rfl),
        by simpa [step, EventSubscription.resume, consumer, eq_comm] using resumed⟩
  | failing =>
      exact .inl ⟨rfl, by simpa [step, EventSubscription.resume, consumer, eq_comm] using resumed⟩
  | waiting =>
      cases changed : stream.subscription.changed with
      | true =>
          exact .inr ⟨.inr ⟨rfl, rfl⟩,
            by simpa [step, EventSubscription.resume, consumer, changed, eq_comm] using resumed⟩
      | false => simp [step, EventSubscription.resume, consumer, changed] at resumed
  | done => simp [step, EventSubscription.resume, consumer] at resumed

end Stream

end AgentHarness.Runtime
