import AgentHarness.Runtime.StreamDelivery

/-!
# What any consumer receives

Now the queue may overflow and the consumer may close at any moment. What it has received is still a
prefix of what was published, and nothing follows the error event.
-/

namespace AgentHarness.Runtime

open AgentHarness.Library AgentHarness.Events

set_option autoImplicit false

namespace Stream

open EventSubscription

def Label.event : Label → Option AgentEvent
  | .publish event => some event
  | _ => none

/-- The events published so far. -/
def published (labels : List Label) : List AgentEvent := labels.filterMap Label.event

/-- The publication finds the queue of an attached subscription full. -/
def overflowsAt (stream : Stream) (label : Label) : Bool :=
  label.event.isSome && !stream.subscription.detached && stream.subscription.queue.full

/-- Some publication overflows the queue. -/
def overflows : Stream → List Label → Bool
  | _, [] => false
  | stream, label :: labels =>
      overflowsAt stream label || (step stream label).any fun next => overflows next labels

/-- What was received: events still being read, or all up to an error event. -/
inductive Received (conversationId : String) (sent : List AgentEvent) (stream : Stream) : Prop where
  | reading
      (part : stream.delivered ++ stream.subscription.queue.items <+: sent)
      (live : stream.consumer ≠ .failing)
  | failed (code : String) (taken : List AgentEvent)
      (slot : stream.subscription.error = some code) (raised : truthyText (some code) = true)
      (part : taken <+: sent)
      (received : stream.delivered = taken ++ [errorEvent conversationId code])
      (stopped : stream.consumer = .failing ∨ stream.consumer = .done)

/-- The state after the events `sent`, with the part `pending` of the producer's script to come. -/
structure Ordered (conversationId : String) (error : Option String) (sent : List AgentEvent)
    (pending : List Label) (overflowed : Prop) (stream : Stream) : Prop where
  conversation : stream.subscription.conversationId = conversationId
  closed : stream.subscription.detached = true → stream.subscription.queue.items = []
  tooSlow : overflowed →
    stream.subscription.error = some tooSlow ∧ stream.subscription.detached = true
  clean : ¬ overflowed → stream.subscription.error = if pending = [] then error else none
  whole : stream.subscription.detached = false → stream.consumer ≠ .failing →
    stream.delivered ++ stream.subscription.queue.items = sent
  received : Received conversationId sent stream

section Steps

variable {conversationId : String} {error : Option String} {sent : List AgentEvent}
  {pending : List Label} {overflowed : Prop} {stream next : Stream}

theorem ordered_new (events : List AgentEvent) (maxEvents : Int) :
    Ordered conversationId error [] (producerScript events error) False
      (Stream.new conversationId maxEvents) where
  conversation := rfl
  closed := fun _ => rfl
  tooSlow := False.elim
  clean := by
    intro _
    rw [if_neg (by simp [producerScript])]
    rfl
  whole := fun _ _ => rfl
  received := .reading (List.prefix_refl _) (by simp [Stream.new])

/-- A consumer that has seen the error event sees nothing more. -/
theorem stopped_run {labels : List Label} {final : Stream}
    (stopped : stream.consumer = .failing ∨ stream.consumer = .done)
    (reached : machine.run stream labels = some final) : final.delivered = stream.delivered := by
  have kept := machine.run_invariant
    (fun current => (current.consumer = .failing ∨ current.consumer = .done) ∧
      current.delivered = stream.delivered)
    (by
      rintro current label next ⟨stopped, same⟩ stepped
      cases label with
      | publish event =>
          rcases publish_cases stepped with ⟨_, rfl⟩ | ⟨_, _, rfl⟩ | ⟨_, _, rfl⟩ <;>
            exact ⟨stopped, same⟩
      | finish error =>
          cases stepped
          exact ⟨stopped, same⟩
      | aclose =>
          cases stepped
          exact ⟨stopped, same⟩
      | abandon =>
          cases stepped
          exact ⟨.inr rfl, same⟩
      | resume =>
          rcases resume_cases stepped with ⟨_, rfl⟩ | ⟨ready | ⟨waiting, _⟩, _⟩
          · exact ⟨.inr rfl, same⟩
          · rcases stopped with failing | done <;> simp_all [Consumer.AtLoop]
          · rcases stopped with failing | done <;> simp_all)
    ⟨stopped, rfl⟩ reached
  exact kept.2

/-- Closing drops the queue and leaves what was received. -/
theorem Received.aclose (received : Received conversationId sent stream) :
    Received conversationId sent { stream with subscription := stream.subscription.aclose } := by
  cases received with
  | reading part live =>
      refine .reading ?_ live
      simpa [EventSubscription.aclose, AsyncQueue.clear] using (List.prefix_append _ _).trans part
  | failed code taken slot raised part delivered stopped =>
      exact .failed code taken slot raised part delivered stopped

theorem Received.close (received : Received conversationId sent stream) :
    Received conversationId sent
      { stream with subscription := stream.subscription.aclose, consumer := .done } := by
  cases received.aclose with
  | reading part _ => exact .reading part (by simp)
  | failed code taken slot raised part delivered _ =>
      exact .failed code taken slot raised part delivered (.inr rfl)

theorem ordered_aclose (ordered : Ordered conversationId error sent pending overflowed stream) :
    Ordered conversationId error sent pending overflowed
      { stream with subscription := stream.subscription.aclose } where
  conversation := ordered.conversation
  closed := fun _ => rfl
  tooSlow := fun full => ⟨(ordered.tooSlow full).1, rfl⟩
  clean := ordered.clean
  whole := by
    intro attached
    cases attached
  received := ordered.received.aclose

/-- The generator runs its `finally`. -/
theorem ordered_close (ordered : Ordered conversationId error sent pending overflowed stream) :
    Ordered conversationId error sent pending overflowed
      { stream with subscription := stream.subscription.aclose, consumer := .done } where
  conversation := ordered.conversation
  closed := fun _ => rfl
  tooSlow := fun full => ⟨(ordered.tooSlow full).1, rfl⟩
  clean := ordered.clean
  whole := by
    intro attached
    cases attached
  received := ordered.received.close

theorem ordered_abandon (ordered : Ordered conversationId error sent pending overflowed stream) :
    Ordered conversationId error sent pending overflowed stream.abandon := by
  rcases stream.abandon_cases with ⟨outside, left⟩ | ⟨_, left⟩
  · rw [left]
    have live : stream.consumer ≠ .failing := by
      intro failing
      rw [failing] at outside
      cases outside
    refine
      { ordered with
        whole := fun attached _ => ordered.whole attached live
        received := ?_ }
    cases ordered.received with
    | reading part _ => exact .reading part (by simp)
    | failed code taken slot raised part delivered _ =>
        exact .failed code taken slot raised part delivered (.inr rfl)
  · rw [left]
    exact ordered_close ordered

theorem Received.more (received : Received conversationId sent stream) (later : List AgentEvent) :
    Received conversationId (sent ++ later) stream := by
  cases received with
  | reading part live => exact .reading (part.trans (List.prefix_append _ _)) live
  | failed code taken slot raised part delivered stopped =>
      exact .failed code taken slot raised (part.trans (List.prefix_append _ _)) delivered stopped

/-- Before `finish` an error can only come from an overflow, which also detaches. -/
theorem Ordered.reading_of_attached
    (ordered : Ordered conversationId error sent pending overflowed stream)
    (unfinished : pending ≠ []) (attached : stream.subscription.detached = false) :
    ¬ overflowed ∧ stream.consumer ≠ .failing ∧
      stream.delivered ++ stream.subscription.queue.items = sent := by
  have noOverflow : ¬ overflowed := by
    intro full
    rw [(ordered.tooSlow full).2] at attached
    cases attached
  have live : stream.consumer ≠ .failing := by
    intro failing
    cases ordered.received with
    | reading _ live => exact live failing
    | failed code taken slot _ _ _ _ =>
        rw [ordered.clean noOverflow, if_neg unfinished] at slot
        cases slot
  exact ⟨noOverflow, live, ordered.whole attached live⟩

theorem ordered_publish {event : AgentEvent} {rest : List Label}
    (ordered : Ordered conversationId error sent (.publish event :: rest) overflowed stream)
    (unfinished : rest ≠ []) (stepped : step stream (.publish event) = some next) :
    Ordered conversationId error (sent ++ [event]) rest
      (overflowed ∨ overflowsAt stream (.publish event) = true) next := by
  have clean : ¬ overflowed → stream.subscription.error = if rest = [] then error else none := by
    intro noOverflow
    rw [ordered.clean noOverflow, if_neg (List.cons_ne_nil _ _), if_neg unfinished]
  rcases publish_cases stepped with ⟨detached, rfl⟩ | ⟨attached, room, rfl⟩ |
    ⟨attached, full, rfl⟩
  · have here : overflowsAt next (.publish event) = false := by simp [overflowsAt, detached]
    simp only [here, Bool.false_eq_true, or_false]
    constructor
    · exact ordered.conversation
    · exact ordered.closed
    · exact ordered.tooSlow
    · exact clean
    · intro attached
      rw [detached] at attached
      cases attached
    · exact ordered.received.more [event]
  · obtain ⟨noOverflow, live, whole⟩ :=
      ordered.reading_of_attached (List.cons_ne_nil _ _) attached
    have all : stream.delivered ++ (stream.subscription.queue.items ++ [event]) =
        sent ++ [event] := by
      rw [← List.append_assoc, whole]
    constructor
    · exact ordered.conversation
    · intro detached
      rw [attached] at detached
      cases detached
    · simp [noOverflow, overflowsAt, room]
    · exact fun _ => clean noOverflow
    · exact fun _ _ => all
    · exact .reading ⟨[], by rw [List.append_nil, all]⟩ live
  · obtain ⟨noOverflow, live, whole⟩ :=
      ordered.reading_of_attached (List.cons_ne_nil _ _) attached
    have part : stream.delivered <+: sent ++ [event] :=
      ⟨stream.subscription.queue.items ++ [event], by rw [← List.append_assoc, whole]⟩
    constructor
    · exact ordered.conversation
    · exact fun _ => rfl
    · exact fun _ => ⟨rfl, rfl⟩
    · intro noOverflow
      exact absurd (.inr (by simp [overflowsAt, Label.event, attached, full])) noOverflow
    · intro detached
      cases detached
    · refine .reading ?_ live
      simpa [EventSubscription.aclose, AsyncQueue.clear] using part

theorem ordered_finish (ordered : Ordered conversationId error sent [.finish error] overflowed stream)
    (stepped : step stream (.finish error) = some next) :
    Ordered conversationId error sent [] overflowed next := by
  cases stepped
  -- an error slot that is already set is the one of the overflow
  have slot : ∀ code, truthyText (some code) = true → stream.subscription.error = some code →
      orElse stream.subscription.error error = some code := by
    intro code raised set
    rw [set, orElse, if_pos raised]
  constructor
  · exact ordered.conversation
  · exact ordered.closed
  · intro full
    obtain ⟨set, detached⟩ := ordered.tooSlow full
    exact ⟨slot _ (by decide) set, detached⟩
  · intro noOverflow
    have unset := ordered.clean noOverflow
    rw [if_neg (List.cons_ne_nil _ _)] at unset
    simp [finish, unset, orElse, truthyText]
  · exact ordered.whole
  · cases ordered.received with
    | reading part live => exact .reading part live
    | failed code taken set raised part delivered stopped =>
        exact .failed code taken (slot code raised set) raised part delivered stopped

theorem ordered_loop (ordered : Ordered conversationId error sent pending overflowed stream)
    (live : stream.consumer.AtLoop ∨ stream.consumer = .waiting) :
    Ordered conversationId error sent pending overflowed
      { subscription := stream.subscription.loopBody.1
        consumer := stream.subscription.loopBody.2.1
        delivered := stream.delivered ++ stream.subscription.loopBody.2.2.toList } := by
  have notFailing : stream.consumer ≠ .failing := by
    rcases live with (unstarted | looping) | waiting <;> simp [*]
  have part : stream.delivered ++ stream.subscription.queue.items <+: sent := by
    cases ordered.received with
    | reading part _ => exact part
    | failed _ _ _ _ _ _ stopped =>
        rcases stopped with failing | done <;>
          rcases live with (unstarted | looping) | waiting <;> simp_all
  rcases stream.subscription.loop_body_cases with ⟨code, slot, raised, body⟩ |
    ⟨_, event, rest, queued, body⟩ | ⟨_, _, _, body⟩ | ⟨_, _, _, _, body⟩
  · rw [body]
    constructor
    · exact ordered.conversation
    · exact ordered.closed
    · exact ordered.tooSlow
    · exact ordered.clean
    · exact fun _ notYet => absurd rfl notYet
    · rw [slot] at raised
      refine .failed code stream.delivered slot raised ((List.prefix_append _ _).trans part) ?_
        (.inl rfl)
      rw [ordered.conversation]
      rfl
  · rw [body]
    have shifted : stream.delivered ++ [event] ++ rest =
        stream.delivered ++ stream.subscription.queue.items := by
      rw [queued, List.append_assoc, List.singleton_append]
    constructor
    · exact ordered.conversation
    · intro detached
      have empty := ordered.closed detached
      rw [queued] at empty
      cases empty
    · exact ordered.tooSlow
    · exact ordered.clean
    · intro attached _
      exact shifted.trans (ordered.whole attached notFailing)
    · refine .reading ?_ (by simp)
      change stream.delivered ++ [event] ++ rest <+: sent
      rwa [shifted]
  · rw [body]
    simpa using ordered_close ordered
  · rw [body]
    constructor
    · exact ordered.conversation
    · exact ordered.closed
    · exact ordered.tooSlow
    · exact ordered.clean
    · intro attached _
      simpa using ordered.whole attached notFailing
    · refine .reading ?_ (by simp)
      simpa using part

theorem ordered_resume (ordered : Ordered conversationId error sent pending overflowed stream)
    (stepped : step stream .resume = some next) :
    Ordered conversationId error sent pending overflowed next := by
  rcases resume_cases stepped with ⟨_, rfl⟩ | ⟨live, rfl⟩
  · exact ordered_close ordered
  · exact ordered_loop ordered (live.imp_right And.left)

/-- The consumer's steps leave the producer's script where it is. -/
theorem ordered_consumer {label : Label}
    (ordered : Ordered conversationId error sent pending overflowed stream)
    (consumer : label.produced = false) (stepped : step stream label = some next) :
    Ordered conversationId error sent pending overflowed next := by
  cases label with
  | publish event => cases consumer
  | finish given => cases consumer
  | resume => exact ordered_resume ordered stepped
  | aclose =>
      cases stepped
      exact ordered_aclose ordered
  | abandon =>
      cases stepped
      exact ordered_abandon ordered

end Steps

/-! ## Runs -/

theorem event_of_consumer {label : Label} (consumer : label.produced = false) :
    label.event = none := by
  cases label with
  | publish event => cases consumer
  | finish given => rfl
  | resume => rfl
  | aclose => rfl
  | abandon => rfl

theorem published_cons (label : Label) (labels : List Label) :
    published (label :: labels) = label.event.toList ++ published labels := by
  unfold published
  rw [List.filterMap_cons]
  cases label.event <;> rfl

theorem overflows_cons {stream next : Stream} {label : Label} (labels : List Label)
    (stepped : step stream label = some next) :
    overflows stream (label :: labels) = (overflowsAt stream label || overflows next labels) := by
  rw [overflows, stepped, Option.any_some]

/-- The next label of a script: a publication, or `finish` as the last one. -/
theorem script_next {error : Option String} {pending later : List Label} {label : Label}
    (script : pending = [] ∨ ∃ events, pending = producerScript events error)
    (part : label :: later <+: pending) :
    (∃ event events, label = .publish event ∧ pending = label :: producerScript events error ∧
      later <+: producerScript events error) ∨
    (label = .finish error ∧ pending = [label] ∧ later = []) := by
  obtain ⟨tail, whole⟩ := part
  rw [List.cons_append] at whole
  rcases script with rfl | ⟨events, rfl⟩
  · cases whole
  cases events with
  | nil =>
      simp only [producerScript, List.map_nil, List.nil_append, List.cons.injEq,
        List.append_eq_nil_iff] at whole
      obtain ⟨rfl, rfl, _⟩ := whole
      exact .inr ⟨rfl, rfl, rfl⟩
  | cons event events =>
      simp only [producerScript, List.map_cons, List.cons_append, List.cons.injEq] at whole
      obtain ⟨rfl, rest⟩ := whole
      exact .inl ⟨event, events, rfl, rfl, tail, rest⟩

/-- Along every part of a schedule the consumer reads in order. -/
theorem ordered_run {conversationId : String} {error : Option String} {labels : List Label}
    {sent : List AgentEvent} {pending : List Label} {overflowed : Prop} {stream final : Stream}
    (ordered : Ordered conversationId error sent pending overflowed stream)
    (script : pending = [] ∨ ∃ events, pending = producerScript events error)
    (part : labels.filter Label.produced <+: pending)
    (reached : machine.run stream labels = some final) :
    ∃ later, pending = labels.filter Label.produced ++ later ∧
      Ordered conversationId error (sent ++ published labels) later
        (overflowed ∨ overflows stream labels = true) final := by
  induction labels generalizing sent pending overflowed stream with
  | nil =>
      cases reached
      exact ⟨pending, rfl, by simpa [published, overflows] using ordered⟩
  | cons label labels ih =>
      obtain ⟨next, stepped, rest⟩ := (machine.run_cons ..).1 reached
      have here := overflows_cons labels stepped
      cases produced : label.produced with
      | true =>
          rw [List.filter_cons_of_pos produced] at part ⊢
          rcases script_next script part with
            ⟨event, events, rfl, rfl, later⟩ | ⟨rfl, rfl, done⟩
          · have unfinished : producerScript events error ≠ [] := by simp [producerScript]
            obtain ⟨last, splits, final⟩ :=
              ih (ordered_publish ordered unfinished stepped) (.inr ⟨events, rfl⟩) later rest
            refine ⟨last, by rw [List.cons_append, ← splits], ?_⟩
            simpa [here, published_cons, Label.event, or_assoc, Bool.or_eq_true] using final
          · have nothing : labels.filter Label.produced <+: [] := ⟨[], by rw [done]; rfl⟩
            obtain ⟨last, splits, final⟩ :=
              ih (ordered_finish ordered stepped) (.inl rfl) nothing rest
            refine ⟨last, by rw [List.cons_append, ← splits], ?_⟩
            simpa [here, published_cons, overflowsAt, Label.event] using final
      | false =>
          rw [List.filter_cons_of_neg (by simp [produced])] at part ⊢
          have kept := ordered_consumer ordered produced stepped
          obtain ⟨last, splits, final⟩ := ih kept script part rest
          have silent := event_of_consumer produced
          exact ⟨last, splits, by simpa [here, published_cons, overflowsAt, silent] using final⟩

/-- A detached queue is empty, so it is never found full. -/
theorem closed_step {stream next : Stream} {label : Label}
    (closed : stream.subscription.detached = true → stream.subscription.queue.items = [])
    (stepped : step stream label = some next) :
    next.subscription.detached = true → next.subscription.queue.items = [] := by
  cases label with
  | publish event =>
      rcases publish_cases stepped with ⟨_, rfl⟩ | ⟨attached, _, rfl⟩ | ⟨_, _, rfl⟩
      · exact closed
      · intro detached
        rw [attached] at detached
        cases detached
      · exact fun _ => rfl
  | finish error =>
      cases stepped
      exact closed
  | aclose =>
      cases stepped
      exact fun _ => rfl
  | abandon =>
      cases stepped
      rcases stream.abandon_cases with ⟨_, left⟩ | ⟨_, left⟩
      · rw [left]
        exact closed
      · rw [left]
        exact fun _ => rfl
  | resume =>
      rcases resume_cases stepped with ⟨_, rfl⟩ | ⟨_, rfl⟩
      · exact fun _ => rfl
      rcases stream.subscription.loop_body_cases with ⟨_, _, _, body⟩ |
        ⟨_, event, rest, queued, body⟩ | ⟨_, _, _, body⟩ | ⟨_, _, _, _, body⟩
      · rw [body]
        exact closed
      · rw [body]
        intro detached
        have empty := closed detached
        rw [queued] at empty
        cases empty
      · rw [body]
        exact fun _ => rfl
      · rw [body]
        exact closed

theorem keeps_up_of_no_overflow {labels : List Label} {stream : Stream}
    (closed : stream.subscription.detached = true → stream.subscription.queue.items = [])
    (room : overflows stream labels = false) : KeepsUp stream labels := by
  induction labels generalizing stream with
  | nil => trivial
  | cons label labels ih =>
      intro next stepped
      have here := overflows_cons labels stepped
      rw [here, Bool.or_eq_false_iff] at room
      refine ⟨?_, ih (closed_step closed stepped) room.2⟩
      rintro event rfl
      cases full : stream.subscription.queue.full with
      | false => rfl
      | true =>
          cases detached : stream.subscription.detached with
          | false => simp [overflowsAt, Label.event, detached, full] at room
          | true =>
              simp only [AsyncQueue.full, closed detached, List.length_nil, Bool.and_eq_true,
                decide_eq_true_eq] at full
              omega

/-- Once the producer has finished without an error, every resumption brings the consumer closer to
its end. -/
theorem drain_run (stream : Stream) {items : List AgentEvent}
    (queued : stream.subscription.queue.items = items)
    (quiet : truthyText stream.subscription.error = false)
    (finished : stream.subscription.finished = true)
    (live : stream.consumer.AtLoop ∨
      stream.consumer = .waiting ∧ stream.subscription.changed = true) :
    ∃ last, machine.run stream (List.replicate (items.length + 1) .resume) = some last ∧
      last.consumer = .done ∧ last.delivered = stream.delivered ++ items := by
  have resumes : step stream .resume = some
      { subscription := stream.subscription.loopBody.1
        consumer := stream.subscription.loopBody.2.1
        delivered := stream.delivered ++ stream.subscription.loopBody.2.2.toList } := by
    rcases live with ready | ⟨waiting, woken⟩
    · exact resume_at_loop ready
    · simp [step, resume, waiting, woken]
  induction items generalizing stream with
  | nil =>
      have body : stream.subscription.loopBody = (stream.subscription.aclose, .done, none) := by
        simp [loopBody, quiet, AsyncQueue.getNowait, queued, finished]
      rw [body] at resumes
      exact ⟨_, (machine.run_cons ..).2 ⟨_, resumes, rfl⟩, rfl, rfl⟩
  | cons event rest ih =>
      have body : stream.subscription.loopBody =
          ({ stream.subscription with queue := { stream.subscription.queue with items := rest } },
            .looping, some event) := by
        simp [loopBody, quiet, AsyncQueue.getNowait, queued]
      rw [body] at resumes
      obtain ⟨last, later, done, delivered⟩ := ih
        { subscription := { stream.subscription with
            queue := { stream.subscription.queue with items := rest } }
          consumer := .looping
          delivered := stream.delivered ++ [event] }
        rfl quiet finished (.inl (.inr rfl)) rfl
      refine ⟨last, ?_, done, ?_⟩
      · rw [List.length_cons, List.replicate_succ]
        exact (machine.run_cons ..).2 ⟨_, resumes, later⟩
      · rw [delivered, List.append_assoc, List.singleton_append]

/-- Whenever the consumer is resumed or closed: it has received a prefix of the published events and
then at most one error event, which is the last it receives and which an overflow fixes. Without an
overflow, an error or an early close it receives all events and its iteration ends. -/
theorem ordered_delivery (conversationId : String) (maxEvents : Int) (events : List AgentEvent)
    (error : Option String) (labels : List Label) (final : Stream)
    (part : labels.filter Label.produced <+: producerScript events error)
    (reached : machine.run (Stream.new conversationId maxEvents) labels = some final) :
    (∃ taken ending, final.delivered = taken ++ ending ∧ taken <+: published labels ∧
      (ending = [] ∨ ∃ code, ending = [errorEvent conversationId code] ∧
        final.subscription.error = some code ∧
        ∀ later last, machine.run final later = some last → last.delivered = final.delivered)) ∧
    (overflows (Stream.new conversationId maxEvents) labels = true →
      final.subscription.error = some tooSlow) ∧
    (overflows (Stream.new conversationId maxEvents) labels = false →
      final.subscription.error = none ∨ final.subscription.error = error) ∧
    (labels.filter Label.produced = producerScript events error →
      (∀ label ∈ labels, label.attached = true) →
      overflows (Stream.new conversationId maxEvents) labels = false → truthyText error = false →
      ∃ count last, count ≤ final.subscription.queue.items.length + 1 ∧
        machine.run final (List.replicate count .resume) = some last ∧
        last.consumer = .done ∧ last.delivered = events) := by
  obtain ⟨later, splits, ordered⟩ := ordered_run (ordered_new events maxEvents)
    (.inr ⟨events, rfl⟩) part reached
  rw [List.nil_append, false_or] at ordered
  refine ⟨?_, fun full => (ordered.tooSlow full).1, ?_, ?_⟩
  · cases ordered.received with
    | reading prefixed _ =>
        refine ⟨final.delivered, [], ?_, ?_, .inl rfl⟩
        · rw [List.append_nil]
        · exact (List.prefix_append _ _).trans prefixed
    | failed code taken slot _ prefixed received stopped =>
        refine ⟨taken, [errorEvent conversationId code], received, prefixed, .inr ?_⟩
        exact ⟨code, rfl, slot, fun later last => stopped_run stopped⟩
  · intro noOverflow
    rw [ordered.clean (by simp [noOverflow])]
    split
    · exact .inr rfl
    · exact .inl rfl
  · intro whole attached noOverflow quiet
    have closed : (Stream.new conversationId maxEvents).subscription.detached = true →
        (Stream.new conversationId maxEvents).subscription.queue.items = [] := fun _ => rfl
    have closing := flowing_run (flowing_new conversationId maxEvents) whole attached
      (keeps_up_of_no_overflow closed noOverflow) reached
    cases closing with
    | reading _ finished slot received live =>
        obtain ⟨last, drained, done, delivered⟩ := drain_run final rfl
          (by rw [slot, quiet]) finished live
        exact ⟨_, last, Nat.le_refl _, drained, done, delivered.trans received⟩
    | failed _ _ _ raised _ _ _ =>
        rw [quiet] at raised
        cases raised
    | drained _ received stopped =>
        exact ⟨0, final, Nat.zero_le _, rfl, stopped, received⟩

namespace Recorded

def delta (text : String) : AgentEvent := ⟨"message.delta", "c-1", [("delta", .str text)]⟩

/-- Two events come while there is room for one; `finish` reports another error. -/
def overflowing : List Label :=
  [.publish (delta "a"), .resume, .resume, .publish (delta "b"), .publish (delta "c"),
    .finish (some "EXECUTION_FAILED"), .resume, .resume]

end Recorded

theorem ordered_delivery_overflowing :
    ∃ final, machine.run (Stream.new "c-1" 1) Recorded.overflowing = some final ∧
      final.delivered = [Recorded.delta "a", errorEvent "c-1" tooSlow] ∧
      final.subscription.error = some tooSlow := by
  have reached : (machine.run (Stream.new "c-1" 1) Recorded.overflowing).isSome := by decide
  obtain ⟨final, run⟩ := Option.isSome_iff_exists.mp reached
  have delivered : (machine.run (Stream.new "c-1" 1) Recorded.overflowing).map Stream.delivered =
      some [Recorded.delta "a", errorEvent "c-1" tooSlow] := by decide
  have full : overflows (Stream.new "c-1" 1) Recorded.overflowing = true := by decide
  have facts := ordered_delivery "c-1" 1
    [Recorded.delta "a", Recorded.delta "b", Recorded.delta "c"] (some "EXECUTION_FAILED")
    Recorded.overflowing final ⟨[], by decide⟩ run
  rw [run] at delivered
  exact ⟨final, run, Option.some.inj delivered, facts.2.1 full⟩

end Stream

end AgentHarness.Runtime
