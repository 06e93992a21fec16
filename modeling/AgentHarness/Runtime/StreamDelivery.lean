import AgentHarness.Runtime.EventSubscription

/-!
# What an attached consumer receives

One producer publishes a list of events and finishes; one consumer only resumes its generator.
While nothing has overflowed, received and queued events together are the published ones. After
`finish` the queue is still there, but the loop looks at the error slot first.
-/

namespace AgentHarness.Runtime

open AgentHarness.Library AgentHarness.Events

set_option autoImplicit false

namespace Stream

open EventSubscription

def Label.produced : Label → Bool
  | .publish _ => true
  | .finish _ => true
  | _ => false

def Label.attached : Label → Bool
  | .aclose => false
  | .abandon => false
  | _ => true

def producerScript (events : List AgentEvent) (error : Option String) : List Label :=
  events.map .publish ++ [.finish error]

/-- An interleaving of the producer's script with a consumer that never closes early. -/
structure Schedule (events : List AgentEvent) (error : Option String) (labels : List Label) :
    Prop where
  script : labels.filter Label.produced = producerScript events error
  attached : ∀ label ∈ labels, label.attached = true

/-- A run nothing can extend: the script is over and the consumer cannot be resumed. -/
def Settles (conversationId : String) (maxEvents : Int) (labels : List Label)
    (final : Stream) : Prop :=
  machine.run (Stream.new conversationId maxEvents) labels = some final ∧
    step final .resume = none

/-- No publication finds the queue full. -/
def KeepsUp (start : Stream) (labels : List Label) : Prop :=
  machine.EachStep
    (fun stream label _ => ∀ event, label = .publish event →
      stream.subscription.queue.full = false) start labels

def terminalEvents (conversationId : String) : Option String → List AgentEvent
  | none => []
  | some code => [errorEvent conversationId code]

/-- Every schedule delivers all published events in order, then one error event exactly when
`finish` was given an error. -/
def ScheduleIndependent (conversationId : String) (maxEvents : Int) (events : List AgentEvent)
    (error : Option String) : Prop :=
  ∀ left right leftFinal rightFinal,
    Schedule events error left → Schedule events error right →
    Settles conversationId maxEvents left leftFinal →
    Settles conversationId maxEvents right rightFinal →
    leftFinal.delivered = rightFinal.delivered ∧
      leftFinal.delivered = events ++ terminalEvents conversationId error

/-- Before `finish`, with no overflow: nothing is lost and a sleeping consumer has nothing to
read. -/
structure Flowing (conversationId : String) (maxEvents : Int) (sent : List AgentEvent)
    (stream : Stream) : Prop where
  conversation : stream.subscription.conversationId = conversationId
  capacity : stream.subscription.queue.maxsize = maxEvents
  open_ : stream.subscription.detached = false
  unfinished : stream.subscription.finished = false
  clean : stream.subscription.error = none
  whole : stream.delivered ++ stream.subscription.queue.items = sent
  live : stream.consumer.AtLoop ∨ stream.consumer = .waiting
  asleep : stream.consumer = .waiting → stream.subscription.changed = false →
    stream.subscription.queue.items = []

/-- After `finish error`: the consumer is still reading, has yielded the error event, or has
stopped. -/
inductive Closing (conversationId : String) (sent : List AgentEvent) (error : Option String)
    (stream : Stream) : Prop where
  | reading
      (conversation : stream.subscription.conversationId = conversationId)
      (finished : stream.subscription.finished = true)
      (slot : stream.subscription.error = error)
      (whole : stream.delivered ++ stream.subscription.queue.items = sent)
      (live : stream.consumer.AtLoop ∨
        stream.consumer = .waiting ∧ stream.subscription.changed = true)
  | failed (code : String) (taken : List AgentEvent)
      (slot : error = some code) (raised : truthyText error = true)
      (part : taken <+: sent)
      (received : stream.delivered = taken ++ [errorEvent conversationId code])
      (stopped : stream.consumer = .failing ∨ stream.consumer = .done)
  | drained
      (quiet : truthyText error = false)
      (received : stream.delivered = sent)
      (stopped : stream.consumer = .done)

theorem flowing_new (conversationId : String) (maxEvents : Int) :
    Flowing conversationId maxEvents [] (Stream.new conversationId maxEvents) where
  conversation := rfl
  capacity := rfl
  open_ := rfl
  unfinished := rfl
  clean := rfl
  whole := rfl
  live := .inl (.inl rfl)
  asleep := by intro _ _; rfl

theorem flowing_publish {conversationId : String} {maxEvents : Int} {sent : List AgentEvent}
    {stream : Stream} (flowing : Flowing conversationId maxEvents sent stream)
    (event : AgentEvent) (room : stream.subscription.queue.full = false) :
    ∃ next, step stream (.publish event) = some next ∧
      next.consumer = stream.consumer ∧ next.delivered = stream.delivered ∧
      Flowing conversationId maxEvents (sent ++ [event]) next := by
  have put := publish_room stream.subscription event flowing.open_ room
  refine ⟨{ stream with
    subscription := { stream.subscription with
      queue := { stream.subscription.queue with items := stream.subscription.queue.items ++ [event] }
      changed := true } }, by simp only [step, put], rfl, rfl, ?_⟩
  exact
    { conversation := flowing.conversation
      capacity := flowing.capacity
      open_ := flowing.open_
      unfinished := flowing.unfinished
      clean := flowing.clean
      whole := by simp only [← List.append_assoc, flowing.whole]
      live := flowing.live
      asleep := by intro _ unset; cases unset }

theorem flowing_loop {conversationId : String} {maxEvents : Int} {sent : List AgentEvent}
    {stream : Stream} (flowing : Flowing conversationId maxEvents sent stream) :
    Flowing conversationId maxEvents sent
      { subscription := stream.subscription.loopBody.1
        consumer := stream.subscription.loopBody.2.1
        delivered := stream.delivered ++ stream.subscription.loopBody.2.2.toList } := by
  have quiet : truthyText stream.subscription.error = false := by rw [flowing.clean]; rfl
  have whole := flowing.whole
  cases queued : stream.subscription.queue.items with
  | nil =>
      have body : stream.subscription.loopBody =
          ({ stream.subscription with changed := false }, .waiting, none) := by
        simp [loopBody, quiet, AsyncQueue.getNowait, queued, flowing.unfinished, flowing.open_]
      rw [queued, List.append_nil] at whole
      rw [body]
      exact
        { conversation := flowing.conversation
          capacity := flowing.capacity
          open_ := flowing.open_
          unfinished := flowing.unfinished
          clean := flowing.clean
          whole := by simp [queued, whole]
          live := .inr rfl
          asleep := by intro _ _; exact queued }
  | cons event rest =>
      have body : stream.subscription.loopBody =
          ({ stream.subscription with
              queue := { stream.subscription.queue with items := rest } }, .looping,
            some event) := by
        simp [loopBody, quiet, AsyncQueue.getNowait, queued]
      rw [queued] at whole
      rw [body]
      exact
        { conversation := flowing.conversation
          capacity := flowing.capacity
          open_ := flowing.open_
          unfinished := flowing.unfinished
          clean := flowing.clean
          whole := by simpa using whole
          live := .inl (.inr rfl)
          asleep := by intro asleep; cases asleep }

theorem flowing_resume {conversationId : String} {maxEvents : Int} {sent : List AgentEvent}
    {stream next : Stream} (flowing : Flowing conversationId maxEvents sent stream)
    (resumed : step stream .resume = some next) :
    Flowing conversationId maxEvents sent next := by
  have looped := flowing_loop flowing
  rcases flowing.live with ready | waiting
  · rw [resume_at_loop ready, Option.some.injEq] at resumed
    rw [← resumed]
    exact looped
  · simp only [step, resume, waiting] at resumed
    split_ifs at resumed with woken
    · simp only [Option.map_some, Option.some.injEq] at resumed
      rw [← resumed]
      exact looped
    · cases resumed

theorem closing_finish {conversationId : String} {maxEvents : Int} {sent : List AgentEvent}
    {stream next : Stream} {error : Option String}
    (flowing : Flowing conversationId maxEvents sent stream)
    (finished : step stream (.finish error) = some next) :
    Closing conversationId sent error next := by
  simp only [step, Option.some.injEq] at finished
  rw [← finished]
  refine .reading flowing.conversation rfl ?_ flowing.whole ?_
  · simp [finish, orElse, flowing.clean, truthyText]
  · rcases flowing.live with ready | waiting
    · exact .inl ready
    · exact .inr ⟨waiting, rfl⟩

theorem closing_loop {conversationId : String} {sent : List AgentEvent} {stream : Stream}
    {error : Option String}
    (conversation : stream.subscription.conversationId = conversationId)
    (finished : stream.subscription.finished = true)
    (slot : stream.subscription.error = error)
    (whole : stream.delivered ++ stream.subscription.queue.items = sent) :
    Closing conversationId sent error
      { subscription := stream.subscription.loopBody.1
        consumer := stream.subscription.loopBody.2.1
        delivered := stream.delivered ++ stream.subscription.loopBody.2.2.toList } := by
  cases raised : truthyText error with
  | true =>
      obtain ⟨code, error_eq⟩ : ∃ code, error = some code := by
        cases error with
        | none => cases raised
        | some code => exact ⟨code, rfl⟩
      subst error_eq
      have body : stream.subscription.loopBody =
          (stream.subscription, .failing, some (errorEvent conversationId code)) := by
        simp [loopBody, slot, raised, conversation]
      rw [body]
      exact .failed code stream.delivered rfl raised
        ⟨stream.subscription.queue.items, whole⟩ rfl (.inl rfl)
  | false =>
      cases queued : stream.subscription.queue.items with
      | nil =>
          have body : stream.subscription.loopBody =
              (stream.subscription.aclose, .done, none) := by
            simp [loopBody, slot, raised, AsyncQueue.getNowait, queued, finished]
          rw [queued, List.append_nil] at whole
          rw [body]
          exact .drained raised (by simpa using whole) rfl
      | cons event rest =>
          have body : stream.subscription.loopBody =
              ({ stream.subscription with
                  queue := { stream.subscription.queue with items := rest } }, .looping,
                some event) := by
            simp [loopBody, slot, raised, AsyncQueue.getNowait, queued]
          rw [queued] at whole
          rw [body]
          exact .reading conversation finished slot (by simpa using whole) (.inl (.inr rfl))

theorem closing_resume {conversationId : String} {sent : List AgentEvent}
    {stream next : Stream} {error : Option String}
    (closing : Closing conversationId sent error stream)
    (resumed : step stream .resume = some next) :
    Closing conversationId sent error next := by
  cases closing with
  | reading conversation finished slot whole live =>
      have looped := closing_loop conversation finished slot whole
      rcases live with ready | ⟨waiting, woken⟩
      · rw [resume_at_loop ready, Option.some.injEq] at resumed
        rw [← resumed]
        exact looped
      · simp only [step, resume, waiting, woken, if_true, Option.map_some,
          Option.some.injEq] at resumed
        rw [← resumed]
        exact looped
  | failed code taken slot raised part received stopped =>
      rcases stopped with failing | done
      · simp only [step, resume, failing, Option.map_some, Option.some.injEq] at resumed
        rw [← resumed]
        exact .failed code taken slot raised part (by simpa using received) (.inr rfl)
      · simp [step, resume, done] at resumed
  | drained quiet received stopped => simp [step, resume, stopped] at resumed

/-- A consumer that cannot be resumed after `finish` has stopped: no wake-up was lost. -/
theorem closing_settled {conversationId : String} {sent : List AgentEvent} {stream : Stream}
    {error : Option String} (closing : Closing conversationId sent error stream)
    (settled : step stream .resume = none) :
    (truthyText error = false ∧ stream.delivered = sent) ∨
      ∃ code taken, error = some code ∧ truthyText error = true ∧ taken <+: sent ∧
        stream.delivered = taken ++ [errorEvent conversationId code] := by
  cases closing with
  | reading conversation finished slot whole live =>
      rcases live with ready | ⟨waiting, woken⟩
      · rw [resume_at_loop ready] at settled
        cases settled
      · simp [step, resume, waiting, woken] at settled
  | failed code taken slot raised part received stopped =>
      exact .inr ⟨code, taken, slot, raised, part, received⟩
  | drained quiet received stopped => exact .inl ⟨quiet, received⟩

theorem attached_not_produced {label : Label} (attached : label.attached = true)
    (consumer : label.produced = false) : label = .resume := by
  cases label <;> simp_all [Label.attached, Label.produced]

theorem keeps_up_of_no_publish {labels : List Label}
    (silent : ∀ label ∈ labels, ∀ event, label ≠ .publish event) (stream : Stream) :
    KeepsUp stream labels := by
  induction labels generalizing stream with
  | nil => trivial
  | cons label labels ih =>
      intro next _
      refine ⟨fun event publishes => ?_, ih (fun label member => silent label (by simp [member])) next⟩
      exact absurd publishes (silent label (by simp) event)

theorem no_publish_of_script_over {labels : List Label}
    (script : labels.filter Label.produced = []) :
    ∀ label ∈ labels, ∀ event, label ≠ .publish event := by
  rintro label member event rfl
  exact List.filter_eq_nil_iff.mp script _ member rfl

theorem closing_run {conversationId : String} {sent : List AgentEvent} {error : Option String}
    {labels : List Label} {stream final : Stream}
    (closing : Closing conversationId sent error stream)
    (script : labels.filter Label.produced = [])
    (attached : ∀ label ∈ labels, label.attached = true)
    (reached : machine.run stream labels = some final) :
    Closing conversationId sent error final := by
  induction labels generalizing stream with
  | nil =>
      cases reached
      exact closing
  | cons label labels ih =>
      obtain ⟨next, first, rest⟩ := (machine.run_cons ..).1 reached
      have consumer : label.produced = false := by
        cases produced : label.produced with
        | false => rfl
        | true => simp [produced] at script
      have resumes := attached_not_produced (attached label (by simp)) consumer
      subst resumes
      exact ih (closing_resume closing first)
        (by simpa [List.filter_cons, Label.produced] using script)
        (fun label member => attached label (by simp [member])) rest

/-- The next label of a schedule: a resumption, `finish` as the last of the producer's labels, or a
publication. -/
theorem schedule_next {label : Label} {labels : List Label} {rest : List AgentEvent}
    {error : Option String} (attached : label.attached = true)
    (script : (label :: labels).filter Label.produced = producerScript rest error) :
    (label = .resume ∧ labels.filter Label.produced = producerScript rest error) ∨
    (label = .finish error ∧ rest = [] ∧ labels.filter Label.produced = []) ∨
    ∃ event later, label = .publish event ∧ rest = event :: later ∧
      labels.filter Label.produced = producerScript later error := by
  cases produced : label.produced with
  | false =>
      have resumes := attached_not_produced attached produced
      subst resumes
      exact .inl ⟨rfl, by simpa [List.filter_cons, Label.produced] using script⟩
  | true =>
      rw [List.filter_cons, if_pos produced] at script
      cases rest with
      | nil =>
          simp only [producerScript, List.map_nil, List.nil_append, List.cons.injEq] at script
          exact .inr (.inl ⟨script.1, rfl, script.2⟩)
      | cons event later =>
          simp only [producerScript, List.map_cons, List.cons_append, List.cons.injEq] at script
          exact .inr (.inr ⟨event, later, script.1, rfl, script.2⟩)

theorem flowing_publish_next {conversationId : String} {maxEvents : Int} {sent : List AgentEvent}
    {stream next : Stream} {event : AgentEvent}
    (flowing : Flowing conversationId maxEvents sent stream)
    (room : stream.subscription.queue.full = false)
    (stepped : step stream (.publish event) = some next) :
    Flowing conversationId maxEvents (sent ++ [event]) next := by
  obtain ⟨published, publishes, _, _, flowingNext⟩ := flowing_publish flowing event room
  have same : published = next := Option.some.inj (publishes.symm.trans stepped)
  rwa [same] at flowingNext

/-- Along any schedule the consumer can keep up with, everything sent before `finish` is received
or still queued when the script ends. -/
theorem flowing_run {conversationId : String} {maxEvents : Int} {sent rest : List AgentEvent}
    {error : Option String} {labels : List Label} {stream final : Stream}
    (flowing : Flowing conversationId maxEvents sent stream)
    (script : labels.filter Label.produced = producerScript rest error)
    (attached : ∀ label ∈ labels, label.attached = true)
    (keepsUp : KeepsUp stream labels)
    (reached : machine.run stream labels = some final) :
    Closing conversationId (sent ++ rest) error final := by
  induction labels generalizing stream sent rest with
  | nil => cases rest <;> simp [producerScript] at script
  | cons label labels ih =>
      obtain ⟨next, first, later⟩ := (machine.run_cons ..).1 reached
      obtain ⟨room, keepsUpLater⟩ := keepsUp next first
      have attachedLater : ∀ label ∈ labels, label.attached = true :=
        fun label member => attached label (by simp [member])
      rcases schedule_next (attached label (by simp)) script with
        ⟨rfl, ahead⟩ | ⟨rfl, rfl, ahead⟩ | ⟨event, events, rfl, rfl, ahead⟩
      · exact ih (flowing_resume flowing first) ahead attachedLater keepsUpLater later
      · rw [List.append_nil]
        exact closing_run (closing_finish flowing first) ahead attachedLater later
      · have flowingNext := flowing_publish_next flowing (room event rfl) first
        have joined := ih flowingNext ahead attachedLater keepsUpLater later
        simpa using joined

/-- A subscription at least as large as the whole script never overflows. -/
theorem keeps_up_of_length_le {conversationId : String} {maxEvents : Int}
    {sent rest : List AgentEvent} {error : Option String} {labels : List Label} {stream : Stream}
    (flowing : Flowing conversationId maxEvents sent stream)
    (script : labels.filter Label.produced = producerScript rest error)
    (attached : ∀ label ∈ labels, label.attached = true)
    (bound : ((sent ++ rest).length : Int) ≤ maxEvents) : KeepsUp stream labels := by
  induction labels generalizing stream sent rest with
  | nil => trivial
  | cons label labels ih =>
      intro next first
      have attachedLater : ∀ label ∈ labels, label.attached = true :=
        fun label member => attached label (by simp [member])
      rcases schedule_next (attached label (by simp)) script with
        ⟨rfl, ahead⟩ | ⟨rfl, rfl, ahead⟩ | ⟨event, events, rfl, rfl, ahead⟩
      · exact ⟨by simp, ih (flowing_resume flowing first) ahead attachedLater bound⟩
      · apply And.intro (by simp)
        exact keeps_up_of_no_publish (no_publish_of_script_over ahead) next
      · have room : stream.subscription.queue.full = false := by
          apply AsyncQueue.not_full_of_length_lt
          have queued := congrArg List.length flowing.whole
          rw [flowing.capacity]
          simp only [List.length_append, List.length_cons] at bound queued
          omega
        have flowingNext := flowing_publish_next flowing room first
        refine ⟨fun _ _ => room, ih flowingNext ahead attachedLater ?_⟩
        simpa using bound

theorem schedule_settles {conversationId : String} {maxEvents : Int}
    {events : List AgentEvent} {error : Option String} {labels : List Label} {final : Stream}
    (schedule : Schedule events error labels)
    (keepsUp : KeepsUp (Stream.new conversationId maxEvents) labels)
    (settles : Settles conversationId maxEvents labels final) :
    (truthyText error = false ∧ final.delivered = events) ∨
      ∃ code taken, error = some code ∧ truthyText error = true ∧ taken <+: events ∧
        final.delivered = taken ++ [errorEvent conversationId code] := by
  have closing := flowing_run (flowing_new conversationId maxEvents) schedule.script
    schedule.attached keepsUp settles.1
  exact closing_settled closing settles.2

/-! ## Particular schedules -/

/-- The consumer takes each event as soon as it is published. -/
def lockstep (events : List AgentEvent) : List Label :=
  events.flatMap fun event => [.publish event, .resume]

theorem lockstep_script (events : List AgentEvent) :
    (lockstep events).filter Label.produced = events.map .publish := by
  induction events with
  | nil => rfl
  | cons event events ih =>
      simpa [lockstep, List.filter_cons, Label.produced] using ih

theorem lockstep_attached (events : List AgentEvent) :
    ∀ label ∈ lockstep events, label.attached = true := by
  intro label member
  simp only [lockstep, List.mem_flatMap, List.mem_cons, List.not_mem_nil, or_false] at member
  obtain ⟨event, _, rfl | rfl⟩ := member <;> rfl

/-- A consumer that goes into its loop next and has nothing left to read. -/
structure Idle (conversationId : String) (maxEvents : Int) (sent : List AgentEvent)
    (stream : Stream) : Prop where
  flowing : Flowing conversationId maxEvents sent stream
  ready : stream.consumer.AtLoop
  empty : stream.subscription.queue.items = []

theorem idle_new (conversationId : String) (maxEvents : Int) :
    Idle conversationId maxEvents [] (Stream.new conversationId maxEvents) :=
  ⟨flowing_new conversationId maxEvents, .inl rfl, rfl⟩

theorem idle_room {conversationId : String} {maxEvents : Int} {sent : List AgentEvent}
    {stream : Stream} (idle : Idle conversationId maxEvents sent stream) :
    stream.subscription.queue.full = false := by
  simp only [AsyncQueue.full, idle.empty, List.length_nil, Bool.and_eq_false_iff,
    decide_eq_false_iff_not]
  omega

theorem idle_delivered {conversationId : String} {maxEvents : Int} {sent : List AgentEvent}
    {stream : Stream} (idle : Idle conversationId maxEvents sent stream) :
    stream.delivered = sent := by
  have whole := idle.flowing.whole
  rwa [idle.empty, List.append_nil] at whole

theorem idle_publish_resume {conversationId : String} {maxEvents : Int} {sent : List AgentEvent}
    {stream : Stream} (idle : Idle conversationId maxEvents sent stream) (event : AgentEvent) :
    ∃ published next, step stream (.publish event) = some published ∧
      step published .resume = some next ∧
      Idle conversationId maxEvents (sent ++ [event]) next := by
  obtain ⟨published, publishes, consumer_eq, delivered_eq, flowing⟩ :=
    flowing_publish idle.flowing event (idle_room idle)
  have ready : published.consumer.AtLoop := consumer_eq ▸ idle.ready
  have queued : published.subscription.queue.items = [event] := by
    have whole := flowing.whole
    rw [delivered_eq, idle_delivered idle] at whole
    exact List.append_cancel_left whole
  have body : published.subscription.loopBody =
      ({ published.subscription with
          queue := { published.subscription.queue with items := [] } }, .looping,
        some event) := by
    simp [loopBody, flowing.clean, truthyText, AsyncQueue.getNowait, queued]
  have resumes := resume_at_loop ready
  refine ⟨published, _, publishes, resumes, flowing_resume flowing resumes, .inr ?_, ?_⟩
  · rw [body]
  · rw [body]

theorem lockstep_run {conversationId : String} {maxEvents : Int} {sent : List AgentEvent}
    {stream : Stream} (idle : Idle conversationId maxEvents sent stream)
    (events : List AgentEvent) :
    ∃ next, machine.run stream (lockstep events) = some next ∧
      Idle conversationId maxEvents (sent ++ events) next := by
  induction events generalizing stream sent with
  | nil => exact ⟨stream, rfl, by simpa using idle⟩
  | cons event events ih =>
      obtain ⟨published, middle, publishes, resumes, idleMiddle⟩ := idle_publish_resume idle event
      obtain ⟨next, rest, idleNext⟩ := ih idleMiddle
      refine ⟨next, ?_, by simpa using idleNext⟩
      simp only [lockstep, List.flatMap_cons, List.cons_append, List.nil_append, machine.run_cons]
      exact ⟨published, publishes, middle, resumes, rest⟩

/-- `finish` followed by as many resumptions as the consumer needs to stop. -/
def windUp (error : Option String) : List Label :=
  .finish error :: (if truthyText error then [.resume, .resume] else [.resume])

theorem wind_up_run {conversationId : String} {maxEvents : Int} {sent : List AgentEvent}
    {stream : Stream} (flowing : Flowing conversationId maxEvents sent stream)
    (ready : stream.consumer.AtLoop)
    (error : Option String)
    (readable : truthyText error = true ∨ stream.subscription.queue.items = []) :
    ∃ final, machine.run stream (windUp error) = some final ∧ step final .resume = none ∧
      final.delivered = stream.delivered ++
        (if truthyText error then [errorEvent conversationId (error.getD "")] else []) := by
  have slot : (stream.subscription.finish error).error = error := by
    simp [finish, orElse, flowing.clean, truthyText]
  have conversation : (stream.subscription.finish error).conversationId = conversationId :=
    flowing.conversation
  cases raised : truthyText error with
  | true =>
      refine ⟨{ subscription := (stream.subscription.finish error).aclose
                consumer := .done
                delivered := stream.delivered ++ [errorEvent conversationId (error.getD "")] },
        ?_, rfl, by simp⟩
      rcases ready with here | here <;>
        simp [windUp, raised, Machine.run, machine, step, resume, loopBody, here, slot,
          conversation]
  | false =>
      have empty : (stream.subscription.finish error).queue.items = [] := by
        rcases readable with raised' | empty
        · rw [raised] at raised'
          cases raised'
        · exact empty
      have finished : (stream.subscription.finish error).finished = true := rfl
      refine ⟨{ subscription := (stream.subscription.finish error).aclose
                consumer := .done
                delivered := stream.delivered }, ?_, rfl, by simp⟩
      rcases ready with here | here <;>
        simp [windUp, raised, Machine.run, machine, step, resume, loopBody, here, slot,
          AsyncQueue.getNowait, empty, finished]

/-- The schedule that loses events: everything but the last is read in step, and `finish` comes
before the consumer is resumed for the last one. -/
theorem late_schedule_loses_last (conversationId : String) (maxEvents : Int)
    (taken : List AgentEvent) (last : AgentEvent) (code : String)
    (raised : truthyText (some code) = true) :
    ∃ labels final, Schedule (taken ++ [last]) (some code) labels ∧
      Settles conversationId maxEvents labels final ∧
      final.delivered = taken ++ [errorEvent conversationId code] := by
  obtain ⟨middle, prefixRun, idle⟩ := lockstep_run (idle_new conversationId maxEvents) taken
  obtain ⟨published, publishes, consumer_eq, delivered_eq, flowing⟩ :=
    flowing_publish idle.flowing last (idle_room idle)
  obtain ⟨final, tailRun, settled, delivered⟩ :=
    wind_up_run flowing (consumer_eq ▸ idle.ready) (some code) (.inl raised)
  refine ⟨lockstep taken ++ .publish last :: windUp (some code), final, ⟨?_, ?_⟩,
    ⟨?_, settled⟩, ?_⟩
  · simp [lockstep_script, windUp, raised, producerScript, List.filter_cons, Label.produced]
  · intro label member
    rcases List.mem_append.mp member with early | late
    · exact lockstep_attached taken label early
    · simp only [windUp, raised, if_true, List.mem_cons, List.not_mem_nil, or_false] at late
      rcases late with rfl | rfl | rfl | rfl <;> rfl
  · rw [machine.run_append]
    exact ⟨middle, prefixRun, (machine.run_cons ..).2 ⟨published, publishes, tailRun⟩⟩
  · rw [delivered, delivered_eq, idle_delivered idle, if_pos raised]
    rfl

theorem lockstep_keeps_up {conversationId : String} {maxEvents : Int} {sent : List AgentEvent}
    {stream : Stream} (idle : Idle conversationId maxEvents sent stream)
    (events : List AgentEvent) (error : Option String) :
    KeepsUp stream (lockstep events ++ windUp error) := by
  induction events generalizing stream sent with
  | nil =>
      apply keeps_up_of_no_publish
      rintro label member event rfl
      cases raised : truthyText error <;> simp [lockstep, windUp, raised] at member
  | cons event events ih =>
      obtain ⟨published, middle, publishes, resumes, idleMiddle⟩ := idle_publish_resume idle event
      intro first firstStep
      have first_eq : published = first := Option.some.inj (publishes.symm.trans firstStep)
      subst first_eq
      refine ⟨fun _ _ => idle_room idle, fun second secondStep => ?_⟩
      have second_eq : middle = second := Option.some.inj (resumes.symm.trans secondStep)
      subst second_eq
      refine ⟨?_, ih idleMiddle⟩
      intro other publishes
      cases publishes

theorem lockstep_schedule (conversationId : String) (maxEvents : Int)
    (events : List AgentEvent) (error : Option String) :
    ∃ labels final, Schedule events error labels ∧
      KeepsUp (Stream.new conversationId maxEvents) labels ∧
      Settles conversationId maxEvents labels final ∧
      final.delivered = events ++
        (if truthyText error then [errorEvent conversationId (error.getD "")] else []) := by
  obtain ⟨middle, prefixRun, idle⟩ := lockstep_run (idle_new conversationId maxEvents) events
  obtain ⟨final, tailRun, settled, delivered⟩ :=
    wind_up_run idle.flowing idle.ready error (.inr idle.empty)
  refine ⟨lockstep events ++ windUp error, final, ⟨?_, ?_⟩, ?_, ⟨?_, settled⟩, ?_⟩
  · cases raised : truthyText error <;>
      simp [lockstep_script, windUp, raised, producerScript, List.filter_cons, Label.produced]
  · intro label member
    rcases List.mem_append.mp member with early | late
    · exact lockstep_attached events label early
    · cases raised : truthyText error <;>
        simp only [windUp, raised, if_true, Bool.false_eq_true, if_false, List.mem_cons,
          List.not_mem_nil, or_false] at late
      · rcases late with rfl | rfl <;> rfl
      · rcases late with rfl | rfl | rfl <;> rfl
  · exact lockstep_keeps_up (idle_new conversationId maxEvents) events error
  · exact (machine.run_append ..).2 ⟨middle, prefixRun, tailRun⟩
  · rw [delivered, idle_delivered idle]
    rfl

/-- What a client receives is the same under every schedule exactly when no error can overtake
a queued event, and an error that is given is one the consumer can see. -/
theorem schedule_independent_iff (conversationId : String) (maxEvents : Int)
    (events : List AgentEvent) (error : Option String)
    (room : (events.length : Int) ≤ maxEvents) :
    ScheduleIndependent conversationId maxEvents events error ↔
      error = none ∨ (events = [] ∧ error ≠ some "") := by
  constructor
  · intro independent
    obtain ⟨labels, final, schedule, _, settles, delivered⟩ :=
      lockstep_schedule conversationId maxEvents events error
    have promised := (independent labels labels final final schedule schedule settles settles).2
    cases error with
    | none => exact .inl rfl
    | some code =>
        right
        have visible : truthyText (some code) = true := by
          cases raised : truthyText (some code) with
          | true => rfl
          | false => simp [delivered, raised, terminalEvents] at promised
        refine ⟨?_, by rintro ⟨rfl⟩; exact absurd visible (by decide)⟩
        rcases List.eq_nil_or_concat events with empty | ⟨taken, last, rfl⟩
        · exact empty
        · rw [List.concat_eq_append] at independent
          obtain ⟨late, lateFinal, lateSchedule, lateSettles, lost⟩ :=
            late_schedule_loses_last conversationId maxEvents taken last code visible
          have whole := (independent late late lateFinal lateFinal lateSchedule lateSchedule
            lateSettles lateSettles).2
          have lengths := congrArg List.length (lost.symm.trans whole)
          simp [terminalEvents] at lengths
  · intro condition left right leftFinal rightFinal leftSchedule rightSchedule leftSettles
      rightSettles
    have delivers : ∀ labels final, Schedule events error labels →
        Settles conversationId maxEvents labels final →
        final.delivered = events ++ terminalEvents conversationId error := by
      intro labels final schedule settles
      have keepsUp : KeepsUp (Stream.new conversationId maxEvents) labels :=
        keeps_up_of_length_le (flowing_new conversationId maxEvents) schedule.script
          schedule.attached (by simpa using room)
      rcases schedule_settles schedule keepsUp settles with
        ⟨quiet, received⟩ | ⟨code, taken, error_eq, _, part, received⟩
      · rcases condition with rfl | ⟨_, visible⟩
        · simpa [terminalEvents] using received
        · cases error with
          | none => simpa [terminalEvents] using received
          | some code => simp_all [truthyText]
      · rcases condition with rfl | ⟨rfl, _⟩
        · cases error_eq
        · rw [List.prefix_nil.mp part] at received
          rw [received, error_eq]
          rfl
    have leftDelivers := delivers left leftFinal leftSchedule leftSettles
    have rightDelivers := delivers right rightFinal rightSchedule rightSettles
    exact ⟨leftDelivers.trans rightDelivers.symm, leftDelivers⟩

theorem schedule_independent_plain_finish :
    ScheduleIndependent "c" 128 [⟨"turn.completed", "c", []⟩] none :=
  (schedule_independent_iff "c" 128 [⟨"turn.completed", "c", []⟩] none (by decide)).2 (.inl rfl)

/-- A completed turn whose task then fails: the consumer that was not resumed in between never
sees the completion. -/
theorem failing_finish_loses_completion :
    ¬ ScheduleIndependent "c" 128 [⟨"turn.completed", "c", []⟩]
      (some "RUNTIME_UNAVAILABLE") := by
  intro independent
  obtain ⟨labels, final, schedule, settles, lost⟩ :=
    late_schedule_loses_last "c" 128 [] ⟨"turn.completed", "c", []⟩ "RUNTIME_UNAVAILABLE"
      (by decide)
  have whole := (independent labels labels final final schedule schedule settles settles).2
  rw [lost] at whole
  exact absurd whole (by decide)

end Stream

end AgentHarness.Runtime
