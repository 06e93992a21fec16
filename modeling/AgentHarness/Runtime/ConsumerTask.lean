import AgentHarness.Runtime.WakeUp

/-!
# The consumer statement by statement

The event loop runs the generator until it suspends itself, and calls the other methods in between.
Here every statement of `events()` is a step of its own and `changed.wait()` sleeps on a future.
The steps from one suspension to the next come to one resumption of `Stream`.
-/

namespace AgentHarness.Runtime

open AgentHarness.Library AgentHarness.Events

set_option autoImplicit false

namespace ConsumerTask

/-- Where the generator stands: suspended, or about to run a statement. -/
inductive Point where
  | suspended (consumer : EventSubscription.Consumer)
  /-- `if self._error:` -/
  | errorTest
  /-- `if not self._queue.empty():` -/
  | queueTest
  /-- `yield self._queue.get_nowait()` -/
  | take
  /-- `if self._finished or self._detached:` -/
  | overTest
  /-- `self._changed.clear()` -/
  | clear
  /-- `await self._changed.wait()` -/
  | wait
  /-- `self.aclose()` under `finally:` -/
  | closing
  deriving DecidableEq, Repr

end ConsumerTask

/-- A subscription with its one consumer; `woken` says that the future of `changed.wait()` is
done. -/
structure ConsumerTask where
  subscription : EventSubscription
  point : ConsumerTask.Point
  woken : Bool
  delivered : List AgentEvent
  deriving DecidableEq, Repr

namespace ConsumerTask

open EventSubscription

def new (conversationId : String) (maxEvents : Int) : ConsumerTask where
  subscription := .new conversationId maxEvents
  point := .suspended .unstarted
  woken := false
  delivered := []

inductive Label where
  /-- The event loop calls a method or resumes the generator. -/
  | call (label : Stream.Label)
  /-- The generator runs its next statement. -/
  | statement
  deriving DecidableEq, Repr

def statement (task : ConsumerTask) : Option ConsumerTask :=
  match task.point with
  | .suspended _ => none
  | .errorTest =>
      if truthyText task.subscription.error then
        some { task with
          point := .suspended .failing
          delivered := task.delivered ++
            [errorEvent task.subscription.conversationId (task.subscription.error.getD "")] }
      else some { task with point := .queueTest }
  | .queueTest =>
      if task.subscription.queue.items.isEmpty then some { task with point := .overTest }
      else some { task with point := .take }
  | .take =>
      match task.subscription.queue.getNowait with
      | .ok (event, queue) =>
          some { task with
            subscription := { task.subscription with queue := queue }
            point := .suspended .looping
            delivered := task.delivered ++ [event] }
      -- `QueueEmpty` would leave the generator
      | .error _ => none
  | .overTest =>
      if task.subscription.finished || task.subscription.detached then
        some { task with point := .closing }
      else some { task with point := .clear }
  | .clear =>
      some { task with
        subscription := { task.subscription with changed := false }
        point := .wait }
  | .wait =>
      if task.subscription.changed then some { task with point := .errorTest }
      else some { task with point := .suspended .waiting, woken := false }
  | .closing =>
      some { task with
        subscription := task.subscription.aclose
        point := .suspended .done }

def resume (task : ConsumerTask) : Consumer → Option ConsumerTask
  | .unstarted | .looping => some { task with point := .errorTest }
  | .failing => some { task with point := .closing }
  | .waiting => if task.woken then some { task with point := .errorTest } else none
  | .done => none

/-- A method called while the generator is suspended. `set` completes the future where it turns the
flag on. -/
def method (task : ConsumerTask) (consumer : Consumer) (label : Stream.Label) :
    Option ConsumerTask :=
  (Stream.step ⟨task.subscription, consumer, task.delivered⟩ label).map fun next =>
    { subscription := next.subscription
      point := .suspended next.consumer
      woken := task.woken || (!task.subscription.changed && next.subscription.changed)
      delivered := next.delivered }

def step (task : ConsumerTask) : Label → Option ConsumerTask
  | .statement => task.statement
  | .call label =>
      match task.point with
      | .suspended consumer =>
          if label = .resume then task.resume consumer else task.method consumer label
      -- one thread: nothing else runs before the generator suspends itself
      | _ => none

def machine : Machine ConsumerTask Label where
  step := step

/-- The state in which the running generator suspends itself next. -/
def settled (task : ConsumerTask) : Stream :=
  match task.point with
  | .suspended consumer => ⟨task.subscription, consumer, task.delivered⟩
  | .errorTest =>
      { subscription := task.subscription.loopBody.1
        consumer := task.subscription.loopBody.2.1
        delivered := task.delivered ++ task.subscription.loopBody.2.2.toList }
  | .queueTest | .take | .overTest =>
      match task.subscription.queue.getNowait with
      | .ok (event, queue) =>
          { subscription := { task.subscription with queue := queue }
            consumer := .looping
            delivered := task.delivered ++ [event] }
      | .error _ =>
          if task.subscription.finished || task.subscription.detached then
            ⟨task.subscription.aclose, .done, task.delivered⟩
          else ⟨{ task.subscription with changed := false }, .waiting, task.delivered⟩
  | .clear | .wait => ⟨{ task.subscription with changed := false }, .waiting, task.delivered⟩
  | .closing => ⟨task.subscription.aclose, .done, task.delivered⟩

def Label.outer : Label → Option Stream.Label
  | .call label => some label
  | .statement => none

/-- What each point takes for granted of the statements before it. -/
def Consistent (task : ConsumerTask) : Prop :=
  match task.point with
  | .take => task.subscription.queue.items ≠ []
  | .overTest => task.subscription.queue.items = []
  | .wait => task.subscription.changed = false
  | .suspended .waiting => task.woken = task.subscription.changed
  | _ => True

/-! ## One statement -/

variable {task next final : ConsumerTask} {maxEvents : Int}

/-- What a statement does, with the outcome of its test. -/
inductive Ran (task : ConsumerTask) : ConsumerTask → Prop where
  | raise (here : task.point = .errorTest) (code : String)
      (slot : task.subscription.error = some code)
      (raised : truthyText task.subscription.error = true) :
      Ran task { task with
        point := .suspended .failing
        delivered := task.delivered ++ [errorEvent task.subscription.conversationId code] }
  | clean (here : task.point = .errorTest)
      (quiet : truthyText task.subscription.error = false) :
      Ran task { task with point := .queueTest }
  | empty (here : task.point = .queueTest) (empty : task.subscription.queue.items = []) :
      Ran task { task with point := .overTest }
  | queued (here : task.point = .queueTest) (queued : task.subscription.queue.items ≠ []) :
      Ran task { task with point := .take }
  | take (here : task.point = .take) (event : AgentEvent) (rest : List AgentEvent)
      (queued : task.subscription.queue.items = event :: rest) :
      Ran task { task with
        subscription := { task.subscription with
          queue := { task.subscription.queue with items := rest } }
        point := .suspended .looping
        delivered := task.delivered ++ [event] }
  | finished (here : task.point = .overTest)
      (finished : (task.subscription.finished || task.subscription.detached) = true) :
      Ran task { task with point := .closing }
  | unfinished (here : task.point = .overTest)
      (unfinished : (task.subscription.finished || task.subscription.detached) = false) :
      Ran task { task with point := .clear }
  | clear (here : task.point = .clear) :
      Ran task { task with
        subscription := { task.subscription with changed := false }
        point := .wait }
  | set (here : task.point = .wait) (set : task.subscription.changed = true) :
      Ran task { task with point := .errorTest }
  | sleep (here : task.point = .wait) (unset : task.subscription.changed = false) :
      Ran task { task with point := .suspended .waiting, woken := false }
  | close (here : task.point = .closing) :
      Ran task { task with
        subscription := task.subscription.aclose
        point := .suspended .done }

theorem ran_of_statement (stepped : task.statement = some next) : Ran task next := by
  unfold statement at stepped
  cases here : task.point with
  | suspended consumer => simp [here] at stepped
  | errorTest =>
      simp only [here] at stepped
      split at stepped
      · rename_i raised
        cases stepped
        cases slot : task.subscription.error with
        | none =>
            rw [slot] at raised
            cases raised
        | some code => exact .raise here code slot raised
      · rename_i quiet
        cases stepped
        exact .clean here (Bool.eq_false_iff.mpr quiet)
  | queueTest =>
      simp only [here] at stepped
      split at stepped
      · rename_i empty
        cases stepped
        exact .empty here (List.isEmpty_iff.mp empty)
      · rename_i queued
        cases stepped
        exact .queued here fun empty => queued (List.isEmpty_iff.mpr empty)
  | take =>
      simp only [here, AsyncQueue.getNowait] at stepped
      cases queued : task.subscription.queue.items with
      | nil => simp [queued] at stepped
      | cons event rest =>
          simp only [queued, Option.some.injEq] at stepped
          rw [← stepped]
          exact .take here event rest queued
  | overTest =>
      simp only [here] at stepped
      split at stepped
      · rename_i finished
        cases stepped
        exact .finished here finished
      · rename_i unfinished
        cases stepped
        exact .unfinished here (Bool.eq_false_iff.mpr unfinished)
  | clear =>
      simp only [here, Option.some.injEq] at stepped
      rw [← stepped]
      exact .clear here
  | wait =>
      simp only [here] at stepped
      split at stepped
      · rename_i set
        cases stepped
        exact .set here set
      · rename_i unset
        cases stepped
        exact .sleep here (Bool.eq_false_iff.mpr unset)
  | closing =>
      simp only [here, Option.some.injEq] at stepped
      rw [← stepped]
      exact .close here

theorem sound_statement (sound : Sound maxEvents task.subscription)
    (stepped : task.statement = some next) : Sound maxEvents next.subscription := by
  cases ran_of_statement stepped with
  | raise => exact sound
  | clean => exact sound
  | empty => exact sound
  | queued => exact sound
  | take _ event rest queued => exact sound_take sound queued
  | finished => exact sound
  | unfinished => exact sound
  | clear => exact sound_changed sound false
  | set => exact sound
  | sleep => exact sound
  | close => exact sound_aclose sound

theorem consistent_statement (stepped : task.statement = some next) : Consistent next := by
  cases ran_of_statement stepped with
  | raise => trivial
  | clean => trivial
  | empty _ empty => exact empty
  | queued _ queued => exact queued
  | take => trivial
  | finished => trivial
  | unfinished => trivial
  | clear => exact rfl
  | set => trivial
  | sleep _ unset => exact unset.symm
  | close => trivial

/-- The statements up to the next suspension do what one pass of the loop does. -/
theorem settled_statement (consistent : Consistent task) (stepped : task.statement = some next) :
    next.settled = task.settled := by
  cases ran_of_statement stepped with
  | raise here code slot raised =>
      simp [settled, here, loopBody, slot, slot ▸ raised]
  | clean here quiet =>
      simp only [settled, here, loopBody, quiet, Bool.false_eq_true, if_false]
      cases task.subscription.queue.getNowait with
      | ok taken => rfl
      | error fault =>
          cases (task.subscription.finished || task.subscription.detached) with
          | true => simp
          | false => simp
  | empty here _ => simp only [settled, here]
  | queued here _ => simp only [settled, here]
  | take here event rest queued =>
      simp [settled, here, AsyncQueue.getNowait, queued]
  | finished here finished =>
      simp only [Consistent, here] at consistent
      simp [settled, here, AsyncQueue.getNowait, consistent, finished]
  | unfinished here unfinished =>
      simp only [Consistent, here] at consistent
      simp [settled, here, AsyncQueue.getNowait, consistent, unfinished]
  | clear here => simp only [settled, here]
  | set here set =>
      simp only [Consistent, here] at consistent
      rw [consistent] at set
      cases set
  | sleep here unset =>
      simp only [settled, here, ← unset]
  | close here => simp only [settled, here]

/-! ## The calls in between -/

/-- The event loop calls only into a suspended generator. -/
theorem call_cases {label : Stream.Label} (stepped : step task (.call label) = some next) :
    ∃ consumer, task.point = .suspended consumer ∧
      (label = .resume ∧ task.resume consumer = some next ∨
        label ≠ .resume ∧ task.method consumer label = some next) := by
  unfold step at stepped
  cases here : task.point with
  | suspended consumer =>
      simp only [here] at stepped
      split at stepped
      · rename_i resumes
        exact ⟨consumer, rfl, .inl ⟨resumes, stepped⟩⟩
      · rename_i calls
        exact ⟨consumer, rfl, .inr ⟨calls, stepped⟩⟩
  | _ => simp [here] at stepped

/-- A resumed generator goes on with its loop or, behind the error event, with `finally`. -/
theorem resume_cases {consumer : Consumer} (resumed : task.resume consumer = some next) :
    (consumer = .failing ∧ next = { task with point := .closing }) ∨
      ((consumer.AtLoop ∨ consumer = .waiting ∧ task.woken = true) ∧
        next = { task with point := .errorTest }) := by
  cases consumer with
  | unstarted =>
      cases resumed
      exact .inr ⟨.inl (.inl rfl), rfl⟩
  | looping =>
      cases resumed
      exact .inr ⟨.inl (.inr rfl), rfl⟩
  | failing =>
      cases resumed
      exact .inl ⟨rfl, rfl⟩
  | waiting =>
      simp only [resume] at resumed
      split at resumed
      · rename_i woken
        cases resumed
        exact .inr ⟨.inr ⟨rfl, woken⟩, rfl⟩
      · cases resumed
  | done => cases resumed

/-- The methods other than `events()` never clear the signal, and leave a sleeping consumer where
it is or close it. -/
theorem method_keeps {stream later : Stream} {label : Stream.Label} (other : label ≠ .resume)
    (stepped : Stream.step stream label = some later) :
    (stream.subscription.changed = true → later.subscription.changed = true) ∧
      (later.consumer = stream.consumer ∨ later.consumer = .done) := by
  cases label with
  | publish event =>
      rcases Stream.publish_cases stepped with ⟨_, rfl⟩ | ⟨_, _, rfl⟩ | ⟨_, _, rfl⟩
      · exact ⟨id, .inl rfl⟩
      · exact ⟨fun _ => rfl, .inl rfl⟩
      · exact ⟨fun _ => rfl, .inl rfl⟩
  | finish error =>
      cases stepped
      exact ⟨fun _ => rfl, .inl rfl⟩
  | resume => exact absurd rfl other
  | aclose =>
      cases stepped
      exact ⟨fun _ => rfl, .inl rfl⟩
  | abandon =>
      cases stepped
      rcases stream.abandon_cases with ⟨_, left⟩ | ⟨_, left⟩
      · rw [left]
        exact ⟨id, .inr rfl⟩
      · rw [left]
        exact ⟨fun _ => rfl, .inr rfl⟩

theorem consistent_call {label : Stream.Label} (consistent : Consistent task)
    (stepped : step task (.call label) = some next) : Consistent next := by
  have ⟨consumer, here, called⟩ := call_cases stepped
  rcases called with ⟨_, resumed⟩ | ⟨other, called⟩
  · rcases resume_cases resumed with ⟨_, rfl⟩ | ⟨_, rfl⟩ <;> trivial
  · have ⟨later, ran, same⟩ := Option.map_eq_some_iff.mp called
    have ⟨kept, stays⟩ := method_keeps other ran
    subst same
    cases sleeps : later.consumer with
    | waiting =>
        have slept : consumer = .waiting := by
          rw [sleeps] at stays
          simpa [eq_comm] using stays
        simp only [Consistent, here, slept] at consistent
        simp only [Consistent, consistent]
        cases before : task.subscription.changed with
        | true => simp [kept before]
        | false => simp
    | _ => simp [Consistent]

theorem sound_call {label : Stream.Label} (positive : 1 ≤ maxEvents)
    (sound : Sound maxEvents task.subscription) (stepped : step task (.call label) = some next) :
    Sound maxEvents next.subscription := by
  have ⟨consumer, _, called⟩ := call_cases stepped
  rcases called with ⟨_, resumed⟩ | ⟨_, called⟩
  · rcases resume_cases resumed with ⟨_, rfl⟩ | ⟨_, rfl⟩
    · exact sound
    · exact sound
  · have ⟨later, ran, same⟩ := Option.map_eq_some_iff.mp called
    subst same
    exact Stream.sound_step positive sound ran

theorem settled_call {label : Stream.Label} (consistent : Consistent task)
    (stepped : step task (.call label) = some next) :
    Stream.step task.settled label = some next.settled := by
  obtain ⟨consumer, here, called⟩ := call_cases stepped
  rcases called with ⟨resumes, resumed⟩ | ⟨_, called⟩
  · subst resumes
    rcases resume_cases resumed with ⟨failing, rfl⟩ | ⟨ready | ⟨waiting, woken⟩, rfl⟩
    · simp [settled, here, failing, Stream.step, EventSubscription.resume]
    · have settles : task.settled = ⟨task.subscription, consumer, task.delivered⟩ := by
        simp only [settled, here]
      rw [settles, Stream.resume_at_loop ready]
      rfl
    · simp only [Consistent, here, waiting, woken] at consistent
      simp [settled, here, waiting, Stream.step, EventSubscription.resume, ← consistent]
  · obtain ⟨later, ran, same⟩ := Option.map_eq_some_iff.mp called
    subst same
    simpa only [settled, here] using ran

/-! ## Runs -/

theorem consistent_new (conversationId : String) (maxEvents : Int) :
    Consistent (new conversationId maxEvents) := trivial

theorem consistent_step {label : Label} (consistent : Consistent task)
    (stepped : step task label = some next) : Consistent next := by
  cases label with
  | call label => exact consistent_call consistent stepped
  | statement => exact consistent_statement stepped

theorem settled_step {label : Label} (consistent : Consistent task)
    (stepped : step task label = some next) :
    Stream.machine.run task.settled label.outer.toList = some next.settled := by
  cases label with
  | call label =>
      have called := settled_call consistent stepped
      exact (Stream.machine.run_cons ..).2 ⟨next.settled, called, rfl⟩
  | statement =>
      change some task.settled = some next.settled
      rw [settled_statement consistent stepped]

theorem settled_run_from {labels : List Label} (consistent : Consistent task)
    (reached : machine.run task labels = some final) :
    Stream.machine.run task.settled (labels.filterMap Label.outer) = some final.settled :=
  machine.run_of_abstraction Stream.machine settled Label.outer Consistent
    (fun _ _ _ valid stepped => consistent_step valid stepped)
    (fun _ _ _ valid stepped => settled_step valid stepped) consistent reached

/-- Every run of the statements is a run of the subscription with its resumptions. -/
theorem settled_run {conversationId : String} {labels : List Label}
    (reached : machine.run (new conversationId maxEvents) labels = some final) :
    Stream.machine.run (Stream.new conversationId maxEvents) (labels.filterMap Label.outer) =
      some final.settled :=
  settled_run_from (consistent_new conversationId maxEvents) reached

theorem consistent_run {labels : List Label} (consistent : Consistent task)
    (reached : machine.run task labels = some final) : Consistent final :=
  machine.run_invariant Consistent (fun _ _ _ valid stepped => consistent_step valid stepped)
    consistent reached

theorem sound_run {conversationId : String} {labels : List Label} (positive : 1 ≤ maxEvents)
    (reached : machine.run (new conversationId maxEvents) labels = some final) :
    Sound maxEvents final.subscription := by
  apply machine.run_invariant (fun task => Sound maxEvents task.subscription) _
    (sound_new conversationId positive) reached
  intro task label next sound stepped
  cases label with
  | call label => exact sound_call positive sound stepped
  | statement => exact sound_statement sound stepped

/-! ## Up to the next suspension -/

/-- A bound on the statements before the next suspension. -/
def Point.remaining : Point → Nat
  | .suspended _ => 0
  | .closing | .take | .wait => 1
  | .clear => 2
  | .overTest => 3
  | .queueTest => 4
  | .errorTest => 5

theorem statement_advances (consistent : Consistent task)
    (stepped : task.statement = some next) :
    next.point.remaining < task.point.remaining := by
  cases ran_of_statement stepped with
  | set here set =>
      simp only [Consistent, here] at consistent
      rw [consistent] at set
      cases set
  | raise here | clean here | empty here | queued here | take here | finished here
  | unfinished here | clear here | sleep here | close here =>
      simp [here, Point.remaining]

theorem statement_enabled (consistent : Consistent task)
    (running : ∀ consumer, task.point ≠ .suspended consumer) :
    ∃ next, task.statement = some next := by
  unfold statement
  cases here : task.point with
  | suspended consumer => exact absurd here (running consumer)
  | take =>
      simp only [Consistent, here] at consistent
      cases queued : task.subscription.queue.items with
      | nil => exact absurd queued consistent
      | cons event rest => simp [AsyncQueue.getNowait, queued]
  | errorTest | queueTest | overTest | wait =>
      dsimp only
      split
      · exact ⟨_, rfl⟩
      · exact ⟨_, rfl⟩
  | clear => exact ⟨_, rfl⟩
  | closing => exact ⟨_, rfl⟩

theorem suspends_within (bound : Nat) (consistent : Consistent task)
    (few : task.point.remaining ≤ bound) :
    ∃ count last, count ≤ bound ∧
      machine.run task (List.replicate count .statement) = some last ∧
      ∃ consumer, last.point = .suspended consumer := by
  induction bound generalizing task with
  | zero =>
      cases here : task.point with
      | suspended consumer => exact ⟨0, task, Nat.le_refl _, rfl, consumer, here⟩
      | _ => simp [here, Point.remaining] at few
  | succ bound ih =>
      by_cases running : ∀ consumer, task.point ≠ .suspended consumer
      · have ⟨next, stepped⟩ := statement_enabled consistent running
        have fewer := statement_advances consistent stepped
        have ⟨count, last, small, ran, stops⟩ := ih (consistent_statement stepped) (by omega)
        exact ⟨count + 1, last, by omega, (machine.run_cons ..).2 ⟨next, stepped, ran⟩, stops⟩
      · exact ⟨0, task, Nat.zero_le _, rfl, not_forall_not.mp running⟩

/-- The running generator suspends itself after a few statements. -/
theorem suspends (consistent : Consistent task) :
    ∃ count last, count ≤ 5 ∧ machine.run task (List.replicate count .statement) = some last ∧
      ∃ consumer, last.point = .suspended consumer := by
  apply suspends_within 5 consistent
  cases task.point <;> simp [Point.remaining]

/-- What the subscription can do, the generator's statements do. -/
theorem resume_enabled {later : Stream} {consumer : Consumer} (consistent : Consistent task)
    (here : task.point = .suspended consumer)
    (resumed : Stream.step task.settled .resume = some later) :
    ∃ next, step task (.call .resume) = some next := by
  have reads : task.settled.consumer = consumer := by simp only [settled, here]
  have flag : task.settled.subscription = task.subscription := by simp only [settled, here]
  simp only [step, here, if_true]
  rcases Stream.resume_cases resumed with
    ⟨failing, _⟩ | ⟨(unstarted | looping) | ⟨waiting, set⟩, _⟩
  · rw [reads] at failing
    exact ⟨_, by rw [failing]; rfl⟩
  · rw [reads] at unstarted
    exact ⟨_, by rw [unstarted]; rfl⟩
  · rw [reads] at looping
    exact ⟨_, by rw [looping]; rfl⟩
  · rw [reads] at waiting
    rw [flag] at set
    simp only [Consistent, here, waiting] at consistent
    simp [resume, waiting, consistent, set]

/-- One step of the subscription, as a call and the statements it sets off. -/
theorem outer_step {label : Stream.Label} {later : Stream} (consistent : Consistent task)
    (stops : ∃ consumer, task.point = .suspended consumer)
    (stepped : Stream.step task.settled label = some later) :
    ∃ labels next, machine.run task labels = some next ∧
      labels.filterMap Label.outer = [label] ∧ next.settled = later ∧
      ∃ consumer, next.point = .suspended consumer := by
  have ⟨consumer, here⟩ := stops
  by_cases resumes : label = .resume
  · subst resumes
    have ⟨first, called⟩ := resume_enabled consistent here stepped
    have ⟨count, last, _, ran, suspended⟩ := suspends (consistent_call consistent called)
    have silent : (List.replicate count Label.statement).filterMap Label.outer = [] := by
      simp [List.filterMap_replicate, Label.outer]
    have settles : last.settled = first.settled := by
      have outer := settled_run_from (consistent_call consistent called) ran
      rw [silent, Machine.run_nil] at outer
      exact (Option.some.inj outer).symm
    have same : later = first.settled := by
      rw [settled_call consistent called] at stepped
      exact (Option.some.inj stepped).symm
    apply Exists.intro (.call .resume :: List.replicate count .statement)
    apply Exists.intro last
    refine ⟨(machine.run_cons ..).2 ⟨first, called, ran⟩, ?_, settles.trans same.symm, suspended⟩
    rw [List.filterMap_cons, silent]
    rfl
  · simp only [settled, here] at stepped
    have called : step task (.call label) = some
        { subscription := later.subscription
          point := .suspended later.consumer
          woken := task.woken || (!task.subscription.changed && later.subscription.changed)
          delivered := later.delivered } := by
      simp [step, here, resumes, method, stepped]
    apply Exists.intro [.call label]
    exact ⟨_, (machine.run_cons ..).2 ⟨_, called, rfl⟩, rfl, rfl, later.consumer, rfl⟩

theorem run_of_stream_from {labels : List Stream.Label} {stream : Stream}
    (consistent : Consistent task) (stops : ∃ consumer, task.point = .suspended consumer)
    (reached : Stream.machine.run task.settled labels = some stream) :
    ∃ steps final, machine.run task steps = some final ∧
      steps.filterMap Label.outer = labels ∧ final.settled = stream := by
  induction labels generalizing task with
  | nil => exact ⟨[], task, rfl, rfl, Option.some.inj reached⟩
  | cons label labels ih =>
      have ⟨later, stepped, rest⟩ := (Stream.machine.run_cons ..).1 reached
      have ⟨front, next, ran, shown, same, suspended⟩ := outer_step consistent stops stepped
      rw [← same] at rest
      have ⟨back, final, ranOn, shownOn, settles⟩ :=
        ih (consistent_run consistent ran) suspended rest
      apply Exists.intro (front ++ back)
      apply Exists.intro final
      refine ⟨(machine.run_append ..).2 ⟨next, ran, ranOn⟩, ?_, settles⟩
      rw [List.filterMap_append, shown, shownOn, List.singleton_append]

/-- Every run of the subscription with its resumptions is one of the statements. -/
theorem run_of_stream {conversationId : String} {labels : List Stream.Label} {stream : Stream}
    (reached : Stream.machine.run (Stream.new conversationId maxEvents) labels = some stream) :
    ∃ steps final, machine.run (new conversationId maxEvents) steps = some final ∧
      steps.filterMap Label.outer = labels ∧ final.settled = stream :=
  run_of_stream_from (consistent_new conversationId maxEvents) ⟨.unstarted, rfl⟩ reached

/-- The queue stays within its bound and is empty once detached, and the consumer sleeps on a signal
that is not set only while there is nothing to hand out and the stream is not over: whatever comes,
it can be resumed and does not go back to sleep. -/
theorem no_lost_wake_up (conversationId : String) (maxEvents : Int) (positive : 1 ≤ maxEvents)
    (labels : List Label) (final : ConsumerTask)
    (reached : machine.run (new conversationId maxEvents) labels = some final) :
    (final.subscription.queue.items.length : Int) ≤ maxEvents ∧
    (final.subscription.detached = true → final.subscription.queue.items = []) ∧
    (final.point = .suspended .waiting → final.subscription.changed = false →
      Quiet final.subscription) ∧
    (final.point = .suspended .waiting → ¬ Quiet final.subscription →
      ∃ next, step final (.call .resume) = some next ∧ next.settled.consumer ≠ .waiting) := by
  have sound := sound_run positive reached
  have alert := Stream.alert_run positive (settled_run reached)
  have consistent := consistent_run (consistent_new conversationId maxEvents) reached
  refine ⟨sound.bounded, sound.closed, ?_, ?_⟩
  · intro asleep unset
    have quiet := alert.asleep
    simp only [settled, asleep] at quiet
    exact quiet trivial unset
  · intro asleep due
    have waiting : final.settled.consumer = .waiting := by simp only [settled, asleep]
    have same : final.settled.subscription = final.subscription := by simp only [settled, asleep]
    have ⟨later, stepped, awake⟩ := Stream.wakes_unless_quiet alert waiting (same ▸ due)
    have ⟨next, resumed⟩ := resume_enabled consistent asleep stepped
    rw [settled_call consistent resumed] at stepped
    cases stepped
    exact ⟨next, resumed, awake⟩

namespace Recorded

/-- The consumer has found nothing and sleeps when an event comes. -/
def wokenUp : List Label :=
  [.call .resume, .statement, .statement, .statement, .statement, .statement,
    .call (.publish ⟨"message.delta", "c-1", [("delta", .str "a")]⟩)]

end Recorded

theorem no_lost_wake_up_publish :
    ∃ final, machine.run (new "c-1" 1) Recorded.wokenUp = some final ∧
      final.subscription.queue.items.length = 1 ∧
      ∃ next, step final (.call .resume) = some next ∧ next.settled.consumer ≠ .waiting := by
  have reached : (machine.run (new "c-1" 1) Recorded.wokenUp).isSome := by decide
  have ⟨final, run⟩ := Option.isSome_iff_exists.mp reached
  have shape : (machine.run (new "c-1" 1) Recorded.wokenUp).map (fun task =>
      (task.point, task.subscription.queue.items.length)) = some (.suspended .waiting, 1) := by
    decide
  rw [run] at shape
  have ⟨asleep, queued⟩ := Prod.mk.inj (Option.some.inj shape)
  have ⟨_, _, _, wakes⟩ := no_lost_wake_up "c-1" 1 (by decide) Recorded.wokenUp final run
  apply Exists.intro final
  refine ⟨run, queued, wakes asleep ?_⟩
  intro quiet
  rw [quiet.empty] at queued
  cases queued

end ConsumerTask

end AgentHarness.Runtime
