import AgentHarness.Services.ServiceEffects

/-!
# Consumers do not own execution

The steps of HTTP consumers are the hidden ones. They reach a task only through what they await
and the producer only through its subscription; the shield and a `publish` that never raises keep
both ways shut.
-/

namespace AgentHarness.Services

open AgentHarness.Library AgentHarness.Events AgentHarness.Runtime AgentHarness.Conversations

set_option autoImplicit false

def Operation.streams : Operation → Bool
  | .openStream _ _ _ => true
  | _ => false

namespace Service

def Label.ofExecution : Label → Bool
  | .consumer _ _ => false
  | _ => true

def withConsumers (service : Service) (consumers : List Consumer) : Service :=
  { service with consumers := consumers }

section WithConsumers

variable (service : Service) (consumers : List Consumer)

@[simp] theorem with_consumers_admission :
    (service.withConsumers consumers).admission = service.admission := rfl

@[simp] theorem with_consumers_conversations :
    (service.withConsumers consumers).conversations = service.conversations := rfl

@[simp] theorem with_consumers_inserts :
    (service.withConsumers consumers).inserts = service.inserts := rfl

@[simp] theorem with_consumers_threads :
    (service.withConsumers consumers).threads = service.threads := rfl

@[simp] theorem with_consumers_consumers :
    (service.withConsumers consumers).consumers = consumers := rfl

end WithConsumers

/-- The service up to the state its consumers are in. -/
def execution (service : Service) : Service :=
  service.withConsumers (List.replicate service.consumers.length .gone)

/-- The active keys, the accepting flag and the runtime calls so far. -/
structure Observation where
  activeKeys : List String
  accepting : Bool
  calls : List PortCall
  deriving DecidableEq

def observation (service : Service) : Observation where
  activeKeys := service.admission.tasks.keys
  accepting := service.admission.accepting
  calls := service.calls

/-- Every awaiting consumer is behind a shield, and every streaming task has its stream. -/
structure Wired (service : Service) : Prop where
  shielded : ∀ consumer ∈ service.consumers, Shielded consumer
  streams : ∀ entry ∈ service.admission.tasks.entries, entry.2.operation.streams = true →
    ∃ stream : Stream, service.consumers[entry.2.consumer]? = some (Consumer.streaming stream)

theorem wired_new (limit : Nat) (positive : 1 ≤ limit) (conversations : List Conversation) :
    Wired (new limit positive conversations) where
  shielded := by simp [new]
  streams := by simp [new, AdmissionController.new, Dict.empty]

theorem wired_effect {service next : Service} {label : Label} (wired : Wired service)
    (effect : Effect service label next) : Wired next := by
  cases effect with
  | refused operation => exact wired
  | admitted operation resolved accepting room free =>
      refine ⟨?_, ?_⟩
      · intro consumer member
        rcases List.mem_append.mp member with old | opened
        · exact wired.shielded consumer old
        · rw [List.mem_singleton.mp opened]
          cases operation <;> trivial
      · intro entry member streaming
        rcases (Dict.mem_insert_new _ _ _ free _).mp member with old | rfl
        · obtain ⟨stream, there⟩ := wired.streams entry old streaming
          exact ⟨stream, by
            rw [List.getElem?_append_left (List.getElem?_eq_some_iff.mp there).1, there]⟩
        · cases operation <;> simp_all [Operation.streams, openConsumer]
  | continued label key task next calls consumers answers found continues kept =>
      refine ⟨kept.shielded wired.shielded, ?_⟩
      intro entry member streaming
      rcases (Dict.mem_modify _ _ _ _).mp member with ⟨old, _⟩ | ⟨_, _, rfl⟩
      · obtain ⟨stream, there⟩ := wired.streams entry old streaming
        exact kept.streams _ stream there
      · simp only [continues.operation] at streaming
        obtain ⟨stream, there⟩ := wired.streams _ found streaming
        obtain ⟨other, after⟩ := kept.streams _ stream there
        exact ⟨other, by rw [continues.consumer, after]⟩
  | threadCreated key task principal row call found calling operation fresh named =>
      refine ⟨wired.shielded, ?_⟩
      intro entry member streaming
      rcases (Dict.mem_modify _ _ _ _).mp member with ⟨old, _⟩ | ⟨_, _, rfl⟩
      · exact wired.streams entry old streaming
      · exact wired.streams (key, task) found streaming
  | left label key task ending found ends =>
      have kept := notify_kept task ending service.consumers
      refine ⟨kept.shielded wired.shielded, ?_⟩
      intro entry member streaming
      obtain ⟨stream, there⟩ :=
        wired.streams entry ((Dict.mem_pop _ _ _).mp member).1 streaming
      exact kept.streams _ stream there
  | committed row rows pending created => exact ⟨wired.shielded, wired.streams⟩
  | insertFailed row pending => exact ⟨wired.shielded, wired.streams⟩
  | drained => exact ⟨wired.shielded, wired.streams⟩
  | cancelledAll label change consumers answers continues kept =>
      refine ⟨kept.shielded wired.shielded, ?_⟩
      intro entry member streaming
      obtain ⟨task, found, changed⟩ := (Dict.mem_map_values _ _ _).mp member
      rw [changed, (continues task).operation] at streaming
      obtain ⟨stream, there⟩ := wired.streams _ found streaming
      obtain ⟨other, after⟩ := kept.streams _ stream there
      exact ⟨other, by rw [changed, (continues task).consumer, after]⟩
  | consumed index action consumers kept =>
      refine ⟨kept.shielded wired.shielded, ?_⟩
      intro entry member streaming
      obtain ⟨stream, there⟩ := wired.streams entry member streaming
      exact kept.streams _ stream there

theorem execution_eq {left right : Service} (same : left.execution = right.execution) :
    right = left.withConsumers right.consumers ∧
      right.consumers.length = left.consumers.length := by
  cases left
  cases right
  simp only [execution, withConsumers, mk.injEq, List.replicate_inj] at same ⊢
  simp_all

/-- A consumer's step touches its own entry only. -/
theorem consumer_hidden {service next : Service} {index : Nat} {action : ConsumerAction}
    (wired : Wired service) (stepped : service.step (.consumer index action) = some next) :
    next.execution = service.execution := by
  simp only [step, consume] at stepped
  split at stepped
  · cases stepped
    simp [execution, withConsumers]
  · rename_i target _ there
    cases stepped
    have shielded := wired.shielded _ (List.mem_of_getElem? there)
    cases target with
    | task other => cases shielded
    | shield other => simp [execution, withConsumers, cancelAwaited]
  · obtain ⟨stream, _, rfl⟩ := Option.map_eq_some_iff.mp stepped
    simp [execution, withConsumers]
  · cases stepped

section Execution

variable (service : Service) (consumers : List Consumer)
  (same : consumers.length = service.consumers.length)

include same

theorem leave_execution (key : String) (task : Task) (ending : Except RuntimeFault Value) :
    ((service.withConsumers consumers).leave key task ending).execution =
      (service.leave key task ending).execution := by
  simp [execution, withConsumers, leave, same]

theorem submit_execution (operation : Operation) :
    ((service.withConsumers consumers).submit operation).map execution =
      (service.submit operation).map execution := by
  have resolves_eq : (service.withConsumers consumers).resolves operation =
      service.resolves operation := rfl
  simp only [submit, resolves_eq, with_consumers_admission, with_consumers_consumers, same]
  split_ifs
  · cases service.admission.submit operation.key
      { consumer := service.consumers.length, operation := operation } with
    | error _ => simp [execution, withConsumers, same]
    | ok admission => simp [execution, withConsumers, same]
  · rfl

theorem start_execution (key : String) (task : Task) :
    ((service.withConsumers consumers).start key task).map execution =
      (service.start key task).map execution := by
  unfold start
  split
  · split_ifs <;> simp [execution, withConsumers, setTask, same]
  · rfl

theorem thread_created_execution (key : String) (task : Task) (principal : ServicePrincipal)
    (threadId : String) :
    ((service.withConsumers consumers).threadCreated key task principal threadId).map execution =
      (service.threadCreated key task principal threadId).map execution := by
  unfold threadCreated
  by_cases used : threadId ∈ service.threads.map Prod.fst
  · rw [if_pos used, if_pos (show threadId ∈ (service.withConsumers consumers).threads.map Prod.fst
      from used)]
  · rw [if_neg used, if_neg (show threadId ∉ (service.withConsumers consumers).threads.map Prod.fst
      from used)]
    simp [execution, withConsumers, proceed, setTask, same]

theorem settle_execution (result : Except RuntimeFault Value) (key : String) (task : Task) :
    ((service.withConsumers consumers).settle result key task).map execution =
      (service.settle result key task).map execution := by
  unfold settle
  split
  · split_ifs
    · split
      · exact thread_created_execution service consumers same key task _ _
      · simp [leave_execution, same]
    · rfl
  · split_ifs
    · split <;> simp [leave_execution, same]
    · rfl
  · rfl

theorem stored_execution (key : String) (task : Task) :
    ((service.withConsumers consumers).stored key task).map execution =
      (service.stored key task).map execution := by
  unfold stored
  split
  · rename_i row _
    have waits_eq : (task.cancelling || !(service.withConsumers consumers).conversations.contains row) =
        (task.cancelling || !service.conversations.contains row) := rfl
    rw [waits_eq]
    split_ifs
    · rfl
    · simp [leave_execution, same]
  · rfl

theorem commit_execution (row : Conversation) :
    ((service.withConsumers consumers).commit row).map execution =
      (service.commit row).map execution := by
  unfold commit
  by_cases pending : row ∈ service.inserts
  · rw [if_pos pending,
      if_pos (show row ∈ (service.withConsumers consumers).inserts from pending)]
    simp only [with_consumers_conversations]
    cases ConversationRepository.create service.conversations row <;>
      simp [execution, withConsumers, same]
  · rw [if_neg pending,
      if_neg (show row ∉ (service.withConsumers consumers).inserts from pending)]

theorem insert_fails_execution (row : Conversation) :
    ((service.withConsumers consumers).insertFails row).map execution =
      (service.insertFails row).map execution := by
  have inserts_eq : (service.withConsumers consumers).inserts = service.inserts := rfl
  simp only [insertFails, inserts_eq]
  split_ifs
  · simp [execution, withConsumers, same]
  · rfl

theorem store_fails_execution (key : String) (task : Task) :
    ((service.withConsumers consumers).storeFails key task).map execution =
      (service.storeFails key task).map execution := by
  unfold storeFails
  split
  · split_ifs
    · rfl
    · simp [execution, withConsumers, setTask, same]
  · rfl

theorem store_cancelled_execution (key : String) (task : Task) :
    ((service.withConsumers consumers).storeCancelled key task).map execution =
      (service.storeCancelled key task).map execution := by
  unfold storeCancelled
  split
  · split_ifs
    · simp [leave_execution, same]
    · rfl
  · rfl

/-- The producer's step looks at the subscription, but no subscription can make it fail. -/
theorem emit_execution (event : AgentEvent) (key : String) (task : Task)
    (left : task.operation.streams = true →
      ∃ stream : Stream, service.consumers[task.consumer]? = some (Consumer.streaming stream))
    (right : task.operation.streams = true →
      ∃ stream : Stream, consumers[task.consumer]? = some (Consumer.streaming stream)) :
    ((service.withConsumers consumers).emit event key task).map execution =
      (service.emit event key task).map execution := by
  have refuses : ∀ other : Service,
      (∀ threadId conversationId message principal,
        task.phase ≠ .calling (.streamTurn threadId conversationId message principal)) ∨
        task.operation.streams = false → other.emit event key task = none := by
    intro other idle
    unfold emit
    split
    · rename_i calling operation _
      rcases idle with notCalling | notStreaming
      · exact absurd calling (notCalling _ _ _ _)
      · simp [operation, Operation.streams] at notStreaming
    · rfl
  cases streaming : task.operation.streams with
  | false => rw [refuses _ (.inr streaming), refuses _ (.inr streaming)]
  | true =>
      obtain ⟨leftStream, leftThere⟩ := left streaming
      obtain ⟨rightStream, rightThere⟩ := right streaming
      obtain ⟨leftNext, leftPublished⟩ := leftStream.subscription.publish_never_raises event
      obtain ⟨rightNext, rightPublished⟩ := rightStream.subscription.publish_never_raises event
      obtain ⟨conversation, message, principal, operation⟩ :
          ∃ conversation message principal,
            task.operation = .openStream conversation message principal := by
        cases operation : task.operation <;> simp_all [Operation.streams]
      by_cases calling : ∃ threadId conversationId message principal,
          task.phase = .calling (.streamTurn threadId conversationId message principal)
      · obtain ⟨threadId, conversationId, text, caller, calling⟩ := calling
        simp [emit, withConsumers, calling, operation, leftThere, rightThere, leftPublished,
          rightPublished, execution, setTask, same]
      · have notCalling : ∀ threadId conversationId message principal,
            task.phase ≠ .calling (.streamTurn threadId conversationId message principal) := by
          intro threadId conversationId message principal here
          exact calling ⟨threadId, conversationId, message, principal, here⟩
        rw [refuses _ (.inl notCalling), refuses _ (.inl notCalling)]

omit same in
theorem on_task_execution (key : String) (action : Service → String → Task → Option Service)
    (acts : ∀ task, (key, task) ∈ service.admission.tasks.entries →
      (action (service.withConsumers consumers) key task).map execution =
        (action service key task).map execution) :
    ((service.withConsumers consumers).onTask key action).map execution =
      (service.onTask key action).map execution := by
  have tasks_eq : (service.withConsumers consumers).admission.tasks.get? key =
      service.admission.tasks.get? key := rfl
  simp only [onTask, tasks_eq]
  cases found : service.admission.tasks.get? key with
  | none => rfl
  | some task => exact acts task ((service.admission.tasks.get?_eq_some_iff key task).mp found)

/-- A step of the execution does to the execution the same whatever its consumers are doing. -/
theorem step_execution (label : Label) (ofExecution : label.ofExecution = true)
    (left : Wired service) (right : Wired (service.withConsumers consumers)) :
    ((service.withConsumers consumers).step label).map execution =
      (service.step label).map execution := by
  cases label with
  | submit operation => exact submit_execution service consumers same operation
  | start key =>
      exact on_task_execution service consumers key _ fun task _ =>
        start_execution service consumers same key task
  | settle key result =>
      exact on_task_execution service consumers key _ fun task _ =>
        settle_execution service consumers same result key task
  | emit key event =>
      exact on_task_execution service consumers key _ fun task found =>
        emit_execution service consumers same event key task (left.streams _ found)
          (right.streams _ found)
  | commit row => exact commit_execution service consumers same row
  | insertFails row => exact insert_fails_execution service consumers same row
  | stored key =>
      exact on_task_execution service consumers key _ fun task _ =>
        stored_execution service consumers same key task
  | storeFails key =>
      exact on_task_execution service consumers key _ fun task _ =>
        store_fails_execution service consumers same key task
  | storeCancelled key =>
      exact on_task_execution service consumers key _ fun task _ =>
        store_cancelled_execution service consumers same key task
  | deadline key =>
      refine on_task_execution service consumers key _ fun task _ => ?_
      unfold deadline
      split_ifs <;> simp [execution, withConsumers, setTask, same]
  | cancel key =>
      refine on_task_execution service consumers key _ fun task _ => ?_
      unfold cancel
      split_ifs <;> simp [execution, withConsumers, setTask, same]
  | drain => simp [step, execution, withConsumers, same]
  | cancelAfterRuntimeClosed => simp [step, execution, withConsumers, same]
  | consumer index action => cases ofExecution

end Execution

/-- Consumers' steps are invisible, and nothing visible depends on them. -/
theorem execution_unwinds :
    machine.Unwinds Label.ofExecution execution Wired where
  keeps _ _ _ wired stepped := wired_effect wired (step_effect stepped)
  hidden := by
    intro service label next wired hidden stepped
    cases label with
    | consumer index action => exact consumer_hidden wired stepped
    | _ => cases hidden
  consistent := by
    intro left right label next leftWired rightWired same visible stepped
    obtain ⟨right_eq, length_eq⟩ := execution_eq same
    rw [right_eq] at rightWired ⊢
    have mirrored := step_execution left right.consumers length_eq label visible leftWired rightWired
    have leftStepped : left.step label = some next := stepped
    rw [leftStepped, Option.map_some] at mirrored
    obtain ⟨other, otherStepped, other_eq⟩ := Option.map_eq_some_iff.mp mirrored
    exact ⟨other, otherStepped, other_eq⟩

/-- Services that differ in the state of their consumers alone have the same execution steps before
them. -/
theorem same_execution_enables {left right : Service} (leftWired : Wired left)
    (rightWired : Wired right) (same : left.execution = right.execution) (label : Label)
    (visible : label.ofExecution = true) :
    (left.step label).isSome = (right.step label).isSome := by
  have mirrors : ∀ {first second : Service}, Wired first → Wired second →
      first.execution = second.execution → (first.step label).isSome = true →
      (second.step label).isSome = true := by
    intro first second firstWired secondWired agree enabled
    obtain ⟨next, stepped⟩ := Option.isSome_iff_exists.mp enabled
    obtain ⟨other, mirrored, _⟩ := execution_unwinds.consistent first second label next firstWired
      secondWired agree visible stepped
    exact Option.isSome_iff_exists.mpr ⟨other, mirrored⟩
  rw [Bool.eq_iff_iff]
  exact ⟨mirrors leftWired rightWired same, mirrors rightWired leftWired same.symm⟩

theorem observation_execution (service : Service) :
    service.execution.observation = service.observation := rfl

/-- Runs that agree on everything but the consumers' steps go through the same admission states,
make the same runtime calls and can go on with the same steps; publishing returns whatever state a
subscription is in. -/
theorem consumers_do_not_own_execution (limit : Nat) (positive : 1 ≤ limit)
    (conversations : List Conversation) (left right : List Label) (leftFinal rightFinal : Service)
    (leftRun : machine.run (new limit positive conversations) left = some leftFinal)
    (rightRun : machine.run (new limit positive conversations) right = some rightFinal)
    (agree : left.filter Label.ofExecution = right.filter Label.ofExecution) :
    machine.trace Label.ofExecution observation (new limit positive conversations) left =
        machine.trace Label.ofExecution observation (new limit positive conversations) right ∧
      leftFinal.observation = rightFinal.observation ∧
      (∀ label : Label, label.ofExecution = true →
        (machine.step leftFinal label).isSome = (machine.step rightFinal label).isSome) ∧
      ∀ (subscription : EventSubscription) (event : AgentEvent),
        ∃ next, subscription.publish event = .ok next := by
  have initial := wired_new limit positive conversations
  obtain ⟨traces, finals⟩ := Machine.traces_agree execution_unwinds initial leftRun rightRun agree
  have leftWired := machine.run_invariant Wired execution_unwinds.keeps initial leftRun
  have rightWired := machine.run_invariant Wired execution_unwinds.keeps initial rightRun
  have coarse := fun labels => Machine.trace_map Label.ofExecution execution machine
    observation (new limit positive conversations) labels
  simp only [observation_execution] at coarse
  refine ⟨?_, ?_, same_execution_enables leftWired rightWired finals,
    EventSubscription.publish_never_raises⟩
  · rw [coarse left, coarse right, traces]
  · rw [← observation_execution leftFinal, ← observation_execution rightFinal, finals]

/-- A stream whose client reads along, and the same stream with a client that is gone. -/
def streamingRun (consumer : List Label) : List Label :=
  let conversation : Conversation :=
    { id := "c", tenantId := "t", userId := "u", runtimeThreadId := "r" }
  let principal : ServicePrincipal := { userId := "u", tenantId := "t", roles := ∅ }
  [.submit (.openStream conversation "hi" principal), .start "c",
    .emit "c" { type := "turn.started", conversationId := "c" }] ++ consumer ++
    [.settle "c" (.ok .done)]

/-- How many events of its stream a consumer has received. -/
def received : Consumer → Nat
  | .streaming stream => stream.delivered.length
  | _ => 0

theorem disconnect_changes_nothing :
    ∃ reading leaving : Service,
      machine.run (new 1 (by decide) [⟨"c", "t", "u", "r"⟩])
        (streamingRun [.consumer 0 .resume]) = some reading ∧
      machine.run (new 1 (by decide) [⟨"c", "t", "u", "r"⟩])
        (streamingRun [.consumer 0 .cancel]) = some leaving ∧
      reading.consumers ≠ leaving.consumers ∧ reading.observation = leaving.observation := by
  have reads : (machine.run (new 1 (by decide) [⟨"c", "t", "u", "r"⟩])
      (streamingRun [.consumer 0 .resume])).isSome = true := by decide
  have leaves : (machine.run (new 1 (by decide) [⟨"c", "t", "u", "r"⟩])
      (streamingRun [.consumer 0 .cancel])).isSome = true := by decide
  have agree := consumers_do_not_own_execution 1 (by decide) [⟨"c", "t", "u", "r"⟩] _ _ _ _
    (Option.some_get reads).symm (Option.some_get leaves).symm rfl
  refine ⟨_, _, (Option.some_get reads).symm, (Option.some_get leaves).symm, ?_, agree.2.1⟩
  intro same
  have counts := congrArg (List.map received) same
  exact absurd counts (by decide : ¬ [1] = [0])

end Service

end AgentHarness.Services
