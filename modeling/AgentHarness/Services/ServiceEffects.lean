import AgentHarness.Services.AgentService

/-!
# What one step can do to the admission side

`Effect` lists the changes a step can make to the slot table and the remote bookkeeping. Every
invariant of the service is proved from it.
-/

namespace AgentHarness.Services

open AgentHarness.Library AgentHarness.Events AgentHarness.Runtime AgentHarness.Conversations

set_option autoImplicit false

/-- The runtime thread the operation of a task works on, once it has one. -/
def Task.threadId (task : Task) : Option String :=
  match task.operation.resolved with
  | some (conversation, _) => some conversation.runtimeThreadId
  | none =>
      match task.phase with
      | .storing row | .archiving row => some row.runtimeThreadId
      | _ => none

namespace Service

/-- The labels by which a started operation goes on to its end. -/
def Label.answers : Label → Bool
  | .settle _ _ | .stored _ | .storeCancelled _ => true
  | _ => false

/-- How a label ends the task it is about. -/
inductive Ends (key : String) (task : Task) : Label → Except RuntimeFault Value → Prop where
  | called (call : PortCall) (result : Except RuntimeFault Value)
      (phase : task.phase = .calling call) : Ends key task (.settle key result) result
  | archived (row : Conversation) (value : Value) (phase : task.phase = .archiving row) :
      Ends key task (.settle key (.ok value)) (.error .failed)
  | archiveFailed (row : Conversation) (fault : RuntimeFault)
      (phase : task.phase = .archiving row) :
      Ends key task (.settle key (.error fault)) (.error fault)
  | stored (row : Conversation) (phase : task.phase = .storing row) :
      Ends key task (.stored key) (.ok (.conversation row))
  | storeCancelled (row : Conversation) (phase : task.phase = .storing row) :
      Ends key task (.storeCancelled key) (.error .cancelled)

/-- The task after a step that keeps its slot. -/
structure Continues (task next : Task) : Prop where
  consumer : next.consumer = task.consumer
  operation : next.operation = task.operation
  threadId : next.threadId = task.threadId

/-- A coroutine that awaits a task awaits it through a shield. -/
def Shielded : Consumer → Prop
  | .awaiting (.task _) _ => False
  | _ => True

/-- What steps do to the consumers that exist: streams stay streams, shields stay shields. -/
structure ConsumersKept (before after : List Consumer) : Prop where
  streams : ∀ (index : Nat) (stream : Stream), before[index]? = some (Consumer.streaming stream) →
    ∃ next : Stream, after[index]? = some (Consumer.streaming next)
  shielded : (∀ consumer ∈ before, Shielded consumer) → ∀ consumer ∈ after, Shielded consumer

inductive Effect (service : Service) : Label → Service → Prop where
  | refused (operation : Operation) : Effect service (.submit operation) service
  | admitted (operation : Operation)
      (resolved : service.resolves operation = true)
      (accepting : service.admission.accepting = true)
      (room : service.admission.tasks.size < service.admission.limit)
      (free : operation.key ∉ service.admission.tasks.keys) :
      Effect service (.submit operation)
        { service with
          admission := { service.admission with
            tasks := service.admission.tasks.insertNew operation.key
              { consumer := service.consumers.length, operation := operation } free }
          consumers :=
            service.consumers ++ [openConsumer operation service.consumers.length] }
  | continued (label : Label) (key : String) (task next : Task) (calls : List PortCall)
      (consumers : List Consumer) (answers : label.answers = false)
      (found : (key, task) ∈ service.admission.tasks.entries) (continues : Continues task next)
      (kept : ConsumersKept service.consumers consumers) :
      Effect service label
        { service.setTask key next with calls := calls, consumers := consumers }
  | threadCreated (key : String) (task : Task) (principal : ServicePrincipal) (row : Conversation)
      (call : PortCall) (found : (key, task) ∈ service.admission.tasks.entries)
      (calling : task.phase = .calling call)
      (operation : task.operation = .createConversation task.operation.key principal)
      (fresh : row.runtimeThreadId ∉ service.threads.map Prod.fst) (named : row.id = key) :
      Effect service (.settle key (.ok (.thread row.runtimeThreadId)))
        { service.proceed key task (.storing row) with
          inserts := service.inserts ++ [row]
          threads := service.threads ++ [(row.runtimeThreadId, key)] }
  | left (label : Label) (key : String) (task : Task) (ending : Except RuntimeFault Value)
      (found : (key, task) ∈ service.admission.tasks.entries)
      (ends : Ends key task label ending) : Effect service label (service.leave key task ending)
  | committed (row : Conversation) (rows : List Conversation) (pending : row ∈ service.inserts)
      (created : ConversationRepository.create service.conversations row = some rows) :
      Effect service (.commit row)
        { service with conversations := rows, inserts := service.inserts.erase row }
  | insertFailed (row : Conversation) (pending : row ∈ service.inserts) :
      Effect service (.insertFails row) { service with inserts := service.inserts.erase row }
  | drained : Effect service .drain { service with admission := service.admission.drain }
  | cancelledAll (label : Label) (change : Task → Task) (consumers : List Consumer)
      (answers : label.answers = false)
      (continues : ∀ task, Continues task (change task))
      (kept : ConsumersKept service.consumers consumers) :
      Effect service label
        { service with admission := service.admission.cancelAll change, consumers := consumers }
  | consumed (index : Nat) (action : ConsumerAction) (consumers : List Consumer)
      (kept : ConsumersKept service.consumers consumers) :
      Effect service (.consumer index action) { service with consumers := consumers }

theorem consumers_kept_refl (consumers : List Consumer) : ConsumersKept consumers consumers where
  streams _ stream there := ⟨stream, there⟩
  shielded shielded := shielded

/-- Changing one consumer by a function that keeps streams and shields. -/
theorem consumers_kept_modify (consumers : List Consumer) (index : Nat)
    (change : Consumer → Consumer)
    (stream : ∀ stream : Stream, ∃ next : Stream, change (.streaming stream) = .streaming next)
    (shield : ∀ consumer, Shielded consumer → Shielded (change consumer)) :
    ConsumersKept consumers (consumers.modify index change) where
  streams other found there := by
    rw [List.getElem?_modify, there]
    by_cases here : index = other
    · obtain ⟨next, changed⟩ := stream found
      exact ⟨next, by simp [here, changed]⟩
    · exact ⟨found, by simp [here]⟩
  shielded shielded := by
    intro consumer member
    obtain ⟨other, there⟩ := List.mem_iff_getElem?.mp member
    rw [List.getElem?_modify] at there
    obtain ⟨old, before, rfl⟩ := Option.map_eq_some_iff.mp there
    have oldShielded := shielded old (List.mem_of_getElem? before)
    by_cases here : index = other
    · simpa [here] using shield old oldShielded
    · simpa [here] using oldShielded

theorem consumers_kept_set (consumers : List Consumer) (index : Nat) (old new : Consumer)
    (there : consumers[index]? = some old)
    (stream : ∀ stream : Stream, old = .streaming stream →
      ∃ next : Stream, new = .streaming next)
    (shield : Shielded new) : ConsumersKept consumers (consumers.set index new) where
  streams other found here := by
    rw [List.getElem?_set]
    split_ifs with same inside
    · subst same
      have old_eq : old = .streaming found := Option.some.inj (there.symm.trans here)
      obtain ⟨next, new_eq⟩ := stream found old_eq
      exact ⟨next, by rw [new_eq]⟩
    · subst same
      simp [inside] at here
    · exact ⟨found, here⟩
  shielded shielded := by
    intro consumer member
    rcases List.mem_or_eq_of_mem_set member with before | rfl
    · exact shielded consumer before
    · exact shield

theorem notify_kept (task : Task) (ending : Except RuntimeFault Value) (consumers : List Consumer) :
    ConsumersKept consumers (consumers.modify task.consumer (notify task ending)) := by
  refine consumers_kept_modify _ _ _ (fun stream => ⟨_, rfl⟩) ?_
  intro consumer shielded
  cases consumer with
  | awaiting target result => cases target <;> exact shielded
  | streaming stream => trivial
  | gone => trivial

theorem continues_same_phase {task next : Task} (consumer : next.consumer = task.consumer)
    (operation : next.operation = task.operation) (phase : next.phase = task.phase) :
    Continues task next where
  consumer := consumer
  operation := operation
  threadId := by simp [Task.threadId, operation, phase]

theorem continues_cancel_for (consumer : Nat) (task : Task) :
    Continues task (task.cancelFor consumer) := by
  unfold Task.cancelFor
  split_ifs
  · exact continues_same_phase rfl rfl rfl
  · exact continues_same_phase rfl rfl rfl

theorem on_task_eq_some {service next : Service} {key : String}
    {action : Service → String → Task → Option Service}
    (acted : service.onTask key action = some next) :
    ∃ task, (key, task) ∈ service.admission.tasks.entries ∧
      action service key task = some next := by
  obtain ⟨task, found, acted⟩ := Option.bind_eq_some_iff.mp acted
  exact ⟨task, (service.admission.tasks.get?_eq_some_iff key task).mp found, acted⟩

theorem submit_effect {service next : Service} {operation : Operation}
    (submitted : service.submit operation = some next) :
    Effect service (.submit operation) next := by
  unfold submit at submitted
  split_ifs at submitted with resolved
  split at submitted
  · cases submitted
    exact .refused operation
  · rename_i admission admits
    obtain ⟨accepting, room, free, rfl⟩ := (service.admission.submit_eq_ok_iff ..).mp admits
    cases submitted
    exact .admitted operation resolved accepting room free

theorem start_effect {service next : Service} {key : String} {task : Task}
    (found : (key, task) ∈ service.admission.tasks.entries)
    (started : service.start key task = some next) : Effect service (.start key) next := by
  unfold start at started
  split at started
  · rename_i scheduled
    have keeps : ∀ phase, (∀ row, phase ≠ .storing row) → (∀ row, phase ≠ .archiving row) →
        Continues task { task with phase := phase } := by
      intro phase notStoring notArchiving
      refine ⟨rfl, rfl, ?_⟩
      cases phase <;> simp_all [Task.threadId]
    split_ifs at started
    · cases started
      refine .continued _ key task _ service.calls _ rfl found
        (keeps .dropped (by simp) (by simp)) ?_
      refine consumers_kept_modify _ _ _ (fun stream => ⟨stream, rfl⟩) ?_
      intro consumer shielded
      split
      · rename_i target _
        cases target <;> exact shielded
      · exact shielded
    · cases started
      exact .continued _ key task _ _ service.consumers rfl found
        (keeps (.calling task.operation.firstCall) (by simp) (by simp)) (consumers_kept_refl _)
  · cases started

theorem settle_effect {service next : Service} {key : String} {task : Task}
    {result : Except RuntimeFault Value}
    (found : (key, task) ∈ service.admission.tasks.entries)
    (settled : service.settle result key task = some next) :
    Effect service (.settle key result) next := by
  unfold settle at settled
  split at settled
  · rename_i call calling
    split_ifs at settled
    split at settled
    · rename_i conversationId principal threadId operation _
      unfold threadCreated at settled
      split_ifs at settled with used
      cases settled
      refine .threadCreated key task principal
        { id := key, tenantId := principal.tenantId, userId := principal.userId
          runtimeThreadId := threadId } call found calling ?_ used rfl
      simp [operation, Operation.key]
    · cases settled
      exact .left _ key task _ found (.called call _ calling)
  · rename_i row archiving
    split_ifs at settled
    split at settled
    · rename_i value _
      cases settled
      exact .left _ key task _ found (.archived row value archiving)
    · rename_i fault _
      cases settled
      exact .left _ key task _ found (.archiveFailed row fault archiving)
  · cases settled

theorem emit_effect {service next : Service} {key : String} {task : Task} {event : AgentEvent}
    (found : (key, task) ∈ service.admission.tasks.entries)
    (emitted : service.emit event key task = some next) :
    Effect service (.emit key event) next := by
  unfold emit at emitted
  split at emitted
  · rename_i stream _ _ there
    obtain ⟨subscription, published⟩ := stream.subscription.publish_never_raises event
    rw [published] at emitted
    cases emitted
    exact .continued _ key task _ service.calls _ rfl found (continues_same_phase rfl rfl rfl)
      (consumers_kept_set _ _ _ _ there (fun _ _ => ⟨_, rfl⟩) trivial)
  · cases emitted

theorem store_fails_effect {service next : Service} {key : String} {task : Task}
    (found : (key, task) ∈ service.admission.tasks.entries)
    (failed : service.storeFails key task = some next) :
    Effect service (.storeFails key) next := by
  unfold storeFails at failed
  split at failed
  · rename_i row storing
    split_ifs at failed
    cases failed
    refine .continued _ key task _ _ service.consumers rfl found ⟨rfl, rfl, ?_⟩
      (consumers_kept_refl _)
    simp [Task.threadId, storing]
  · cases failed

theorem consume_effect {service next : Service} {index : Nat} {action : ConsumerAction}
    (consumed : service.consume index action = some next) :
    Effect service (.consumer index action) next := by
  unfold consume at consumed
  split at consumed
  · rename_i there
    cases consumed
    exact .consumed index _ _
      (consumers_kept_set _ _ _ _ there (fun _ contradiction => by cases contradiction) trivial)
  · rename_i target _ there
    cases consumed
    have kept := consumers_kept_set service.consumers index _ .gone there
      (fun _ contradiction => by cases contradiction) trivial
    cases target with
    | task other => exact .cancelledAll _ _ _ rfl (continues_cancel_for other) kept
    | shield other => exact .consumed index _ _ kept
  · rename_i there
    obtain ⟨stream, _, rfl⟩ := Option.map_eq_some_iff.mp consumed
    exact .consumed index _ _
      (consumers_kept_set _ _ _ _ there (fun _ _ => ⟨stream, rfl⟩) trivial)
  · cases consumed

theorem step_effect {service next : Service} {label : Label}
    (stepped : service.step label = some next) : Effect service label next := by
  cases label with
  | submit operation => exact submit_effect stepped
  | start key =>
      obtain ⟨task, found, started⟩ := on_task_eq_some stepped
      exact start_effect found started
  | settle key result =>
      obtain ⟨task, found, settled⟩ := on_task_eq_some stepped
      exact settle_effect found settled
  | emit key event =>
      obtain ⟨task, found, emitted⟩ := on_task_eq_some stepped
      exact emit_effect found emitted
  | commit row =>
      simp only [step, commit] at stepped
      split_ifs at stepped with pending
      obtain ⟨rows, created, rfl⟩ := Option.map_eq_some_iff.mp stepped
      exact .committed row rows pending created
  | insertFails row =>
      simp only [step, insertFails] at stepped
      split_ifs at stepped with pending
      cases stepped
      exact .insertFailed row pending
  | stored key =>
      obtain ⟨task, found, stepped⟩ := on_task_eq_some stepped
      unfold stored at stepped
      split at stepped
      · rename_i row storing
        split_ifs at stepped
        cases stepped
        exact .left _ key task _ found (.stored row storing)
      · cases stepped
  | storeFails key =>
      obtain ⟨task, found, failed⟩ := on_task_eq_some stepped
      exact store_fails_effect found failed
  | storeCancelled key =>
      obtain ⟨task, found, stepped⟩ := on_task_eq_some stepped
      unfold storeCancelled at stepped
      split at stepped
      · rename_i row storing
        split_ifs at stepped
        cases stepped
        exact .left _ key task _ found (.storeCancelled row storing)
      · cases stepped
  | deadline key =>
      obtain ⟨task, found, stepped⟩ := on_task_eq_some stepped
      simp only [deadline] at stepped
      split_ifs at stepped
      cases stepped
      exact .continued _ key task _ service.calls service.consumers rfl found
        (continues_same_phase rfl rfl rfl) (consumers_kept_refl _)
  | cancel key =>
      obtain ⟨task, found, stepped⟩ := on_task_eq_some stepped
      simp only [cancel] at stepped
      split_ifs at stepped
      cases stepped
      exact .continued _ key task _ service.calls service.consumers rfl found
        (continues_same_phase rfl rfl rfl) (consumers_kept_refl _)
  | drain =>
      cases stepped
      exact .drained
  | cancelAfterRuntimeClosed =>
      cases stepped
      exact .cancelledAll _ _ service.consumers rfl (fun task => continues_same_phase rfl rfl rfl)
        (consumers_kept_refl _)
  | consumer index action => exact consume_effect stepped

end Service

end AgentHarness.Services
