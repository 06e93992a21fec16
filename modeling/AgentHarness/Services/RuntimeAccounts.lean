import AgentHarness.Services.AdmissionCauses
import AgentHarness.Services.ThreadCustody

/-!
# What the runtime was asked for whom

Every call of the runtime port, and every answer to one, is booked for the consumer whose task it
belongs to. The books of a consumer are an initial part of the course its operation can take, and
once they are closed nothing is added to them.
-/

namespace AgentHarness.Services

open AgentHarness.Library AgentHarness.Events AgentHarness.Runtime AgentHarness.Conversations

set_option autoImplicit false

/-- What happens between an admitted operation and the runtime port. -/
inductive Exchange where
  | admitted (operation : Operation)
  | called (call : PortCall)
  | ended (result : Except RuntimeFault Value)
  deriving DecidableEq

def Exchange.call? : Exchange → Option PortCall
  | .called call => some call
  | _ => none

/-- An exchange, booked for a consumer. -/
abbrev Note : Type := Nat × Exchange

def exchanges (notes : List Note) (consumer : Nat) : List Exchange :=
  notes.filterMap fun note => if note.1 = consumer then some note.2 else none

/-- What the phase of a task says about its exchanges. -/
def Task.exchanges (task : Task) : List Exchange :=
  match task.phase with
  | .scheduled | .dropped => [.admitted task.operation]
  | .calling call => [.admitted task.operation, .called call]
  | .storing row =>
      [.admitted task.operation, .called task.operation.firstCall,
        .ended (.ok (.thread row.runtimeThreadId))]
  | .archiving row =>
      [.admitted task.operation, .called task.operation.firstCall,
        .ended (.ok (.thread row.runtimeThreadId)), .called (.archiveThread row.runtimeThreadId)]

/-- The row a creation inserts. -/
def conversationRow (conversationId : String) (principal : ServicePrincipal) (threadId : String) :
    Conversation :=
  { id := conversationId, tenantId := principal.tenantId, userId := principal.userId
    runtimeThreadId := threadId }

/-- The whole course of an operation, and how it ends. -/
inductive Course (rows : List Conversation) :
    List Exchange → Except RuntimeFault Value → Prop where
  | called (operation : Operation) (result : Except RuntimeFault Value)
      (returns : operation.firstCall.returnsResult result = true)
      (existing : ∀ value, result = .ok value → operation.resolved ≠ none) :
      Course rows [.admitted operation, .called operation.firstCall, .ended result] result
  | stored (conversationId : String) (principal : ServicePrincipal) (threadId : String)
      (inserted : conversationRow conversationId principal threadId ∈ rows) :
      Course rows
        [.admitted (.createConversation conversationId principal),
          .called (.createThread principal), .ended (.ok (.thread threadId))]
        (.ok (.conversation (conversationRow conversationId principal threadId)))
  | storeCancelled (conversationId : String) (principal : ServicePrincipal) (threadId : String) :
      Course rows
        [.admitted (.createConversation conversationId principal),
          .called (.createThread principal), .ended (.ok (.thread threadId))]
        (.error .cancelled)
  | archived (conversationId : String) (principal : ServicePrincipal) (threadId : String)
      (value : Value) :
      Course rows
        [.admitted (.createConversation conversationId principal),
          .called (.createThread principal), .ended (.ok (.thread threadId)),
          .called (.archiveThread threadId), .ended (.ok value)]
        (.error .failed)
  | archiveFailed (conversationId : String) (principal : ServicePrincipal) (threadId : String)
      (fault : RuntimeFault) :
      Course rows
        [.admitted (.createConversation conversationId principal),
          .called (.createThread principal), .ended (.ok (.thread threadId)),
          .called (.archiveThread threadId), .ended (.error fault)]
        (.error fault)

theorem course_mono {rows more : List Conversation} {course : List Exchange}
    {ending : Except RuntimeFault Value} (grow : ∀ row ∈ rows, row ∈ more)
    (taken : Course rows course ending) : Course more course ending := by
  cases taken with
  | called operation result returns existing => exact .called operation _ returns existing
  | stored conversationId principal threadId inserted =>
      exact .stored conversationId principal threadId (grow _ inserted)
  | storeCancelled conversationId principal threadId =>
      exact .storeCancelled conversationId principal threadId
  | archived conversationId principal threadId value =>
      exact .archived conversationId principal threadId value
  | archiveFailed conversationId principal threadId fault =>
      exact .archiveFailed conversationId principal threadId fault

theorem exchanges_append (notes more : List Note) (consumer : Nat) :
    exchanges (notes ++ more) consumer = exchanges notes consumer ++ exchanges more consumer :=
  List.filterMap_append

@[simp] theorem exchanges_nil (consumer : Nat) : exchanges [] consumer = [] := rfl

@[simp] theorem exchanges_own (consumer : Nat) (exchange : Exchange) :
    exchanges [(consumer, exchange)] consumer = [exchange] := by
  simp [exchanges]

theorem exchanges_foreign {consumer other : Nat} (different : other ≠ consumer)
    (exchange : Exchange) : exchanges [(other, exchange)] consumer = [] := by
  simp [exchanges, different]

/-- Nothing is booked for a consumer that no note is about. -/
theorem exchanges_unknown {notes : List Note} {consumer : Nat}
    (unknown : ∀ note ∈ notes, note.1 ≠ consumer) : exchanges notes consumer = [] := by
  simp only [exchanges, List.filterMap_eq_nil_iff]
  intro note member
  rw [if_neg (unknown note member)]

namespace Service

variable {service next : Service} {label : Label}

/-- What a step books. -/
def note (service : Service) : Label → Option Note
  | .submit operation =>
      match service.admission.submit operation.key
          { consumer := service.consumers.length, operation := operation } with
      | .ok _ => some (service.consumers.length, .admitted operation)
      | .error _ => none
  | .start key =>
      (service.admission.tasks.get? key).bind fun task =>
        if task.cancelling then none
        else some (task.consumer, .called task.operation.firstCall)
  | .settle key result =>
      (service.admission.tasks.get? key).map fun task => (task.consumer, .ended result)
  | .storeFails key =>
      (service.admission.tasks.get? key).bind fun task =>
        match task.phase with
        | .storing row => some (task.consumer, .called (.archiveThread row.runtimeThreadId))
        | _ => none
  | _ => none

/-- The service with its books. -/
def booked : Machine (Service × List Note) Label := machine.withHistory note

/-! ## What a step means for the books -/

/-- A task that makes its next exchange and keeps its slot. -/
inductive Goes (key : String) (task : Task) : Exchange → Task → Prop where
  | called (scheduled : task.phase = .scheduled) :
      Goes key task (.called task.operation.firstCall)
        { task with phase := .calling task.operation.firstCall }
  | threaded (call : PortCall) (conversationId : String) (principal : ServicePrincipal)
      (threadId : String) (calling : task.phase = .calling call)
      (operation : task.operation = .createConversation conversationId principal) :
      Goes key task (.ended (.ok (.thread threadId)))
        { task with
          phase := .storing (conversationRow key principal threadId)
          cancelling := false }
  | archiving (row : Conversation) (storing : task.phase = .storing row) :
      Goes key task (.called (.archiveThread row.runtimeThreadId))
        { task with phase := .archiving row }

/-- A task that leaves its slot, with its last exchange if there is one. -/
inductive Leaves (rows : List Conversation) (task : Task) :
    Option Exchange → Except RuntimeFault Value → Prop where
  | called (call : PortCall) (result : Except RuntimeFault Value)
      (calling : task.phase = .calling call) (returns : call.returnsResult result = true)
      (kept : ∀ conversationId principal threadId,
        task.operation = .createConversation conversationId principal →
          result ≠ .ok (.thread threadId)) :
      Leaves rows task (some (.ended result)) result
  | stored (row : Conversation) (storing : task.phase = .storing row) (inserted : row ∈ rows) :
      Leaves rows task none (.ok (.conversation row))
  | storeCancelled (row : Conversation) (storing : task.phase = .storing row) :
      Leaves rows task none (.error .cancelled)
  | archived (row : Conversation) (value : Value) (archiving : task.phase = .archiving row) :
      Leaves rows task (some (.ended (.ok value))) (.error .failed)
  | archiveFailed (row : Conversation) (fault : RuntimeFault)
      (archiving : task.phase = .archiving row) :
      Leaves rows task (some (.ended (.error fault))) (.error fault)

/-- The tasks after a step are those before it, up to their flags. -/
def SameTasks (before after : Dict String Task) : Prop :=
  ∀ key task, (key, task) ∈ after.entries → ∃ old, (key, old) ∈ before.entries ∧
    task.consumer = old.consumer ∧ task.operation = old.operation ∧ task.phase = old.phase

/-- No coroutine that awaits a task hears anything new. -/
structure NoNews (before after : List Consumer) : Prop where
  length : after.length = before.length
  awaiting : ∀ (index : Nat) target result, after[index]? = some (Consumer.awaiting target result) →
    before[index]? = some (Consumer.awaiting target result)

/-- What a coroutine awaiting a task that never ran is told. -/
def drop : Consumer → Consumer
  | .awaiting target _ => .awaiting target (some (.error .cancelled))
  | other => other

inductive Booking (service next : Service) : Option Note → Prop where
  | same (tasks : SameTasks service.admission.tasks next.admission.tasks)
      (consumers : NoNews service.consumers next.consumers)
      (calls : next.calls = service.calls) : Booking service next none
  | admitted (operation : Operation)
      (tasks : next.admission.tasks.entries = service.admission.tasks.entries ++
        [(operation.key, { consumer := service.consumers.length, operation := operation })])
      (consumers : next.consumers =
        service.consumers ++ [openConsumer operation service.consumers.length])
      (calls : next.calls = service.calls) :
      Booking service next (some (service.consumers.length, .admitted operation))
  | goes (key : String) (task changed : Task) (exchange : Exchange)
      (found : (key, task) ∈ service.admission.tasks.entries)
      (goesOn : Goes key task exchange changed)
      (tasks : next.admission.tasks = service.admission.tasks.modify key fun _ => changed)
      (consumers : next.consumers = service.consumers)
      (calls : next.calls = service.calls ++ exchange.call?.toList) :
      Booking service next (some (task.consumer, exchange))
  | dropped (key : String) (task : Task) (found : (key, task) ∈ service.admission.tasks.entries)
      (scheduled : task.phase = .scheduled)
      (tasks : next.admission.tasks =
        service.admission.tasks.modify key fun _ => { task with phase := .dropped })
      (consumers : next.consumers = service.consumers.modify task.consumer drop)
      (calls : next.calls = service.calls) : Booking service next none
  | left (key : String) (task : Task) (exchange : Option Exchange)
      (ending : Except RuntimeFault Value)
      (found : (key, task) ∈ service.admission.tasks.entries)
      (leaves : Leaves service.conversations task exchange ending)
      (leaving : next = service.leave key task ending) :
      Booking service next (exchange.map fun last => (task.consumer, last))

theorem same_tasks_refl (tasks : Dict String Task) : SameTasks tasks tasks :=
  fun _ task found => ⟨task, found, rfl, rfl, rfl⟩

theorem same_tasks_modify {tasks : Dict String Task} {key : String} {task changed : Task}
    (found : (key, task) ∈ tasks.entries) (consumer : changed.consumer = task.consumer)
    (operation : changed.operation = task.operation) (phase : changed.phase = task.phase) :
    SameTasks tasks (tasks.modify key fun _ => changed) := by
  intro name other member
  rcases (Dict.mem_modify _ _ _ _).mp member with ⟨old, _⟩ | ⟨_, _, same⟩
  · exact ⟨other, old, rfl, rfl, rfl⟩
  · cases same
    exact ⟨task, found, consumer, operation, phase⟩

theorem same_tasks_map {tasks : Dict String Task} {change : Task → Task}
    (consumer : ∀ task, (change task).consumer = task.consumer)
    (operation : ∀ task, (change task).operation = task.operation)
    (phase : ∀ task, (change task).phase = task.phase) :
    SameTasks tasks (tasks.mapValues change) := by
  intro name other member
  obtain ⟨old, found, changed⟩ := (Dict.mem_map_values _ _ _).mp member
  simp only at changed
  rw [changed]
  exact ⟨old, found, consumer old, operation old, phase old⟩

theorem no_news_refl (consumers : List Consumer) : NoNews consumers consumers where
  length := rfl
  awaiting _ _ _ there := there

/-- Replacing a consumer by one that awaits nothing. -/
theorem no_news_set (consumers : List Consumer) (index : Nat) {new : Consumer}
    (quiet : ∀ target result, new ≠ .awaiting target result) :
    NoNews consumers (consumers.set index new) where
  length := List.length_set
  awaiting other target result there := by
    rw [List.getElem?_set] at there
    split_ifs at there with same inside
    · exact absurd (Option.some.inj there) (quiet target result)
    · exact there

theorem booking_submit {operation : Operation} (submitted : service.submit operation = some next) :
    Booking service next (note service (.submit operation)) := by
  unfold submit at submitted
  split_ifs at submitted
  simp only [note]
  split at submitted
  · rename_i refused
    cases submitted
    rw [refused]
    exact .same (same_tasks_refl _) (no_news_refl _) rfl
  · rename_i admission admits
    cases submitted
    rw [admits]
    obtain ⟨accepting, room, free, same⟩ := (service.admission.submit_eq_ok_iff ..).mp admits
    subst same
    exact .admitted operation rfl rfl rfl

theorem booking_start {key : String} {task : Task}
    (found : (key, task) ∈ service.admission.tasks.entries)
    (started : service.start key task = some next) :
    Booking service next (note service (.start key)) := by
  simp only [note, (service.admission.tasks.get?_eq_some_iff key task).mpr found,
    Option.bind_some]
  unfold start at started
  split at started
  · rename_i scheduled
    split_ifs at started with cancelling
    · cases started
      rw [if_pos cancelling]
      exact .dropped key task found scheduled rfl rfl rfl
    · cases started
      rw [if_neg cancelling]
      exact .goes key task _ _ found (.called scheduled) rfl rfl rfl
  · cases started

theorem booking_settle {key : String} {task : Task} {result : Except RuntimeFault Value}
    (found : (key, task) ∈ service.admission.tasks.entries)
    (settled : service.settle result key task = some next) :
    Booking service next (note service (.settle key result)) := by
  simp only [note, (service.admission.tasks.get?_eq_some_iff key task).mpr found,
    Option.map_some]
  unfold settle at settled
  split at settled
  · rename_i call calling
    split_ifs at settled with returns
    split at settled
    · rename_i conversationId principal threadId operation
      unfold threadCreated at settled
      split_ifs at settled
      cases settled
      exact .goes key task _ _ found (.threaded call conversationId principal threadId calling
        operation) rfl rfl (List.append_nil _).symm
    · rename_i other
      cases settled
      refine .left key task (some (.ended _)) _ found (.called call _ calling returns ?_) rfl
      intro conversationId principal threadId operation same
      exact other conversationId principal threadId operation same
  · rename_i row archiving
    split_ifs at settled with returns
    split at settled
    · rename_i value
      cases settled
      exact .left key task (some _) _ found (.archived row value archiving) rfl
    · rename_i fault
      cases settled
      exact .left key task (some _) _ found (.archiveFailed row fault archiving) rfl
  · cases settled

theorem booking_emit {key : String} {task : Task} {event : AgentEvent}
    (found : (key, task) ∈ service.admission.tasks.entries)
    (emitted : service.emit event key task = some next) : Booking service next none := by
  unfold emit at emitted
  split at emitted
  · rename_i stream _ _ there
    obtain ⟨subscription, published⟩ := stream.subscription.publish_never_raises event
    rw [published] at emitted
    cases emitted
    refine .same (same_tasks_modify found rfl rfl rfl) (no_news_set _ _ ?_) rfl
    intro target result same
    cases same
  · cases emitted

theorem booking_stored {key : String} {task : Task}
    (found : (key, task) ∈ service.admission.tasks.entries)
    (returned : service.stored key task = some next) : Booking service next none := by
  unfold stored at returned
  split at returned
  · rename_i row storing
    split_ifs at returned with blocked
    cases returned
    have inserted : row ∈ service.conversations := by
      simp only [Bool.or_eq_true, not_or, Bool.not_eq_true', Bool.not_eq_false] at blocked
      exact List.contains_iff_mem.mp blocked.2
    exact .left key task none _ found (.stored row storing inserted) rfl
  · cases returned

theorem booking_store_fails {key : String} {task : Task}
    (found : (key, task) ∈ service.admission.tasks.entries)
    (failed : service.storeFails key task = some next) :
    Booking service next (note service (.storeFails key)) := by
  unfold storeFails at failed
  split at failed
  · rename_i row storing
    have noted : service.note (.storeFails key) =
        some (task.consumer, .called (.archiveThread row.runtimeThreadId)) := by
      simp [note, (service.admission.tasks.get?_eq_some_iff key task).mpr found, storing]
    rw [noted]
    split_ifs at failed
    cases failed
    exact .goes key task _ _ found (.archiving row storing) rfl rfl rfl
  · cases failed

theorem booking_store_cancelled {key : String} {task : Task}
    (found : (key, task) ∈ service.admission.tasks.entries)
    (cancelled : service.storeCancelled key task = some next) : Booking service next none := by
  unfold storeCancelled at cancelled
  split at cancelled
  · rename_i row storing
    split_ifs at cancelled
    cases cancelled
    exact .left key task none _ found (.storeCancelled row storing) rfl
  · cases cancelled

theorem booking_consume {index : Nat} {action : ConsumerAction}
    (consumed : service.consume index action = some next) : Booking service next none := by
  unfold consume at consumed
  split at consumed
  · cases consumed
    refine .same (same_tasks_refl _) (no_news_set _ _ ?_) rfl
    intro target result same
    cases same
  · rename_i target _ _
    cases consumed
    have quiet : NoNews service.consumers (service.consumers.set index .gone) :=
      no_news_set _ _ (fun _ _ same => by cases same)
    cases target with
    | task other =>
        refine .same (same_tasks_map ?_ ?_ ?_) quiet rfl
        all_goals
          intro task
          unfold Task.cancelFor
          split_ifs <;> rfl
    | shield other => exact .same (same_tasks_refl _) quiet rfl
  · obtain ⟨stream, _, same⟩ := Option.map_eq_some_iff.mp consumed
    subst same
    exact .same (same_tasks_refl _) (no_news_set _ _ (fun _ _ same => by cases same)) rfl
  · cases consumed

/-- Everything a step can mean for the books. -/
theorem booking (stepped : service.step label = some next) :
    Booking service next (note service label) := by
  cases label with
  | submit operation => exact booking_submit stepped
  | start key =>
      obtain ⟨task, found, started⟩ := on_task_eq_some stepped
      exact booking_start found started
  | settle key result =>
      obtain ⟨task, found, settled⟩ := on_task_eq_some stepped
      exact booking_settle found settled
  | emit key event =>
      obtain ⟨task, found, emitted⟩ := on_task_eq_some stepped
      exact booking_emit found emitted
  | commit row =>
      simp only [step, commit] at stepped
      split_ifs at stepped
      obtain ⟨rows, created, same⟩ := Option.map_eq_some_iff.mp stepped
      subst same
      exact .same (same_tasks_refl _) (no_news_refl _) rfl
  | insertFails row =>
      simp only [step, insertFails] at stepped
      split_ifs at stepped
      cases stepped
      exact .same (same_tasks_refl _) (no_news_refl _) rfl
  | stored key =>
      obtain ⟨task, found, returned⟩ := on_task_eq_some stepped
      exact booking_stored found returned
  | storeFails key =>
      obtain ⟨task, found, failed⟩ := on_task_eq_some stepped
      exact booking_store_fails found failed
  | storeCancelled key =>
      obtain ⟨task, found, cancelled⟩ := on_task_eq_some stepped
      exact booking_store_cancelled found cancelled
  | deadline key =>
      obtain ⟨task, found, expired⟩ := on_task_eq_some stepped
      simp only [deadline] at expired
      split_ifs at expired
      cases expired
      exact .same (same_tasks_modify found rfl rfl rfl) (no_news_refl _) rfl
  | cancel key =>
      obtain ⟨task, found, cancelled⟩ := on_task_eq_some stepped
      simp only [cancel] at cancelled
      split_ifs at cancelled
      cases cancelled
      exact .same (same_tasks_modify found rfl rfl rfl) (no_news_refl _) rfl
  | drain =>
      cases stepped
      exact .same (same_tasks_refl _) (no_news_refl _) rfl
  | cancelAfterRuntimeClosed =>
      cases stepped
      exact .same (same_tasks_map (fun _ => rfl) (fun _ => rfl) (fun _ => rfl)) (no_news_refl _) rfl
  | consumer index action => exact booking_consume stepped

/-! ## The books are kept -/

/-- No task that can still do anything works for the consumer. -/
def Quiet (service : Service) (consumer : Nat) : Prop :=
  ∀ key task, (key, task) ∈ service.admission.tasks.entries → task.consumer = consumer →
    task.phase = .dropped

structure Phased (key : String) (task : Task) : Prop where
  keyed : task.operation.key = key
  calling : ∀ call, task.phase = .calling call → call = task.operation.firstCall
  creating : ∀ row, task.phase = .storing row ∨ task.phase = .archiving row →
    ∃ principal, task.operation = .createConversation key principal ∧
      row = conversationRow key principal row.runtimeThreadId

/-- What a coroutine that awaited a task was told, and the course behind it. -/
inductive Told (service : Service) (course : List Exchange) : Except TaskError Value → Prop where
  | dropped (operation : Operation) (unstarted : course = [.admitted operation]) :
      Told service course (.error .cancelled)
  | left (ending : Except RuntimeFault Value) (timedOut : Bool)
      (taken : Course service.conversations course ending)
      (closes : AdmissionController.outcomeKnown ending = false →
        service.admission.accepting = false) :
      Told service course (AdmissionController.taskResult timedOut ending)

structure Booked (service : Service) (notes : List Note) : Prop where
  known : ∀ entry ∈ notes, entry.1 < service.consumers.length
  tasks : ∀ key task, (key, task) ∈ service.admission.tasks.entries →
    task.consumer < service.consumers.length ∧ Phased key task ∧
      exchanges notes task.consumer = task.exchanges
  alone : ∀ key task other rival, (key, task) ∈ service.admission.tasks.entries →
    (other, rival) ∈ service.admission.tasks.entries → task.consumer = rival.consumer →
      key = other
  told : ∀ (index : Nat) target result,
    service.consumers[index]? = some (Consumer.awaiting target (some result)) →
      Told service (exchanges notes index) result ∧ service.Quiet index
  calls : service.calls = notes.filterMap fun entry => entry.2.call?

theorem booked_new (limit : Nat) (positive : 1 ≤ limit) (conversations : List Conversation) :
    Booked (new limit positive conversations) [] where
  known _ member := by cases member
  tasks _ _ member := by cases member
  alone _ _ _ _ member := by cases member
  told index target result there := by
    rw [show (new limit positive conversations).consumers = [] from rfl, List.getElem?_nil] at there
    cases there
  calls := rfl

theorem told_mono (grow : ∀ row ∈ service.conversations, row ∈ next.conversations)
    (closed : service.admission.accepting = false → next.admission.accepting = false)
    {course : List Exchange} {result : Except TaskError Value}
    (told : Told service course result) : Told next course result := by
  cases told with
  | dropped operation unstarted => exact .dropped operation unstarted
  | left ending timedOut taken closes =>
      exact .left ending timedOut (course_mono grow taken) fun unknown => closed (closes unknown)

theorem phased_same {key : String} {task old : Task} (phased : Phased key old)
    (operation : task.operation = old.operation) (phase : task.phase = old.phase) :
    Phased key task where
  keyed := operation ▸ phased.keyed
  calling := by
    rw [operation, phase]
    exact phased.calling
  creating := by
    rw [operation, phase]
    exact phased.creating

theorem task_exchanges_same {task old : Task} (operation : task.operation = old.operation)
    (phase : task.phase = old.phase) : task.exchanges = old.exchanges := by
  simp only [Task.exchanges, operation, phase]

theorem phased_idle {key : String} {task : Task} (keyed : task.operation.key = key)
    (idle : task.phase = .scheduled ∨ task.phase = .dropped) : Phased key task where
  keyed := keyed
  calling := by
    intro call calling
    rcases idle with scheduled | dropped
    · cases scheduled.symm.trans calling
    · cases dropped.symm.trans calling
  creating := by
    rintro row (storing | archiving)
    · rcases idle with scheduled | dropped
      · cases scheduled.symm.trans storing
      · cases dropped.symm.trans storing
    · rcases idle with scheduled | dropped
      · cases scheduled.symm.trans archiving
      · cases dropped.symm.trans archiving

/-- The task of an exchange has not been dropped, and books the exchange behind its earlier ones. -/
theorem goes_phased {key : String} {task changed : Task} {exchange : Exchange}
    (goes : Goes key task exchange changed) (phased : Phased key task) :
    task.phase ≠ .dropped ∧ changed.consumer = task.consumer ∧ Phased key changed ∧
      changed.exchanges = task.exchanges ++ [exchange] := by
  cases goes with
  | called scheduled =>
      refine ⟨by simp [scheduled], rfl, ⟨phased.keyed, ?_, ?_⟩, by simp [Task.exchanges, scheduled]⟩
      · intro call calling
        exact (Phase.calling.inj calling).symm
      · rintro row (storing | archiving)
        · cases storing
        · cases archiving
  | threaded call conversationId principal threadId calling operation =>
      have first := phased.calling call calling
      have named : conversationId = key := by
        have keyed := phased.keyed
        rwa [operation] at keyed
      refine ⟨by simp [calling], rfl, ⟨phased.keyed, ?_, ?_⟩, ?_⟩
      · intro other isCalling
        cases isCalling
      · rintro row (storing | archiving)
        · rw [← Phase.storing.inj storing]
          exact ⟨principal, named ▸ operation, rfl⟩
        · cases archiving
      · simp [Task.exchanges, calling, first, conversationRow]
  | archiving row storing =>
      refine ⟨by simp [storing], rfl, ⟨phased.keyed, ?_, ?_⟩, by simp [Task.exchanges, storing]⟩
      · intro other isCalling
        cases isCalling
      · rintro other (isStoring | isArchiving)
        · cases isStoring
        · rw [← Phase.archiving.inj isArchiving]
          exact phased.creating row (Or.inl storing)

/-- A task that leaves has taken a whole course. -/
theorem leaves_course {rows : List Conversation} {key : String} {task : Task}
    {exchange : Option Exchange} {ending : Except RuntimeFault Value}
    (leaves : Leaves rows task exchange ending) (phased : Phased key task) :
    task.phase ≠ .dropped ∧ Course rows (task.exchanges ++ exchange.toList) ending := by
  have creation : ∀ row, task.phase = .storing row ∨ task.phase = .archiving row →
      ∃ principal, task.operation = .createConversation key principal ∧
        row = conversationRow key principal row.runtimeThreadId := phased.creating
  cases leaves with
  | called call result calling returns kept =>
      refine ⟨by simp [calling], ?_⟩
      have first := phased.calling call calling
      simp only [Task.exchanges, calling, Option.toList_some, List.cons_append, List.nil_append]
      rw [first] at returns ⊢
      refine .called task.operation ending returns ?_
      intro value isValue absent
      cases operation : task.operation with
      | createConversation conversationId principal =>
          rw [operation, isValue] at returns
          cases value with
          | thread threadId => exact kept conversationId principal threadId operation isValue
          | _ => cases returns
      | _ =>
          rw [operation] at absent
          cases absent
  | stored row storing inserted =>
      refine ⟨by simp [storing], ?_⟩
      obtain ⟨principal, operation, isRow⟩ := creation row (Or.inl storing)
      simp only [Task.exchanges, storing, operation, Operation.firstCall, Option.toList_none,
        List.append_nil]
      rw [isRow] at inserted
      have taken := Course.stored key principal row.runtimeThreadId inserted
      rwa [← isRow] at taken
  | storeCancelled row storing =>
      refine ⟨by simp [storing], ?_⟩
      obtain ⟨principal, operation, isRow⟩ := creation row (Or.inl storing)
      simp only [Task.exchanges, storing, operation, Operation.firstCall, Option.toList_none,
        List.append_nil]
      exact .storeCancelled key principal row.runtimeThreadId
  | archived row value archiving =>
      refine ⟨by simp [archiving], ?_⟩
      obtain ⟨principal, operation, isRow⟩ := creation row (Or.inr archiving)
      simp only [Task.exchanges, archiving, operation, Operation.firstCall, Option.toList_some,
        List.cons_append, List.nil_append]
      exact .archived key principal row.runtimeThreadId value
  | archiveFailed row fault archiving =>
      refine ⟨by simp [archiving], ?_⟩
      obtain ⟨principal, operation, isRow⟩ := creation row (Or.inr archiving)
      simp only [Task.exchanges, archiving, operation, Operation.firstCall, Option.toList_some,
        List.cons_append, List.nil_append]
      exact .archiveFailed key principal row.runtimeThreadId fault

section Keeping

variable {notes : List Note}

/-- Nothing is booked for a consumer whose task is gone. -/
theorem quiet_booking (booked : Booked service notes) {noted : Option Note}
    (books : Booking service next noted) {consumer : Nat}
    (inside : consumer < service.consumers.length) (quiet : service.Quiet consumer) :
    next.Quiet consumer ∧ exchanges noted.toList consumer = [] := by
  cases books with
  | same tasks consumers calls =>
      refine ⟨?_, rfl⟩
      intro key task member isConsumer
      obtain ⟨old, found, consumer_eq, -, phase⟩ := tasks key task member
      rw [phase]
      exact quiet key old found (consumer_eq ▸ isConsumer)
  | admitted operation tasks consumers calls =>
      refine ⟨?_, exchanges_foreign (Nat.ne_of_gt inside) _⟩
      intro key task member isConsumer
      rw [tasks] at member
      rcases List.mem_append.mp member with old | added
      · exact quiet key task old isConsumer
      · cases List.mem_singleton.mp added
        exact absurd isConsumer (Nat.ne_of_gt inside)
  | goes key task changed exchange found goesOn tasks consumers calls =>
      obtain ⟨running, kept, -, -⟩ := goes_phased goesOn (booked.tasks key task found).2.1
      have distinct : task.consumer ≠ consumer :=
        fun isConsumer => running (quiet key task found isConsumer)
      refine ⟨?_, exchanges_foreign distinct _⟩
      intro name other member isConsumer
      rw [tasks] at member
      rcases (Dict.mem_modify _ _ _ _).mp member with ⟨old, -⟩ | ⟨-, -, isChanged⟩
      · exact quiet name other old isConsumer
      · cases isChanged
        exact absurd (kept.symm.trans isConsumer) distinct
  | dropped key task found scheduled tasks consumers calls =>
      refine ⟨?_, rfl⟩
      intro name other member isConsumer
      rw [tasks] at member
      rcases (Dict.mem_modify _ _ _ _).mp member with ⟨old, -⟩ | ⟨-, -, isChanged⟩
      · exact quiet name other old isConsumer
      · cases isChanged
        rfl
  | left key task exchange ending found leaves leaving =>
      have running := (leaves_course leaves (booked.tasks key task found).2.1).1
      have distinct : task.consumer ≠ consumer :=
        fun isConsumer => running (quiet key task found isConsumer)
      refine ⟨?_, ?_⟩
      · intro name other member isConsumer
        rw [leaving] at member
        exact quiet name other ((Dict.mem_pop _ _ _).mp member).1 isConsumer
      · cases exchange with
        | none => rfl
        | some last => exact exchanges_foreign distinct last

/-- A coroutine that has been told how its task ended is told the same after a step. -/
theorem told_booking (booked : Booked service notes) (stepped : service.step label = some next)
    {noted : Option Note} (books : Booking service next noted) {index : Nat} {target : Awaitable}
    {result : Except TaskError Value}
    (there : service.consumers[index]? = some (Consumer.awaiting target (some result))) :
    Told next (exchanges (notes ++ noted.toList) index) result ∧ next.Quiet index := by
  obtain ⟨told, quiet⟩ := booked.told index target result there
  obtain ⟨inside, -⟩ := List.getElem?_eq_some_iff.mp there
  obtain ⟨still, nothing⟩ := quiet_booking booked books inside quiet
  rw [exchanges_append, nothing, List.append_nil]
  exact ⟨told_mono (conversations_grow stepped) (closed_effect (step_effect stepped)) told, still⟩

/-- Who hears what, after one consumer was told something. -/
theorem told_of_modify {consumers : List Consumer} {place index : Nat} {tell : Consumer → Consumer}
    {target : Awaitable} {result : Except TaskError Value}
    (there : (consumers.modify place tell)[index]? =
      some (Consumer.awaiting target (some result))) :
    (place = index ∧ ∃ before, tell before = .awaiting target (some result)) ∨
      consumers[index]? = some (Consumer.awaiting target (some result)) := by
  rw [List.getElem?_modify] at there
  obtain ⟨before, isBefore, after⟩ := Option.map_eq_some_iff.mp there
  by_cases here : place = index
  · rw [if_pos here] at after
    exact Or.inl ⟨here, before, after⟩
  · rw [if_neg here] at after
    exact Or.inr (isBefore.trans (congrArg some after))

theorem booked_same (booked : Booked service notes) (stepped : service.step label = some next)
    (tasks : SameTasks service.admission.tasks next.admission.tasks)
    (consumers : NoNews service.consumers next.consumers) (calls : next.calls = service.calls) :
    Booked next notes where
  known := by
    rw [consumers.length]
    exact booked.known
  tasks key task member := by
    obtain ⟨old, found, consumer, operation, phase⟩ := tasks key task member
    obtain ⟨inside, phased, same⟩ := booked.tasks key old found
    rw [consumers.length, consumer, task_exchanges_same operation phase]
    exact ⟨inside, phased_same phased operation phase, same⟩
  alone key task other rival member rivalMember shared := by
    obtain ⟨old, found, consumer, _⟩ := tasks key task member
    obtain ⟨oldRival, rivalFound, rivalConsumer, _⟩ := tasks other rival rivalMember
    exact booked.alone key old other oldRival found rivalFound
      (consumer.symm.trans (shared.trans rivalConsumer))
  told index target result there := by
    have kept := told_booking booked stepped (.same tasks consumers calls)
      (consumers.awaiting _ _ _ there)
    rwa [Option.toList_none, List.append_nil] at kept
  calls := calls.trans booked.calls

theorem booked_admitted (booked : Booked service notes) (stepped : service.step label = some next)
    {operation : Operation}
    (tasks : next.admission.tasks.entries = service.admission.tasks.entries ++
      [(operation.key, { consumer := service.consumers.length, operation := operation })])
    (consumers : next.consumers =
      service.consumers ++ [openConsumer operation service.consumers.length])
    (calls : next.calls = service.calls) :
    Booked next (notes ++ [(service.consumers.length, .admitted operation)]) := by
  have longer : next.consumers.length = service.consumers.length + 1 := by simp [consumers]
  have nothing : exchanges notes service.consumers.length = [] :=
    exchanges_unknown fun entry member => Nat.ne_of_lt (booked.known entry member)
  refine ⟨?_, ?_, ?_, ?_, ?_⟩
  · intro entry member
    rcases List.mem_append.mp member with old | added
    · have before := booked.known entry old
      omega
    · rw [List.mem_singleton.mp added]
      omega
  · intro key task member
    rw [tasks] at member
    rcases List.mem_append.mp member with old | added
    · obtain ⟨inside, phased, same⟩ := booked.tasks key task old
      refine ⟨by omega, phased, ?_⟩
      rw [exchanges_append, exchanges_foreign (Nat.ne_of_gt inside), List.append_nil, same]
    · cases List.mem_singleton.mp added
      refine ⟨by simp [longer], phased_idle rfl (Or.inl rfl), ?_⟩
      rw [exchanges_append, nothing, exchanges_own]
      rfl
  · intro key task other rival member rivalMember shared
    rw [tasks] at member rivalMember
    rcases List.mem_append.mp member with old | added
    · rcases List.mem_append.mp rivalMember with rivalOld | rivalAdded
      · exact booked.alone key task other rival old rivalOld shared
      · cases List.mem_singleton.mp rivalAdded
        exact absurd shared (Nat.ne_of_lt (booked.tasks key task old).1)
    · cases List.mem_singleton.mp added
      rcases List.mem_append.mp rivalMember with rivalOld | rivalAdded
      · exact absurd shared.symm (Nat.ne_of_lt (booked.tasks other rival rivalOld).1)
      · cases List.mem_singleton.mp rivalAdded
        rfl
  · intro index target result there
    rw [consumers] at there
    by_cases inside : index < service.consumers.length
    · rw [List.getElem?_append_left inside] at there
      exact told_booking booked stepped (.admitted operation tasks consumers calls) there
    · have opened : openConsumer operation service.consumers.length =
          .awaiting target (some result) := by
        rw [List.getElem?_append_right (Nat.le_of_not_lt inside)] at there
        exact List.mem_singleton.mp (List.mem_of_getElem? there) |>.symm
      cases operation <;> cases opened
  · rw [calls, booked.calls, List.filterMap_append]
    simp [Exchange.call?]

theorem booked_goes (booked : Booked service notes) (stepped : service.step label = some next)
    {key : String} {task changed : Task} {exchange : Exchange}
    (found : (key, task) ∈ service.admission.tasks.entries)
    (goes : Goes key task exchange changed)
    (tasks : next.admission.tasks = service.admission.tasks.modify key fun _ => changed)
    (consumers : next.consumers = service.consumers)
    (calls : next.calls = service.calls ++ exchange.call?.toList) :
    Booked next (notes ++ [(task.consumer, exchange)]) := by
  obtain ⟨inside, phased, same⟩ := booked.tasks key task found
  obtain ⟨-, consumer, changedPhased, grown⟩ := goes_phased goes phased
  refine ⟨?_, ?_, ?_, ?_, ?_⟩
  · intro entry member
    rw [consumers]
    rcases List.mem_append.mp member with old | added
    · exact booked.known entry old
    · rw [List.mem_singleton.mp added]
      exact inside
  · intro name other member
    rw [tasks] at member
    rw [consumers]
    rcases (Dict.mem_modify _ _ _ _).mp member with ⟨old, different⟩ | ⟨_, _, isChanged⟩
    · obtain ⟨otherInside, otherPhased, otherSame⟩ := booked.tasks name other old
      refine ⟨otherInside, otherPhased, ?_⟩
      have distinct : task.consumer ≠ other.consumer :=
        fun shared => different (booked.alone key task name other found old shared).symm
      rw [exchanges_append, exchanges_foreign distinct, List.append_nil, otherSame]
    · cases isChanged
      rw [consumer, exchanges_append, exchanges_own, same, grown]
      exact ⟨inside, changedPhased, rfl⟩
  · intro name one other rival member rivalMember shared
    rw [tasks] at member rivalMember
    rcases (Dict.mem_modify _ _ _ _).mp member with ⟨old, _⟩ | ⟨_, _, isChanged⟩
    · rcases (Dict.mem_modify _ _ _ _).mp rivalMember with ⟨rivalOld, _⟩ | ⟨_, _, rivalChanged⟩
      · exact booked.alone name one other rival old rivalOld shared
      · cases rivalChanged
        exact booked.alone name one key task old found (shared.trans consumer)
    · cases isChanged
      rcases (Dict.mem_modify _ _ _ _).mp rivalMember with ⟨rivalOld, _⟩ | ⟨_, _, rivalChanged⟩
      · exact booked.alone key task other rival found rivalOld (consumer.symm.trans shared)
      · cases rivalChanged
        rfl
  · intro index target result there
    rw [consumers] at there
    exact told_booking booked stepped
      (.goes key task changed exchange found goes tasks consumers calls) there
  · rw [calls, booked.calls, List.filterMap_append]
    cases exchange <;> rfl

theorem booked_dropped (booked : Booked service notes) (stepped : service.step label = some next)
    {key : String} {task : Task} (found : (key, task) ∈ service.admission.tasks.entries)
    (scheduled : task.phase = .scheduled)
    (tasks : next.admission.tasks =
      service.admission.tasks.modify key fun _ => { task with phase := .dropped })
    (consumers : next.consumers = service.consumers.modify task.consumer drop)
    (calls : next.calls = service.calls) : Booked next notes := by
  obtain ⟨inside, phased, same⟩ := booked.tasks key task found
  have entries : ∀ name other, (name, other) ∈ next.admission.tasks.entries →
      ((name, other) ∈ service.admission.tasks.entries ∧ name ≠ key) ∨
        (name = key ∧ other = { task with phase := .dropped }) := by
    intro name other member
    rw [tasks] at member
    rcases (Dict.mem_modify _ _ _ _).mp member with ⟨old, different⟩ | ⟨_, _, isChanged⟩
    · exact Or.inl ⟨old, different⟩
    · cases isChanged
      exact Or.inr ⟨rfl, rfl⟩
  refine ⟨?_, ?_, ?_, ?_, calls.trans booked.calls⟩
  · rw [consumers, List.length_modify]
    exact booked.known
  · intro name other member
    rw [consumers, List.length_modify]
    rcases entries name other member with ⟨old, _⟩ | ⟨isKey, isDropped⟩
    · exact booked.tasks name other old
    · subst isKey
      subst isDropped
      refine ⟨inside, phased_idle phased.keyed (Or.inr rfl), ?_⟩
      rw [same]
      simp [Task.exchanges, scheduled]
  · intro name one other rival member rivalMember shared
    rcases entries name one member with ⟨old, _⟩ | ⟨isKey, isDropped⟩
    · rcases entries other rival rivalMember with ⟨rivalOld, _⟩ | ⟨rivalKey, rivalDropped⟩
      · exact booked.alone name one other rival old rivalOld shared
      · subst rivalKey
        subst rivalDropped
        exact booked.alone name one other task old found shared
    · subst isKey
      subst isDropped
      rcases entries other rival rivalMember with ⟨rivalOld, _⟩ | ⟨rivalKey, _⟩
      · exact booked.alone name task other rival found rivalOld shared
      · exact rivalKey.symm
  · intro index target result there
    rw [consumers] at there
    rcases told_of_modify there with ⟨here, before, news⟩ | earlier
    · cases before with
      | awaiting old heard =>
          cases news
          refine ⟨.dropped task.operation ?_, ?_⟩
          · rw [← here, same]
            simp [Task.exchanges, scheduled]
          · intro name other member isConsumer
            rcases entries name other member with ⟨old, different⟩ | ⟨_, isDropped⟩
            · exact absurd (booked.alone name other key task old found (isConsumer.trans here.symm))
                different
            · rw [isDropped]
      | streaming stream => cases news
      | gone => cases news
    · have kept := told_booking booked stepped
        (.dropped key task found scheduled tasks consumers calls) earlier
      rwa [Option.toList_none, List.append_nil] at kept

theorem booked_left (booked : Booked service notes) (stepped : service.step label = some next)
    {key : String} {task : Task} {exchange : Option Exchange} {ending : Except RuntimeFault Value}
    (found : (key, task) ∈ service.admission.tasks.entries)
    (leaves : Leaves service.conversations task exchange ending)
    (leaving : next = service.leave key task ending) :
    Booked next (notes ++ (exchange.map fun last => (task.consumer, last)).toList) := by
  obtain ⟨inside, phased, same⟩ := booked.tasks key task found
  obtain ⟨-, taken⟩ := leaves_course leaves phased
  have foreign : ∀ index, task.consumer ≠ index →
      exchanges (exchange.map fun last => (task.consumer, last)).toList index = [] := by
    intro index distinct
    cases exchange with
    | none => rfl
    | some last => exact exchanges_foreign distinct last
  have own : exchanges (notes ++ (exchange.map fun last => (task.consumer, last)).toList)
      task.consumer = task.exchanges ++ exchange.toList := by
    rw [exchanges_append, same]
    cases exchange with
    | none => rfl
    | some last => simp
  have length : next.consumers.length = service.consumers.length := by
    rw [leaving]
    exact List.length_modify _ _ _
  have entries : ∀ name other, (name, other) ∈ next.admission.tasks.entries →
      (name, other) ∈ service.admission.tasks.entries ∧ name ≠ key := by
    intro name other member
    rw [leaving] at member
    exact (Dict.mem_pop _ _ _).mp member
  refine ⟨?_, ?_, ?_, ?_, ?_⟩
  · intro entry member
    rw [length]
    rcases List.mem_append.mp member with old | added
    · exact booked.known entry old
    · obtain ⟨last, _, isEntry⟩ := Option.map_eq_some_iff.mp (Option.mem_toList.mp added)
      rw [← isEntry]
      exact inside
  · intro name other member
    obtain ⟨old, different⟩ := entries name other member
    obtain ⟨otherInside, otherPhased, otherSame⟩ := booked.tasks name other old
    have distinct : task.consumer ≠ other.consumer :=
      fun shared => different (booked.alone key task name other found old shared).symm
    rw [length, exchanges_append, foreign _ distinct, List.append_nil]
    exact ⟨otherInside, otherPhased, otherSame⟩
  · intro name one other rival member rivalMember shared
    exact booked.alone name one other rival (entries name one member).1
      (entries other rival rivalMember).1 shared
  · intro index target result there
    have consumers : next.consumers =
        service.consumers.modify task.consumer (notify task ending) := by
      rw [leaving]
      rfl
    rw [consumers] at there
    rcases told_of_modify there with ⟨here, before, news⟩ | earlier
    · cases before with
      | awaiting old heard =>
          cases news
          refine ⟨?_, ?_⟩
          · rw [← here, own]
            refine .left ending task.timedOut ?_ ?_
            · exact course_mono (conversations_grow stepped) taken
            · intro unknown
              rw [leaving, leave_accepting, unknown, Bool.and_false]
          · intro name other member isConsumer
            obtain ⟨old, different⟩ := entries name other member
            exact absurd (booked.alone name other key task old found (isConsumer.trans here.symm))
              different
      | streaming stream => cases news
      | gone => cases news
    · exact told_booking booked stepped (.left key task exchange ending found leaves leaving)
        earlier
  · rw [List.filterMap_append, ← booked.calls, leaving]
    cases leaves <;> simp [leave, Exchange.call?]

theorem booked_step (booked : Booked service notes) (stepped : service.step label = some next) :
    Booked next (notes ++ (service.note label).toList) := by
  have books := booking stepped
  generalize service.note label = noted at books
  cases books with
  | same tasks consumers calls =>
      rw [Option.toList_none, List.append_nil]
      exact booked_same booked stepped tasks consumers calls
  | admitted operation tasks consumers calls =>
      exact booked_admitted booked stepped tasks consumers calls
  | goes key task changed exchange found goesOn tasks consumers calls =>
      exact booked_goes booked stepped found goesOn tasks consumers calls
  | dropped key task found scheduled tasks consumers calls =>
      rw [Option.toList_none, List.append_nil]
      exact booked_dropped booked stepped found scheduled tasks consumers calls
  | left key task exchange ending found leaves leaving =>
      exact booked_left booked stepped found leaves leaving

end Keeping

end Service

end AgentHarness.Services
