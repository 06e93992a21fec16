import AgentHarness.Services.RemoteExclusion

/-!
# The ledger of the threads

What is on record about the threads the runtime has given out: for which conversation each was made,
which rows are stored or being inserted, and which threads were archived. Beside it stand the tasks
that wait for an insert. `LedgerStep` lists what one step can do to both.
-/

namespace AgentHarness.Services

open AgentHarness.Library AgentHarness.Events AgentHarness.Runtime AgentHarness.Conversations

set_option autoImplicit false

def PortCall.archives? : PortCall → Option String
  | .archiveThread threadId => some threadId
  | _ => none

theorem archives_eq_some_iff (call : PortCall) (threadId : String) :
    call.archives? = some threadId ↔ call = .archiveThread threadId := by
  cases call <;> simp [PortCall.archives?]

theorem first_call_archives_nothing (operation : Operation) :
    operation.firstCall.archives? = none := by
  cases operation <;> rfl

structure Ledger where
  threads : List (String × String)
  conversations : List Conversation
  inserts : List Conversation
  archived : List String

/-- The database has stored the row, or may still store it. -/
def Ledger.Unrefused (book : Ledger) (row : Conversation) : Prop :=
  row ∈ book.conversations ∨ row ∈ book.inserts

namespace Service

variable {service next : Service} {label : Label} {key : String} {task changed : Task}

def ledger (service : Service) : Ledger where
  threads := service.threads
  conversations := service.conversations
  inserts := service.inserts
  archived := service.calls.filterMap PortCall.archives?

theorem mem_archived_iff {threadId : String} :
    threadId ∈ service.ledger.archived ↔ PortCall.archiveThread threadId ∈ service.calls := by
  simp [ledger, archives_eq_some_iff]

/-- A task waits under the key for the insert of the row. -/
def Storing (service : Service) (key : String) (row : Conversation) : Prop :=
  ∃ task, (key, task) ∈ service.admission.tasks.entries ∧ task.phase = .storing row

/-- The task that waited for the insert was cut off: its operation is lost and admission closed. -/
def CutOff (service : Service) (key : String) (row : Conversation) : Prop :=
  service.admission.accepting = false ∧
    ∃ task, (key, task) ∈ service.lost ∧ task.phase = .storing row

inductive LedgerStep (service next : Service) : Label → Prop where
  | unchanged (label : Label) (ledger : next.ledger = service.ledger)
      (storing : ∀ key row, next.Storing key row ↔ service.Storing key row) :
      LedgerStep service next label
  | created (row : Conversation) (fresh : row.runtimeThreadId ∉ service.threads.map Prod.fst)
      (ledger : next.ledger = { service.ledger with
        threads := service.threads ++ [(row.runtimeThreadId, row.id)]
        inserts := service.inserts ++ [row] })
      (storing : ∀ key other, next.Storing key other ↔
        service.Storing key other ∨ key = row.id ∧ other = row) :
      LedgerStep service next (.settle row.id (.ok (.thread row.runtimeThreadId)))
  | committed (row : Conversation) (pending : row ∈ service.inserts)
      (ledger : next.ledger = { service.ledger with
        conversations := service.conversations ++ [row]
        inserts := service.inserts.erase row })
      (storing : ∀ key other, next.Storing key other ↔ service.Storing key other) :
      LedgerStep service next (.commit row)
  | insertFailed (row : Conversation)
      (ledger : next.ledger = { service.ledger with inserts := service.inserts.erase row })
      (storing : ∀ key other, next.Storing key other ↔ service.Storing key other) :
      LedgerStep service next (.insertFails row)
  | returned (key : String) (row : Conversation) (waited : service.Storing key row)
      (inserted : row ∈ service.conversations) (ledger : next.ledger = service.ledger)
      (storing : ∀ name other, next.Storing name other ↔
        service.Storing name other ∧ name ≠ key) :
      LedgerStep service next (.stored key)
  | raised (key : String) (row : Conversation) (waited : service.Storing key row)
      (ledger : next.ledger = { service.ledger with
        archived := service.ledger.archived ++ [row.runtimeThreadId] })
      (storing : ∀ name other, next.Storing name other ↔
        service.Storing name other ∧ name ≠ key) :
      LedgerStep service next (.storeFails key)
  | cutOff (key : String) (row : Conversation) (waited : service.Storing key row)
      (lost : next.CutOff key row) (ledger : next.ledger = service.ledger)
      (storing : ∀ name other, next.Storing name other ↔
        service.Storing name other ∧ name ≠ key) :
      LedgerStep service next (.storeCancelled key)

/-! ## The tasks that wait -/

theorem storing_found (found : (key, task) ∈ service.admission.tasks.entries)
    (row : Conversation) : service.Storing key row ↔ task.phase = .storing row := by
  constructor
  · rintro ⟨waiting, member, isStoring⟩
    rwa [service.admission.tasks.value_unique found member]
  · intro isStoring
    exact ⟨task, found, isStoring⟩

theorem storing_unique {row other : Conversation} (waits : service.Storing key row)
    (rival : service.Storing key other) : row = other := by
  obtain ⟨task, found, isStoring⟩ := waits
  have same := (storing_found found other).mp rival
  rw [isStoring] at same
  exact Phase.storing.inj same

theorem storing_modify (found : (key, task) ∈ service.admission.tasks.entries)
    (tasks : next.admission.tasks = service.admission.tasks.modify key fun _ => changed)
    (name : String) (row : Conversation) :
    next.Storing name row ↔
      service.Storing name row ∧ name ≠ key ∨ name = key ∧ changed.phase = .storing row := by
  simp only [Storing, tasks, Dict.mem_modify]
  constructor
  · rintro ⟨waiting, ⟨member, other⟩ | ⟨_, _, same⟩, isStoring⟩
    · exact Or.inl ⟨⟨waiting, member, isStoring⟩, other⟩
    · cases same
      exact Or.inr ⟨rfl, isStoring⟩
  · rintro (⟨⟨waiting, member, isStoring⟩, other⟩ | ⟨rfl, isStoring⟩)
    · exact ⟨waiting, Or.inl ⟨member, other⟩, isStoring⟩
    · exact ⟨changed, Or.inr ⟨task, found, rfl⟩, isStoring⟩

theorem storing_pop (tasks : next.admission.tasks = service.admission.tasks.pop key)
    (name : String) (row : Conversation) :
    next.Storing name row ↔ service.Storing name row ∧ name ≠ key := by
  simp only [Storing, tasks, Dict.mem_pop]
  constructor
  · rintro ⟨waiting, ⟨member, other⟩, isStoring⟩
    exact ⟨⟨waiting, member, isStoring⟩, other⟩
  · rintro ⟨⟨waiting, member, isStoring⟩, other⟩
    exact ⟨waiting, ⟨member, other⟩, isStoring⟩

/-- A task that stops waiting and keeps its slot. -/
theorem storing_goes_on (found : (key, task) ∈ service.admission.tasks.entries)
    (tasks : next.admission.tasks = service.admission.tasks.modify key fun _ => changed)
    (idle : ∀ row, changed.phase ≠ .storing row) (name : String) (row : Conversation) :
    next.Storing name row ↔ service.Storing name row ∧ name ≠ key := by
  rw [storing_modify found tasks]
  simp [idle row]

/-- A step on a task that leaves its wait alone. -/
theorem unchanged_modify (found : (key, task) ∈ service.admission.tasks.entries)
    (tasks : next.admission.tasks = service.admission.tasks.modify key fun _ => changed)
    (phase : ∀ row, changed.phase = .storing row ↔ task.phase = .storing row)
    (ledger : next.ledger = service.ledger) : LedgerStep service next label := by
  refine .unchanged label ledger fun name row => ?_
  rw [storing_modify found tasks, phase, ← storing_found found]
  by_cases same : name = key <;> simp [same]

/-- The end of a task that waits for no insert. -/
theorem unchanged_leave (found : (key, task) ∈ service.admission.tasks.entries)
    (idle : ∀ row, task.phase ≠ .storing row) (ending : Except RuntimeFault Value) :
    LedgerStep service (service.leave key task ending) label := by
  refine .unchanged label rfl fun name row => ?_
  rw [storing_pop rfl]
  constructor
  · exact And.left
  · intro waits
    refine ⟨waits, ?_⟩
    rintro rfl
    exact idle row ((storing_found found row).mp waits)

theorem unchanged_map {change : Task → Task}
    (tasks : next.admission.tasks = service.admission.tasks.mapValues change)
    (phase : ∀ task, (change task).phase = task.phase)
    (ledger : next.ledger = service.ledger) : LedgerStep service next label := by
  refine .unchanged label ledger fun name row => ?_
  simp only [Storing, tasks, Dict.mem_map_values]
  constructor
  · rintro ⟨_, ⟨task, member, rfl⟩, isStoring⟩
    exact ⟨task, member, (phase task).symm.trans isStoring⟩
  · rintro ⟨task, member, isStoring⟩
    exact ⟨change task, ⟨task, member, rfl⟩, (phase task).trans isStoring⟩

theorem unchanged_same (tasks : next.admission.tasks = service.admission.tasks)
    (ledger : next.ledger = service.ledger) : LedgerStep service next label := by
  refine .unchanged label ledger fun name row => ?_
  simp only [Storing, tasks]

/-! ## One lemma a step -/

theorem ledger_submit {operation : Operation} (submitted : service.submit operation = some next) :
    LedgerStep service next (.submit operation) := by
  unfold submit at submitted
  split_ifs at submitted
  split at submitted
  · cases submitted
    exact unchanged_same rfl rfl
  · rename_i admission admits
    obtain ⟨accepting, room, free, same⟩ := (service.admission.submit_eq_ok_iff ..).mp admits
    subst same
    cases submitted
    refine .unchanged _ rfl fun name row => ?_
    constructor
    · rintro ⟨task, member, isStoring⟩
      rcases (Dict.mem_insert_new _ _ _ free _).mp member with old | added
      · exact ⟨task, old, isStoring⟩
      · cases added
        cases isStoring
    · rintro ⟨task, member, isStoring⟩
      exact ⟨task, (Dict.mem_insert_new _ _ _ free _).mpr (Or.inl member), isStoring⟩

theorem ledger_start (found : (key, task) ∈ service.admission.tasks.entries)
    (started : service.start key task = some next) : LedgerStep service next (.start key) := by
  unfold start at started
  split at started
  · rename_i scheduled
    split_ifs at started
    · cases started
      exact unchanged_modify found rfl (by simp [scheduled]) rfl
    · cases started
      refine unchanged_modify found rfl (by simp [scheduled]) ?_
      simp [ledger, setTask, first_call_archives_nothing]
  · cases started

/-- The runtime has given out a thread: its row is on its way, and its task waits for it. -/
theorem ledger_created {principal : ServicePrincipal} {threadId : String}
    (found : (key, task) ∈ service.admission.tasks.entries)
    (idle : ∀ row, task.phase ≠ .storing row)
    (created : service.threadCreated key task principal threadId = some next) :
    LedgerStep service next (.settle key (.ok (.thread threadId))) := by
  unfold threadCreated at created
  split_ifs at created with fresh
  cases created
  refine .created
    { id := key, tenantId := principal.tenantId, userId := principal.userId
      runtimeThreadId := threadId } fresh rfl fun name other => ?_
  rw [storing_modify found rfl]
  simp only [Phase.storing.injEq]
  constructor
  · rintro (⟨waits, _⟩ | ⟨same, isRow⟩)
    · exact Or.inl waits
    · exact Or.inr ⟨same, isRow.symm⟩
  · rintro (waits | ⟨same, isRow⟩)
    · refine Or.inl ⟨waits, ?_⟩
      rintro rfl
      exact idle other ((storing_found found other).mp waits)
    · exact Or.inr ⟨same, isRow.symm⟩

theorem ledger_settle {result : Except RuntimeFault Value}
    (found : (key, task) ∈ service.admission.tasks.entries)
    (settled : service.settle result key task = some next) :
    LedgerStep service next (.settle key result) := by
  unfold settle at settled
  split at settled
  · rename_i call calling
    have idle : ∀ row, task.phase ≠ .storing row := by simp [calling]
    split_ifs at settled
    split at settled
    · exact ledger_created found idle settled
    · cases settled
      exact unchanged_leave found idle _
  · rename_i row archiving
    have idle : ∀ row, task.phase ≠ .storing row := by simp [archiving]
    split_ifs at settled
    split at settled
    · cases settled
      exact unchanged_leave found idle _
    · cases settled
      exact unchanged_leave found idle _
  · cases settled

theorem ledger_emit {event : AgentEvent} (found : (key, task) ∈ service.admission.tasks.entries)
    (emitted : service.emit event key task = some next) :
    LedgerStep service next (.emit key event) := by
  unfold emit at emitted
  split at emitted
  · rename_i calling _ _
    split at emitted
    · cases emitted
      exact unchanged_modify found rfl (fun _ => Iff.rfl) rfl
    · cases emitted
      exact unchanged_leave found (by simp [calling]) _
  · cases emitted

theorem ledger_stored (found : (key, task) ∈ service.admission.tasks.entries)
    (returned : service.stored key task = some next) : LedgerStep service next (.stored key) := by
  unfold stored at returned
  split at returned
  · rename_i row storing
    split_ifs at returned with blocked
    cases returned
    have inserted : row ∈ service.conversations := by
      simp only [Bool.or_eq_true, not_or, Bool.not_eq_true', Bool.not_eq_false] at blocked
      exact List.contains_iff_mem.mp blocked.2
    exact .returned key row ⟨task, found, storing⟩ inserted rfl (storing_pop rfl)
  · cases returned

theorem ledger_store_fails (found : (key, task) ∈ service.admission.tasks.entries)
    (failed : service.storeFails key task = some next) :
    LedgerStep service next (.storeFails key) := by
  unfold storeFails at failed
  split at failed
  · rename_i row storing
    split_ifs at failed
    cases failed
    refine .raised key row ⟨task, found, storing⟩ ?_ (storing_goes_on found rfl (by simp))
    simp [ledger, setTask, PortCall.archives?]
  · cases failed

theorem ledger_store_cancelled (found : (key, task) ∈ service.admission.tasks.entries)
    (cancelled : service.storeCancelled key task = some next) :
    LedgerStep service next (.storeCancelled key) := by
  unfold storeCancelled at cancelled
  split at cancelled
  · rename_i row storing
    split_ifs at cancelled
    cases cancelled
    refine .cutOff key row ⟨task, found, storing⟩ ⟨?_, task, ?_, storing⟩ rfl (storing_pop rfl)
    · exact Bool.and_false _
    · exact List.mem_append_right _ (List.mem_singleton_self _)
  · cases cancelled

theorem ledger_consume {index : Nat} {action : ConsumerAction}
    (consumed : service.consume index action = some next) :
    LedgerStep service next (.consumer index action) := by
  unfold consume at consumed
  split at consumed
  · cases consumed
    exact unchanged_same rfl rfl
  · rename_i target _ _
    cases consumed
    cases target with
    | task other =>
        refine unchanged_map rfl ?_ rfl
        intro task
        unfold Task.cancelFor
        split_ifs <;> rfl
    | shield other => exact unchanged_same rfl rfl
  · obtain ⟨stream, _, rfl⟩ := Option.map_eq_some_iff.mp consumed
    exact unchanged_same rfl rfl
  · cases consumed

theorem ledger_step (stepped : service.step label = some next) :
    LedgerStep service next label := by
  cases label with
  | submit operation => exact ledger_submit stepped
  | start key =>
      obtain ⟨task, found, started⟩ := on_task_eq_some stepped
      exact ledger_start found started
  | settle key result =>
      obtain ⟨task, found, settled⟩ := on_task_eq_some stepped
      exact ledger_settle found settled
  | emit key event =>
      obtain ⟨task, found, emitted⟩ := on_task_eq_some stepped
      exact ledger_emit found emitted
  | commit row =>
      simp only [step, commit] at stepped
      split_ifs at stepped with pending
      obtain ⟨rows, created, rfl⟩ := Option.map_eq_some_iff.mp stepped
      refine .committed row pending ?_ fun _ _ => Iff.rfl
      rw [ledger, ConversationRepository.create_appends created]
      rfl
  | insertFails row =>
      simp only [step, insertFails] at stepped
      split_ifs at stepped
      cases stepped
      exact .insertFailed row rfl fun _ _ => Iff.rfl
  | stored key =>
      obtain ⟨task, found, returned⟩ := on_task_eq_some stepped
      exact ledger_stored found returned
  | storeFails key =>
      obtain ⟨task, found, failed⟩ := on_task_eq_some stepped
      exact ledger_store_fails found failed
  | storeCancelled key =>
      obtain ⟨task, found, cancelled⟩ := on_task_eq_some stepped
      exact ledger_store_cancelled found cancelled
  | deadline key =>
      obtain ⟨task, found, expired⟩ := on_task_eq_some stepped
      simp only [deadline] at expired
      split_ifs at expired
      cases expired
      exact unchanged_modify found rfl (fun _ => Iff.rfl) rfl
  | cancel key =>
      obtain ⟨task, found, cancelled⟩ := on_task_eq_some stepped
      simp only [cancel] at cancelled
      split_ifs at cancelled
      cases cancelled
      exact unchanged_modify found rfl (fun _ => Iff.rfl) rfl
  | drain =>
      cases stepped
      exact unchanged_same rfl rfl
  | cancelAfterRuntimeClosed =>
      cases stepped
      exact unchanged_map rfl (fun _ => rfl) rfl
  | consumer index action => exact ledger_consume stepped

/-! ## What is never taken back -/

theorem lost_grows (stepped : service.step label = some next) :
    ∀ entry ∈ service.lost, entry ∈ next.lost := by
  intro entry member
  cases step_effect stepped with
  | left label key task ending found ends =>
      simp only [leave]
      split_ifs
      · exact member
      · exact List.mem_append_left _ member
  | _ => exact member

theorem cut_off_kept (stepped : service.step label = some next) {row : Conversation}
    (cut : service.CutOff key row) : next.CutOff key row := by
  obtain ⟨closed, task, member, isStoring⟩ := cut
  exact ⟨closed_effect (step_effect stepped) closed, task, lost_grows stepped _ member, isStoring⟩

end Service

end AgentHarness.Services
