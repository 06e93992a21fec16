import AgentHarness.Services.ThreadLedger

/-!
# Whose threads, and where they end up

A runtime thread belongs to one conversation and through it to one user of one tenant, and every
call that names a user is made for that one. A thread that was archived belongs to no conversation,
unless the database stores a row the repository has given up. None the runtime has given out is
forgotten: where the service does not see to its row any more, it has closed admission.
-/

namespace AgentHarness.Services

open AgentHarness.Library AgentHarness.Events AgentHarness.Runtime AgentHarness.Conversations

set_option autoImplicit false

def OwnedBy (row : Conversation) (principal : ServicePrincipal) : Prop :=
  row.tenantId = principal.tenantId ∧ row.userId = principal.userId

/-- The call works on the thread of the conversation, for its owner. -/
def PortCall.OnBehalfOf (row : Conversation) : PortCall → Prop
  | .createThread _ | .archiveThread _ => False
  | .readThread threadId principal | .compactThread threadId principal =>
      row.runtimeThreadId = threadId ∧ OwnedBy row principal
  | .runTurn threadId conversationId _ principal
  | .streamTurn threadId conversationId _ principal =>
      row.runtimeThreadId = threadId ∧ row.id = conversationId ∧ OwnedBy row principal

/-- The call names an existing thread and a user. `create_thread` names no thread yet, and
`archive_thread` no user. -/
def PortCall.onThreadForUser : PortCall → Bool
  | .createThread _ | .archiveThread _ => false
  | _ => true

namespace Service

variable {service next : Service} {label : Label}

/-! ## What each step appends to the port calls -/

/-- A step makes at most one call: the first one of a task that starts, or the archiving of a thread
whose row was not stored. -/
inductive CallStep (service : Service) : List PortCall → Prop where
  | none : CallStep service service.calls
  | first (key : String) (task : Task) (found : (key, task) ∈ service.admission.tasks.entries) :
      CallStep service (service.calls ++ [task.operation.firstCall])
  | archive (key : String) (task : Task) (row : Conversation)
      (found : (key, task) ∈ service.admission.tasks.entries) (storing : task.phase = .storing row) :
      CallStep service (service.calls ++ [.archiveThread row.runtimeThreadId])

theorem call_step (stepped : service.step label = some next) : CallStep service next.calls := by
  cases label with
  | submit operation =>
      simp only [step, submit] at stepped
      split_ifs at stepped
      split at stepped
      · cases stepped
        exact .none
      · cases stepped
        exact .none
  | start key =>
      obtain ⟨task, found, started⟩ := on_task_eq_some stepped
      unfold start at started
      split at started
      · split_ifs at started
        · cases started
          exact .none
        · cases started
          exact .first key task found
      · cases started
  | settle key result =>
      obtain ⟨task, found, settled⟩ := on_task_eq_some stepped
      unfold settle at settled
      split at settled
      · split_ifs at settled
        split at settled
        · unfold threadCreated at settled
          split_ifs at settled
          cases settled
          exact .none
        · cases settled
          exact .none
      · split_ifs at settled
        split at settled
        · cases settled
          exact .none
        · cases settled
          exact .none
      · cases settled
  | emit key event =>
      obtain ⟨task, found, emitted⟩ := on_task_eq_some stepped
      unfold emit at emitted
      split at emitted
      · split at emitted
        · cases emitted
          exact .none
        · cases emitted
          exact .none
      · cases emitted
  | commit row =>
      simp only [step, commit] at stepped
      split_ifs at stepped
      obtain ⟨rows, created, same⟩ := Option.map_eq_some_iff.mp stepped
      cases same
      exact .none
  | insertFails row =>
      simp only [step, insertFails] at stepped
      split_ifs at stepped
      cases stepped
      exact .none
  | stored key =>
      obtain ⟨task, found, stepped⟩ := on_task_eq_some stepped
      unfold stored at stepped
      split at stepped
      · split_ifs at stepped
        cases stepped
        exact .none
      · cases stepped
  | storeFails key =>
      obtain ⟨task, found, failed⟩ := on_task_eq_some stepped
      unfold storeFails at failed
      split at failed
      · rename_i row storing
        split_ifs at failed
        cases failed
        exact .archive key task row found storing
      · cases failed
  | storeCancelled key =>
      obtain ⟨task, found, stepped⟩ := on_task_eq_some stepped
      unfold storeCancelled at stepped
      split at stepped
      · split_ifs at stepped
        cases stepped
        exact .none
      · cases stepped
  | deadline key =>
      obtain ⟨task, found, stepped⟩ := on_task_eq_some stepped
      simp only [deadline] at stepped
      split_ifs at stepped
      cases stepped
      exact .none
  | cancel key =>
      obtain ⟨task, found, stepped⟩ := on_task_eq_some stepped
      simp only [cancel] at stepped
      split_ifs at stepped
      cases stepped
      exact .none
  | drain =>
      cases stepped
      exact .none
  | cancelAfterRuntimeClosed =>
      cases stepped
      exact .none
  | consumer index action =>
      simp only [step, consume] at stepped
      split at stepped
      · cases stepped
        exact .none
      · rename_i target _ _
        cases stepped
        cases target <;> exact .none
      · obtain ⟨stream, _, same⟩ := Option.map_eq_some_iff.mp stepped
        cases same
        exact .none
      · cases stepped

/-! ## Isolation -/

structure Isolated (service : Service) : Prop where
  threads : (service.conversations.map Conversation.runtimeThreadId).Nodup
  tasks : ∀ entry ∈ service.admission.tasks.entries, ∀ conversation principal,
    entry.2.operation.resolved = some (conversation, principal) →
      conversation ∈ service.conversations ∧ OwnedBy conversation principal
  calls : ∀ call ∈ service.calls, call.onThreadForUser = true →
    ∃ row ∈ service.conversations, call.OnBehalfOf row

theorem conversations_step (stepped : service.step label = some next) :
    next.conversations = service.conversations ∨
      ∃ row, ConversationRepository.create service.conversations row = some next.conversations := by
  cases step_effect stepped with
  | committed row rows pending created => exact Or.inr ⟨row, created⟩
  | _ => exact Or.inl rfl

theorem conversations_grow (stepped : service.step label = some next) :
    ∀ row ∈ service.conversations, row ∈ next.conversations := by
  intro row member
  rcases conversations_step stepped with same | ⟨added, created⟩
  · rw [same]
    exact member
  · rw [ConversationRepository.create_appends created]
    exact List.mem_append_left _ member

/-- The unique thread column. -/
theorem threads_distinct (stepped : service.step label = some next)
    (distinct : (service.conversations.map Conversation.runtimeThreadId).Nodup) :
    (next.conversations.map Conversation.runtimeThreadId).Nodup := by
  rcases conversations_step stepped with same | ⟨added, created⟩
  · rw [same]
    exact distinct
  · unfold ConversationRepository.create at created
    split_ifs at created with accepted
    simp only [Bool.and_eq_true, Bool.not_eq_true', ConversationRepository.conflicts,
      List.any_eq_false, Bool.or_eq_true, decide_eq_true_eq, not_or] at accepted
    rw [← Option.some.inj created, List.map_append, List.nodup_append]
    refine ⟨distinct, by simp, ?_⟩
    intro threadId taken other isAdded same
    have ⟨row, member, isThread⟩ := List.mem_map.mp taken
    rw [List.map_singleton, List.mem_singleton] at isAdded
    exact (accepted.2 row member).2 (isThread.trans (same.trans isAdded))

theorem resolved_owned {operation : Operation} (resolves : service.resolves operation = true)
    {conversation : Conversation} {principal : ServicePrincipal}
    (resolved : operation.resolved = some (conversation, principal)) :
    conversation ∈ service.conversations ∧ OwnedBy conversation principal := by
  simp only [Service.resolves, resolved, decide_eq_true_eq] at resolves
  obtain ⟨member, _, tenant, user⟩ := ConversationRepository.get_owned_sound resolves
  exact ⟨member, tenant, user⟩

/-- Every task in the table after a step runs the operation of one that was there, or of the request
that has just resolved its conversation. -/
theorem operation_step (stepped : service.step label = some next) :
    ∀ entry ∈ next.admission.tasks.entries,
      (∃ old ∈ service.admission.tasks.entries, entry.2.operation = old.2.operation) ∨
        service.resolves entry.2.operation = true := by
  intro entry member
  cases step_effect stepped with
  | refused operation => exact Or.inl ⟨entry, member, rfl⟩
  | admitted operation resolved accepting room free =>
      rcases (Dict.mem_insert_new _ _ _ free _).mp member with old | added
      · exact Or.inl ⟨entry, old, rfl⟩
      · rw [added]
        exact Or.inr resolved
  | continued label key task after calls consumers answers found continues kept =>
      rcases (Dict.mem_modify _ _ _ _).mp member with ⟨old, _⟩ | ⟨_, _, same⟩
      · exact Or.inl ⟨entry, old, rfl⟩
      · rw [same]
        exact Or.inl ⟨_, found, continues.operation⟩
  | threadCreated key task principal row call found calling operation fresh named =>
      rcases (Dict.mem_modify _ _ _ _).mp member with ⟨old, _⟩ | ⟨_, _, same⟩
      · exact Or.inl ⟨entry, old, rfl⟩
      · rw [same]
        exact Or.inl ⟨_, found, rfl⟩
  | left label key task ending found ends =>
      exact Or.inl ⟨entry, ((Dict.mem_pop _ _ _).mp member).1, rfl⟩
  | committed row rows pending created => exact Or.inl ⟨entry, member, rfl⟩
  | insertFailed row pending => exact Or.inl ⟨entry, member, rfl⟩
  | drained => exact Or.inl ⟨entry, member, rfl⟩
  | cancelledAll label change consumers answers continues kept =>
      have ⟨task, found, changed⟩ := (Dict.mem_map_values _ _ _).mp member
      refine Or.inl ⟨_, found, ?_⟩
      rw [changed]
      exact (continues task).operation
  | consumed index action consumers kept => exact Or.inl ⟨entry, member, rfl⟩

theorem first_call_on_behalf {operation : Operation} {conversation : Conversation}
    {principal : ServicePrincipal} (resolved : operation.resolved = some (conversation, principal))
    (owned : OwnedBy conversation principal) : operation.firstCall.OnBehalfOf conversation := by
  cases operation <;> cases resolved
  · exact ⟨rfl, owned⟩
  · exact ⟨rfl, owned⟩
  · exact ⟨rfl, rfl, owned⟩
  · exact ⟨rfl, rfl, owned⟩

theorem isolated_step (isolated : Isolated service) (stepped : service.step label = some next) :
    Isolated next where
  threads := threads_distinct stepped isolated.threads
  tasks := by
    intro entry member conversation principal resolved
    rcases operation_step stepped entry member with ⟨old, oldMem, same⟩ | resolves
    · rw [same] at resolved
      have ⟨stored, owned⟩ := isolated.tasks old oldMem conversation principal resolved
      exact ⟨conversations_grow stepped _ stored, owned⟩
    · have ⟨stored, owned⟩ := resolved_owned resolves resolved
      exact ⟨conversations_grow stepped _ stored, owned⟩
  calls := by
    have earlier : ∀ call ∈ service.calls, call.onThreadForUser = true →
        ∃ row ∈ next.conversations, call.OnBehalfOf row := by
      intro call member works
      have ⟨row, stored, onBehalf⟩ := isolated.calls call member works
      exact ⟨row, conversations_grow stepped _ stored, onBehalf⟩
    intro call member works
    have called := call_step stepped
    generalize next.calls = calls at member called
    cases called with
    | none => exact earlier call member works
    | first key task found =>
        rcases List.mem_append.mp member with before | added
        · exact earlier call before works
        · rw [List.mem_singleton.mp added] at works ⊢
          cases resolved : task.operation.resolved with
          | none =>
              cases operation : task.operation <;> rw [operation] at resolved works
              · cases works
              all_goals cases resolved
          | some pair =>
              have ⟨stored, owned⟩ := isolated.tasks _ found pair.1 pair.2 resolved
              exact ⟨pair.1, conversations_grow stepped _ stored,
                first_call_on_behalf resolved owned⟩
    | archive key task row found storing =>
        rcases List.mem_append.mp member with before | added
        · exact earlier call before works
        · rw [List.mem_singleton.mp added] at works
          cases works

theorem isolated_new (limit : Nat) (positive : 1 ≤ limit) (conversations : List Conversation)
    (unique : (conversations.map Conversation.runtimeThreadId).Nodup) :
    Isolated (new limit positive conversations) where
  threads := unique
  tasks := by
    intro entry member
    cases member
  calls := by
    intro call member
    cases member

/-! ## Archived threads -/

/-- At some step of the run the repository raised for a row that the database had not refused: the
answer of its transaction was lost, and it was committed, or still open. -/
def RaisedUnrefused (start : Service) (labels : List Label) (row : Conversation) : Prop :=
  ∃ earlier key later middle, labels = earlier ++ .storeFails key :: later ∧
    machine.run start earlier = some middle ∧ middle.Storing key row ∧ middle.ledger.Unrefused row

/-- The archived threads of a ledger, beside the rows that tasks wait for and those whose insert was
reported as failed without having been refused. -/
structure Archives (book : Ledger) (waits late : Conversation → Prop) : Prop where
  known : ∀ row, book.Unrefused row ∨ waits row → row.runtimeThreadId ∈ book.threads.map Prod.fst
  single : ∀ row other, waits row → book.Unrefused other →
    other.runtimeThreadId = row.runtimeThreadId → other = row
  given : ∀ threadId ∈ book.archived, threadId ∈ book.threads.map Prod.fst
  apart : ∀ threadId ∈ book.archived, ∀ row, book.Unrefused row →
    row.runtimeThreadId = threadId → late row

section Archives

variable {book : Ledger} {waits late : Conversation → Prop} {row : Conversation}

theorem archives_fewer (archives : Archives book waits late) {fewer : Conversation → Prop}
    (waiting : ∀ row, fewer row → waits row) : Archives book fewer late where
  known row held := archives.known row (held.imp_right (waiting row))
  single row other waited := archives.single row other (waiting row waited)
  given := archives.given
  apart := archives.apart

theorem archives_later (archives : Archives book waits late) {later : Conversation → Prop}
    (kept : ∀ row, late row → later row) : Archives book waits later where
  known := archives.known
  single := archives.single
  given := archives.given
  apart threadId member row held same := kept row (archives.apart threadId member row held same)

/-- Rows that are stored or given up, and none that is new. -/
theorem archives_moved (archives : Archives book waits late)
    {conversations inserts : List Conversation}
    (moved : ∀ row, row ∈ conversations ∨ row ∈ inserts → book.Unrefused row) :
    Archives { book with conversations := conversations, inserts := inserts } waits late where
  known row held := archives.known row (held.imp_left (moved row))
  single row other waited held := archives.single row other waited (moved other held)
  given := archives.given
  apart threadId member row held := archives.apart threadId member row (moved row held)

/-- A thread that is new to the ledger. -/
theorem archives_created (archives : Archives book waits late)
    (fresh : row.runtimeThreadId ∉ book.threads.map Prod.fst) :
    Archives { book with
      threads := book.threads ++ [(row.runtimeThreadId, row.id)]
      inserts := book.inserts ++ [row] } (fun other => waits other ∨ other = row) late := by
  have foreign : ∀ other, book.Unrefused other ∨ waits other →
      other.runtimeThreadId ≠ row.runtimeThreadId := by
    intro other held same
    exact fresh (same ▸ archives.known other held)
  have grown : ∀ threadId ∈ book.threads.map Prod.fst,
      threadId ∈ (book.threads ++ [(row.runtimeThreadId, row.id)]).map Prod.fst := by
    intro threadId member
    rw [List.map_append]
    exact List.mem_append_left _ member
  have added : row.runtimeThreadId ∈
      (book.threads ++ [(row.runtimeThreadId, row.id)]).map Prod.fst := by simp
  have earlier : ∀ other, other ∈ book.conversations ∨ other ∈ book.inserts ++ [row] →
      book.Unrefused other ∨ other = row := by
    rintro other (stored | inserting)
    · exact Or.inl (Or.inl stored)
    · exact (List.mem_append.mp inserting).imp Or.inr List.mem_singleton.mp
  refine ⟨?_, ?_, ?_, ?_⟩
  · rintro other (held | waited | rfl)
    · rcases earlier other held with old | rfl
      · exact grown _ (archives.known other (Or.inl old))
      · exact added
    · exact grown _ (archives.known other (Or.inr waited))
    · exact added
  · intro one other waited held same
    rcases waited with waited | rfl
    · rcases earlier other held with old | rfl
      · exact archives.single one other waited old same
      · exact absurd same.symm (foreign one (Or.inr waited))
    · rcases earlier other held with old | isRow
      · exact absurd same (foreign other (Or.inl old))
      · exact isRow
  · exact fun threadId member => grown threadId (archives.given threadId member)
  · intro threadId member other held same
    rcases earlier other held with old | rfl
    · exact archives.apart threadId member other old same
    · exact absurd (same ▸ archives.given threadId member) fresh

/-- The thread of a row that was waited for is archived. -/
theorem archives_raised (archives : Archives book waits late) (waited : waits row)
    (unrefused : book.Unrefused row → late row) :
    Archives { book with archived := book.archived ++ [row.runtimeThreadId] } waits late := by
  refine ⟨archives.known, archives.single, ?_, ?_⟩
  · intro threadId member
    rcases List.mem_append.mp member with old | new
    · exact archives.given threadId old
    · rw [List.mem_singleton.mp new]
      exact archives.known row (Or.inr waited)
  · intro threadId member other held same
    rcases List.mem_append.mp member with old | new
    · exact archives.apart threadId old other held same
    · have isRow : other = row :=
        archives.single row other waited held (same.trans (List.mem_singleton.mp new))
      subst isRow
      exact unrefused held

end Archives

/-- The tasks and the run behind the ledger of a service. -/
def Archived (start : Service) (labels : List Label) (service : Service) : Prop :=
  Archives service.ledger (fun row => ∃ key, service.Storing key row)
    (RaisedUnrefused start labels)

theorem archived_step {start : Service} {labels : List Label}
    (archived : Archived start labels service) (reached : machine.run start labels = some service)
    (stepped : service.step label = some next) : Archived start (labels ++ [label]) next := by
  have longer : ∀ row, RaisedUnrefused start labels row →
      RaisedUnrefused start (labels ++ [label]) row := by
    rintro row ⟨earlier, key, later, middle, split, raised⟩
    exact ⟨earlier, key, later ++ [label], middle, by simp [split], raised⟩
  have grown := archives_later archived longer
  have waiting : (∀ key row, next.Storing key row → service.Storing key row) →
      ∀ row, (∃ key, next.Storing key row) → ∃ key, service.Storing key row :=
    fun fewer row ⟨key, waits⟩ => ⟨key, fewer key row waits⟩
  unfold Archived
  cases ledger_step stepped with
  | unchanged label ledger storing =>
      rw [ledger]
      exact archives_fewer grown (waiting fun key row => (storing key row).mp)
  | created row fresh ledger storing =>
      rw [ledger]
      apply archives_fewer (archives_created grown fresh)
      rintro other ⟨key, waits⟩
      exact ((storing key other).mp waits).imp (fun old => ⟨key, old⟩) And.right
  | committed row pending ledger storing =>
      rw [ledger]
      apply archives_fewer (archives_moved grown ?_) (waiting fun key row => (storing key row).mp)
      rintro other (stored | inserting)
      · rcases List.mem_append.mp stored with old | new
        · exact Or.inl old
        · exact Or.inr (List.mem_singleton.mp new ▸ pending)
      · exact Or.inr (List.mem_of_mem_erase inserting)
  | insertFailed row ledger storing =>
      rw [ledger]
      apply archives_fewer (archives_moved grown ?_) (waiting fun key row => (storing key row).mp)
      exact fun other held => held.imp_right List.mem_of_mem_erase
  | raised key row waited ledger storing =>
      -- the run so far is the one in which the repository raises
      have late : service.ledger.Unrefused row →
          RaisedUnrefused start (labels ++ [.storeFails key]) row :=
        fun unrefused => ⟨labels, key, [], service, rfl, reached, waited, unrefused⟩
      rw [ledger]
      exact archives_fewer (archives_raised grown ⟨key, waited⟩ late)
        (waiting fun name other waits => ((storing name other).mp waits).1)
  | returned key row waited inserted ledger storing
  | cutOff key row waited lost ledger storing =>
      rw [ledger]
      exact archives_fewer grown (waiting fun name other waits => ((storing name other).mp waits).1)

theorem archived_new (limit : Nat) (positive : 1 ≤ limit) (conversations : List Conversation) :
    Archived (new limit positive conversations) [] (new limit positive conversations) where
  known := by
    rintro row ((stored | inserting) | ⟨_, _, member, _⟩)
    · exact List.mem_map.mpr ⟨_, List.mem_map.mpr ⟨row, stored, rfl⟩, rfl⟩
    · cases inserting
    · cases member
  single := by
    rintro row other ⟨_, _, member, _⟩
    cases member
  given _ member := by cases member
  apart _ member := by cases member

/-- Whatever requests, cancellations and deadlines do, every call for a user on a thread is made on
behalf of the one conversation the thread belongs to, for the user who owns it; and a thread that
was archived belongs to no conversation, unless the repository raised for a row that the database
had not refused. -/
theorem threads_isolated (limit : Nat) (positive : 1 ≤ limit) (conversations : List Conversation)
    (unique : (conversations.map Conversation.runtimeThreadId).Nodup) (labels : List Label)
    (final : Service)
    (reached : machine.run (new limit positive conversations) labels = some final) :
    (∀ call ∈ final.calls, call.onThreadForUser = true →
      ∃ row ∈ final.conversations, call.OnBehalfOf row ∧
        ∀ other ∈ final.conversations, other.runtimeThreadId = row.runtimeThreadId →
          other = row) ∧
      ∀ threadId, PortCall.archiveThread threadId ∈ final.calls →
        threadId ∈ final.threads.map Prod.fst ∧
          ∀ row ∈ final.conversations, row.runtimeThreadId = threadId →
            RaisedUnrefused (new limit positive conversations) labels row := by
  have isolated := machine.run_invariant Isolated
    (fun _ _ _ before stepped => isolated_step before stepped)
    (isolated_new limit positive conversations unique) reached
  have archived := machine.run_induction (Archived (new limit positive conversations))
    (archived_new limit positive conversations)
    (fun _ _ _ _ before ran stepped => archived_step before ran stepped) reached
  refine ⟨?_, ?_⟩
  · intro call member works
    have ⟨row, stored, onBehalf⟩ := isolated.calls call member works
    exact ⟨row, stored, onBehalf, fun other otherStored same =>
      List.inj_on_of_nodup_map isolated.threads otherStored stored same⟩
  · intro threadId called
    have listed := mem_archived_iff.mpr called
    exact ⟨archived.given threadId listed, fun row stored =>
      archived.apart threadId listed row (Or.inl stored)⟩

/-- The exception occurs: the connection is lost, the thread archived, and the row committed. -/
example : (machine.run (new 1 (by decide) [])
    [.submit (.createConversation "c" { userId := "u", tenantId := "t", roles := ∅ }), .start "c",
      .settle "c" (.ok (.thread "r")), .storeFails "c", .commit ⟨"c", "t", "u", "r"⟩]).map
        (fun final => (final.conversations, final.ledger.archived)) =
    some ([⟨"c", "t", "u", "r"⟩], ["r"]) := by
  decide

/-- One user chats; the row another one asked for is refused, and its thread archived. -/
def twoUsers : List Label :=
  let mine : Conversation := { id := "c", tenantId := "t", userId := "u", runtimeThreadId := "r" }
  [.submit (.chat mine "hi" { userId := "u", tenantId := "t", roles := ∅ }),
    .submit (.createConversation "d" { userId := "v", tenantId := "t", roles := ∅ }),
    .start "d", .start "c", .settle "d" (.ok (.thread "s")), .insertFails ⟨"d", "t", "v", "s"⟩,
    .storeFails "d"]

theorem threads_isolated_two_users :
    ∃ final, machine.run (new 2 (by decide) [⟨"c", "t", "u", "r"⟩]) twoUsers = some final ∧
      final.calls.length = 3 ∧
      (∀ call ∈ final.calls, call.onThreadForUser = true →
        ∃ row ∈ final.conversations, call.OnBehalfOf row ∧
          ∀ other ∈ final.conversations, other.runtimeThreadId = row.runtimeThreadId →
            other = row) ∧
        ∀ threadId, PortCall.archiveThread threadId ∈ final.calls →
          threadId ∈ final.threads.map Prod.fst ∧
            ∀ row ∈ final.conversations, row.runtimeThreadId = threadId →
              RaisedUnrefused (new 2 (by decide) [⟨"c", "t", "u", "r"⟩]) twoUsers row := by
  have reached : (machine.run
      (new 2 (by decide) [⟨"c", "t", "u", "r"⟩]) twoUsers).isSome = true := by
    decide
  exact ⟨_, (Option.some_get reached).symm, rfl,
    threads_isolated 2 (by decide) _ (by decide) twoUsers _ (Option.some_get reached).symm⟩

/-! ## Custody -/

/-- The row of the thread is stored, or the thread was archived, or a task waits for the insert, or
the task that did was cut off. -/
def Fate (service : Service) (row : Conversation) : Prop :=
  row ∈ service.conversations ∨ PortCall.archiveThread row.runtimeThreadId ∈ service.calls ∨
    service.Storing row.id row ∨ service.CutOff row.id row

/-- No thread the runtime has given out is forgotten. -/
def Custody (service : Service) : Prop :=
  ∀ thread ∈ service.threads, ∃ row : Conversation,
    (row.runtimeThreadId, row.id) = thread ∧ service.Fate row

theorem calls_grow (stepped : service.step label = some next) :
    ∀ call ∈ service.calls, call ∈ next.calls := by
  have called := call_step stepped
  generalize next.calls = calls at called
  cases called with
  | none => exact fun _ => id
  | first key task found => exact fun _ => List.mem_append_left _
  | archive key task row found storing => exact fun _ => List.mem_append_left _

/-- A wait ends with the row stored, with the thread archived, or with admission closed. -/
theorem storing_fate (stepped : service.step label = some next) {row : Conversation}
    (waits : service.Storing row.id row) : next.Fate row := by
  cases ledger_step stepped with
  | unchanged label ledger storing
  | committed added pending ledger storing
  | insertFailed added ledger storing =>
      exact Or.inr (Or.inr (Or.inl ((storing row.id row).mpr waits)))
  | created added fresh ledger storing =>
      exact Or.inr (Or.inr (Or.inl ((storing row.id row).mpr (Or.inl waits))))
  | returned key other waited inserted ledger storing =>
      by_cases same : row.id = key
      · have isRow := storing_unique (same ▸ waits) waited
        have kept : next.ledger.conversations = service.conversations := by rw [ledger]; rfl
        rw [isRow]
        exact Or.inl (kept.symm ▸ inserted : other ∈ next.ledger.conversations)
      · exact Or.inr (Or.inr (Or.inl ((storing row.id row).mpr ⟨waits, same⟩)))
  | raised key other waited ledger storing =>
      by_cases same : row.id = key
      · have isRow := storing_unique (same ▸ waits) waited
        refine Or.inr (Or.inl (mem_archived_iff.mp ?_))
        rw [ledger, isRow]
        exact List.mem_append_right _ (List.mem_singleton_self _)
      · exact Or.inr (Or.inr (Or.inl ((storing row.id row).mpr ⟨waits, same⟩)))
  | cutOff key other waited lost ledger storing =>
      by_cases same : row.id = key
      · have isRow := storing_unique (same ▸ waits) waited
        rw [← isRow, ← same] at lost
        exact Or.inr (Or.inr (Or.inr lost))
      · exact Or.inr (Or.inr (Or.inl ((storing row.id row).mpr ⟨waits, same⟩)))

theorem fate_step (stepped : service.step label = some next) {row : Conversation}
    (fate : service.Fate row) : next.Fate row := by
  rcases fate with stored | archived | waits | cut
  · exact Or.inl (conversations_grow stepped row stored)
  · exact Or.inr (Or.inl (calls_grow stepped _ archived))
  · exact storing_fate stepped waits
  · exact Or.inr (Or.inr (Or.inr (cut_off_kept stepped cut)))

/-- A thread is new to the ledger only together with the task that sees to its row. -/
theorem threads_step (stepped : service.step label = some next) :
    ∀ thread ∈ next.threads, thread ∈ service.threads ∨
      ∃ row : Conversation, (row.runtimeThreadId, row.id) = thread ∧ next.Storing row.id row := by
  intro thread member
  have listed : thread ∈ next.ledger.threads := member
  cases ledger_step stepped with
  | created row fresh ledger storing =>
      rw [ledger] at listed
      rcases List.mem_append.mp listed with old | new
      · exact Or.inl old
      · refine Or.inr ⟨row, (List.mem_singleton.mp new).symm, ?_⟩
        exact (storing row.id row).mpr (Or.inr ⟨rfl, rfl⟩)
  | unchanged label ledger storing
  | committed row pending ledger storing
  | insertFailed row ledger storing
  | returned key row waited inserted ledger storing
  | raised key row waited ledger storing
  | cutOff key row waited lost ledger storing =>
      rw [ledger] at listed
      exact Or.inl listed

theorem custody_step (custody : Custody service) (stepped : service.step label = some next) :
    Custody next := by
  intro thread member
  rcases threads_step stepped thread member with old | ⟨row, same, waits⟩
  · obtain ⟨row, same, fate⟩ := custody thread old
    exact ⟨row, same, fate_step stepped fate⟩
  · exact ⟨row, same, Or.inr (Or.inr (Or.inl waits))⟩

theorem custody_new (limit : Nat) (positive : 1 ≤ limit) (conversations : List Conversation) :
    Custody (new limit positive conversations) := by
  intro thread member
  obtain ⟨row, stored, same⟩ := List.mem_map.mp member
  exact ⟨row, same, Or.inl stored⟩

/-- In every run, every thread the runtime has given out has its conversation stored, or was
archived, or its task waits for the insert; where that task was cut off, the operation is among the
lost ones and admission is closed, whether the insert still comes to anything or not. -/
theorem no_thread_forgotten (limit : Nat) (positive : 1 ≤ limit)
    (conversations : List Conversation) (labels : List Label) (final : Service)
    (reached : machine.run (new limit positive conversations) labels = some final) :
    ∀ thread ∈ final.threads, ∃ row : Conversation,
      (row.runtimeThreadId, row.id) = thread ∧ final.Fate row :=
  machine.run_invariant Custody (fun _ _ _ before stepped => custody_step before stepped)
    (custody_new limit positive conversations) reached

/-- A creation whose request is cancelled while its row is being inserted; the insert fails later,
and nobody is told. -/
def interruptedCreation : List Label :=
  [.submit (.createConversation "c" { userId := "u", tenantId := "t", roles := ∅ }), .start "c",
    .settle "c" (.ok (.thread "r")), .cancel "c", .storeCancelled "c",
    .insertFails ⟨"c", "t", "u", "r"⟩]

theorem no_thread_forgotten_interrupted :
    ∃ final, machine.run (new 1 (by decide) []) interruptedCreation = some final ∧
      final.threads = [("r", "c")] ∧ final.conversations = [] ∧ final.inserts = [] ∧
      ∀ thread ∈ final.threads, ∃ row : Conversation,
        (row.runtimeThreadId, row.id) = thread ∧ final.Fate row := by
  have reached : (machine.run (new 1 (by decide) []) interruptedCreation).isSome = true := by
    decide
  exact ⟨_, (Option.some_get reached).symm, rfl, rfl, rfl,
    no_thread_forgotten 1 (by decide) [] interruptedCreation _ (Option.some_get reached).symm⟩

end Service

end AgentHarness.Services
