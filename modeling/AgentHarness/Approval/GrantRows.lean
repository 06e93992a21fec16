import AgentHarness.Approval.GrantStore
import AgentHarness.Approval.LegacyInterference

/-!
# What every row satisfies

Only `ck_execution_grant_complete` is checked by the database. The other relations between the
columns of a row hold because of what each operation writes and of the rows it writes to.
-/

namespace AgentHarness.Approval

open AgentHarness.Library AgentHarness.Conversations AgentHarness.Executions ApprovalRequest

set_option autoImplicit false

/-- The nullable columns of `ck_execution_grant_complete`. -/
structure GrantColumns where
  executionId : Option String
  operation : Option String
  operationArguments : Option Arguments
  expiresAt : Option Int

namespace GrantColumns

def allSet (columns : GrantColumns) : Prop :=
  columns.executionId.isSome ∧ columns.operation.isSome ∧ columns.operationArguments.isSome ∧
    columns.expiresAt.isSome

def allNull (columns : GrantColumns) : Prop :=
  columns.executionId = none ∧ columns.operation = none ∧ columns.operationArguments = none ∧
    columns.expiresAt = none

end GrantColumns

namespace ApprovalRequest

def grantColumns (row : ApprovalRequest) : GrantColumns where
  executionId := row.grant.map ExecutionGrant.executionId
  operation := row.grant.map ExecutionGrant.operation
  operationArguments := row.grant.map ExecutionGrant.operationArguments
  expiresAt := row.grant.map ExecutionGrant.expiresAt

theorem grant_columns_complete (row : ApprovalRequest) :
    row.grantColumns.allSet ∨ row.grantColumns.allNull := by
  unfold grantColumns GrantColumns.allSet GrantColumns.allNull
  cases row.grant with
  | none => exact Or.inr ⟨rfl, rfl, rfl, rfl⟩
  | some grant => exact Or.inl ⟨rfl, rfl, rfl, rfl⟩

/-- The action a structured row was approved for. -/
def boundAction (row : ApprovalRequest) (grant : ExecutionGrant) : Action where
  conversationId := row.conversationId
  userId := row.requesterUserId
  tenantId := row.tenantId
  operation := grant.operation
  arguments := grant.operationArguments

end ApprovalRequest

/-- What a structured row is bound to. -/
structure BoundGrant (service : ExecutionService) (conversations : List Conversation)
    (clock : Int) (row : ApprovalRequest) (grant : ExecutionGrant) : Prop where
  approvalKey : row.approvalKey = service.digest (row.boundAction grant).canonical
  owned : ∃ conversation ∈ conversations, conversation.id = row.conversationId ∧
    conversation.tenantId = row.tenantId ∧ conversation.userId = row.requesterUserId
  validated : ∃ validator sent, service.operations grant.operation = some validator ∧
    validator sent = .ok grant.operationArguments
  consumedInTime : ∀ consumedAt, row.consumedAt = some consumedAt →
    consumedAt < grant.expiresAt ∧ consumedAt ≤ clock

structure GrantRow (service : ExecutionService) (conversations : List Conversation)
    (clock : Int) (row : ApprovalRequest) : Prop where
  undecided : row.status = .pending ↔
    row.decision = none ∧ row.decidedBy = none ∧ row.decidedAt = none
  approved : row.status = .approved ∨ row.status = .consumed →
    row.decision = some Decision.approve.text
  rejected : row.status = .rejected ↔ row.decision = some Decision.reject.text
  consumed : row.consumedAt.isSome ↔ row.status = .consumed
  complete : row.grantColumns.allSet ∨ row.grantColumns.allNull
  bound : ∀ grant, row.grant = some grant → BoundGrant service conversations clock row grant

/-! ## What the operations write -/

namespace GrantRow

variable {service : ExecutionService} {conversations : List Conversation} {clock : Int}
  {row : ApprovalRequest}

theorem unconsumed (lawful : GrantRow service conversations clock row)
    (other : row.status ≠ .consumed) : row.consumedAt = none := by
  have notSome : ¬ row.consumedAt.isSome := fun isSome => other (lawful.consumed.mp isSome)
  simpa using notSome

/-- Conversations stay and the clock goes on. -/
theorem later (lawful : GrantRow service conversations clock row)
    {nextConversations : List Conversation} {nextClock : Int}
    (keeps : ∀ conversation ∈ conversations, conversation ∈ nextConversations)
    (ticks : clock ≤ nextClock) : GrantRow service nextConversations nextClock row where
  undecided := lawful.undecided
  approved := lawful.approved
  rejected := lawful.rejected
  consumed := lawful.consumed
  complete := lawful.complete
  bound := by
    intro grant isGrant
    have bound := lawful.bound grant isGrant
    obtain ⟨conversation, member, names⟩ := bound.owned
    constructor
    · exact bound.approvalKey
    · exact ⟨conversation, keeps conversation member, names⟩
    · exact bound.validated
    · intro consumedAt isConsumed
      obtain ⟨inTime, shown⟩ := bound.consumedInTime consumedAt isConsumed
      exact ⟨inTime, shown.trans ticks⟩

/-- A row that no statement has updated yet. -/
theorem of_frozen (unchanged : row.frozen = row)
    (bound : ∀ grant, row.grant = some grant → BoundGrant service conversations clock row grant) :
    GrantRow service conversations clock row := by
  have isPending : row.status = .pending := (congrArg ApprovalRequest.status unchanged).symm
  have noDecision : row.decision = none := (congrArg ApprovalRequest.decision unchanged).symm
  have noDecider : row.decidedBy = none := (congrArg ApprovalRequest.decidedBy unchanged).symm
  have noTime : row.decidedAt = none := (congrArg ApprovalRequest.decidedAt unchanged).symm
  have noUse : row.consumedAt = none := (congrArg ApprovalRequest.consumedAt unchanged).symm
  constructor
  · simp [isPending, noDecision, noDecider, noTime]
  · simp [isPending]
  · simp [isPending, noDecision]
  · simp [isPending, noUse]
  · exact row.grant_columns_complete
  · exact bound

theorem of_legacy_row (arguments : CreatePending) (id : String) (now : Int) :
    GrantRow service conversations clock (ApprovalRepository.legacyRow arguments id now) := by
  apply of_frozen rfl
  intro grant isGrant
  cases isGrant

theorem of_new_grant {request : PrepareRequest} {wanted : PrepareExecution} {found : Conversation}
    (asks : service.Asks request wanted)
    (owned : ConversationRepository.getOwned conversations request.conversationId
      request.tenantId request.userId = some found) (id executionId : String) (now : Int) :
    GrantRow service conversations clock (newGrant wanted id executionId now) := by
  apply of_frozen rfl
  intro grant isGrant
  cases isGrant
  obtain ⟨member, sameId, sameTenant, sameUser⟩ := ConversationRepository.get_owned_sound owned
  obtain ⟨validator, registered, accepted⟩ := asks.validated
  constructor
  · exact asks.approvalKey
  · exact ⟨found, member, sameId.trans asks.conversationId.symm,
      sameTenant.trans asks.tenantId.symm, sameUser.trans asks.userId.symm⟩
  · refine ⟨validator, request.arguments, ?_, accepted⟩
    rw [← registered]
    exact congrArg service.operations asks.operation
  · intro consumedAt isConsumed
    cases isConsumed

theorem apply_decision (lawful : GrantRow service conversations clock row)
    (isPending : row.status = .pending) (decision : Decision) (decidedBy : String) (now : Int) :
    GrantRow service conversations clock (applyDecision decision decidedBy now row) := by
  have unconsumed := lawful.unconsumed (by rw [isPending]; decide)
  constructor
  · cases decision <;> simp [applyDecision, Decision.newStatus]
  · cases decision <;> simp [applyDecision, Decision.newStatus]
  · cases decision <;> simp [applyDecision, Decision.newStatus, Decision.text]
  · cases decision <;> simp [applyDecision, Decision.newStatus, unconsumed]
  · exact grant_columns_complete _
  · intro grant isGrant
    have bound := lawful.bound grant isGrant
    exact ⟨bound.approvalKey, bound.owned, bound.validated, bound.consumedInTime⟩

theorem consume (lawful : GrantRow service conversations clock row)
    (isApproved : row.status = .approved) (now : Int)
    (inTime : ∀ grant, row.grant = some grant → now < grant.expiresAt ∧ now ≤ clock) :
    GrantRow service conversations clock (ApprovalRequest.consume now row) where
  undecided := by
    constructor
    · intro stillPending
      cases stillPending
    · intro undecided
      have isPending := lawful.undecided.mpr undecided
      rw [isApproved] at isPending
      cases isPending
  approved := fun _ => lawful.approved (Or.inl isApproved)
  rejected := by
    constructor
    · intro isRejected
      cases isRejected
    · intro isReject
      have wasRejected := lawful.rejected.mpr isReject
      rw [isApproved] at wasRejected
      cases wasRejected
  consumed := ⟨fun _ => rfl, fun _ => rfl⟩
  complete := grant_columns_complete _
  bound := by
    intro grant isGrant
    have bound := lawful.bound grant isGrant
    refine ⟨bound.approvalKey, bound.owned, bound.validated, ?_⟩
    intro consumedAt isConsumed
    cases isConsumed
    exact inTime grant isGrant

end GrantRow

/-! ## What the legacy statements can do -/

section Statements

variable (store : GrantStore) (caller : Nat)

inductive CreateStep (arguments : CreatePending) :
    CreatePhase → CreatePhase → ApprovalTable → Prop
  | stamp (now : Int) : CreateStep arguments .called (.stamped now) store.table
  | tooWide (now : Int) :
      CreateStep arguments (.stamped now) (.raised .dataError) (store.table.rollback caller)
  | refuse (now : Int) :
      CreateStep arguments (.stamped now) .refused (store.table.rollback caller)
  | insert (now : Int) (drawn : Uuid) (table : ApprovalTable)
      (inserted : RowStore.insertOnConflictDoNothing conflict store.table caller
        (ApprovalRepository.legacyRow arguments drawn.text now) = .inserted table) :
      CreateStep arguments (.stamped now)
        (.inserted (ApprovalRepository.legacyRow arguments drawn.text now)) table
  | finish (item : ApprovalRequest) :
      CreateStep arguments (.inserted item) (.returned item) (store.table.commit caller)
  | existing (row : ApprovalRequest) : CreateStep arguments .refused (.returned row) store.table
  | fail : CreateStep arguments .refused (.raised .integrityError) store.table

theorem create_statement_step {arguments : CreatePending} {phase next : CreatePhase}
    {input : Input} {table : ApprovalTable}
    (ran : store.createStatement caller arguments phase input = some (next, table)) :
    CreateStep store caller arguments phase next table := by
  cases phase <;> cases input
  case called.host now =>
    cases ran
    exact .stamp now
  case stamped.drawn now drawn other =>
    simp only [GrantStore.createStatement] at ran
    split at ran
    · cases ran
      exact .tooWide now
    · split at ran
      · cases ran
      · cases ran
        exact .refuse now
      · rename_i inserted
        split at ran
        · cases ran
          exact .insert now drawn _ inserted
        · cases ran
          exact .refuse now
  case inserted.nothing item =>
    cases ran
    exact .finish item
  case refused.nothing =>
    simp only [GrantStore.createStatement] at ran
    split at ran
    · cases ran
      exact .existing _
    · cases ran
      exact .fail
  all_goals cases ran

inductive ConsumeStep (approvalId : String) :
    ConsumePhase → ConsumePhase → ApprovalTable → Prop
  | stamp (now : Int) : ConsumeStep approvalId .called (.stamped now) store.table
  | unstorable (now : Int) :
      ConsumeStep approvalId (.stamped now) (.raised .dataError) (store.table.rollback caller)
  | update (now : Int) (rows : List ApprovalRequest) (table : ApprovalTable)
      (updated : store.table.updateWhere caller (ApprovalRepository.isApprovedLegacy approvalId)
        (consume now) = some (rows, table)) :
      ConsumeStep approvalId (.stamped now) (.updated rows) table
  | finish (rows : List ApprovalRequest) :
      ConsumeStep approvalId (.updated rows) (.returned rows.head?) (store.table.commit caller)

theorem consume_statement_step {approvalId : String} {phase next : ConsumePhase} {input : Input}
    {table : ApprovalTable}
    (ran : store.consumeStatement caller approvalId phase input = some (next, table)) :
    ConsumeStep store caller approvalId phase next table := by
  cases phase <;> cases input
  case called.host now =>
    cases ran
    exact .stamp now
  case stamped.nothing now =>
    simp only [GrantStore.consumeStatement] at ran
    split_ifs at ran
    · cases ran
      exact .unstorable now
    · obtain ⟨⟨rows, written⟩, updated, same⟩ := Option.map_eq_some_iff.mp ran
      cases same
      exact .update now rows _ updated
  case updated.nothing rows =>
    cases ran
    exact .finish rows
  all_goals cases ran

end Statements

/-! ## The table under one statement -/

/-- What a statement of the call leaves: rows only advance, and every version keeps the law. -/
structure TableStep (service : ExecutionService) (store : GrantStore) (caller : Nat)
    (table : ApprovalTable) : Prop where
  transition : RowStore.Transition conflict Advances (fun _ => True) caller store.table table
  grows : table.Grows Advances
  rows : table.Every (GrantRow service store.conversations store.clock)

/-- What a call relies on between its statements. -/
def Knows (service : ExecutionService) (store : GrantStore) (caller : Nat) : GrantCall → Prop
  | .approval (.prepare request (.authorized wanted))
  | .approval (.prepare request (.began wanted _))
  | .approval (.prepare request (.inserted wanted)) =>
      Prepared service store.world request wanted
  | .approval (.prepare _ (.locked _ row grant)) =>
      row.grant = some grant ∧ Writes store.world caller row
  | .approval (.prepare _ (.judged judgement)) =>
      judgement.row.grant = some judgement.grant ∧ Writes store.world caller judgement.row ∧
        judgement.now ≤ store.clock
  | _ => True

structure Lawful (service : ExecutionService) (store : GrantStore) : Prop where
  consistent : store.table.Consistent conflict
  grows : store.table.Grows Advances
  rows : store.table.Every (GrantRow service store.conversations store.clock)
  calls : ∀ caller call, store.calls[caller]? = some call → Knows service store caller call

section Effects

variable {service : ExecutionService} {store : GrantStore} {caller : Nat} {table : ApprovalTable}

theorem Lawful.none (lawful : Lawful service store) : TableStep service store caller store.table :=
  ⟨RowStore.transition_none discipline lawful.consistent, lawful.grows, lawful.rows⟩

theorem Lawful.commit (lawful : Lawful service store) :
    TableStep service store caller (store.table.commit caller) :=
  ⟨RowStore.transition_commit discipline lawful.consistent lawful.grows,
    RowStore.grows_commit lawful.grows, RowStore.every_commit lawful.rows⟩

theorem Lawful.rollback (lawful : Lawful service store) :
    TableStep service store caller (store.table.rollback caller) :=
  ⟨RowStore.transition_rollback discipline lawful.consistent,
    RowStore.grows_rollback lawful.grows, RowStore.every_rollback lawful.rows⟩

theorem Lawful.insert (lawful : Lawful service store) {row : ApprovalRequest}
    (keeps : GrantRow service store.conversations store.clock row)
    (inserted : RowStore.insertOnConflictDoNothing conflict store.table caller row =
      .inserted table) : TableStep service store caller table :=
  ⟨RowStore.transition_insert discipline lawful.consistent trivial inserted,
    RowStore.grows_insert lawful.grows inserted,
    RowStore.every_insert lawful.rows keeps inserted⟩

theorem Lawful.update (lawful : Lawful service store) {wanted : ApprovalRequest → Bool}
    {change : ApprovalRequest → ApprovalRequest} {rows : List ApprovalRequest}
    (moves : ∀ slot ∈ store.table.slots, ∀ row, slot.visible caller = some row →
      wanted row = true →
      Advances row (change row) ∧
        GrantRow service store.conversations store.clock (change row))
    (updated : store.table.updateWhere caller wanted change = some (rows, table)) :
    TableStep service store caller table where
  transition := RowStore.transition_update discipline lawful.consistent
    (fun slot member row seen matched => (moves slot member row seen matched).1) updated
  grows := RowStore.grows_update Advances.trans lawful.grows
    (fun slot member row seen matched => (moves slot member row seen matched).1) updated
  rows := RowStore.every_update lawful.rows
    (fun slot member row seen matched => (moves slot member row seen matched).2) updated

theorem Lawful.visible (lawful : Lawful service store) {slot : Slot Nat ApprovalRequest}
    (member : slot ∈ store.table.slots) {row : ApprovalRequest}
    (seen : slot.visible caller = some row) :
    GrantRow service store.conversations store.clock row :=
  lawful.rows slot member row (Slot.visible_mem_versions seen)

theorem Lawful.unique_ids (lawful : Lawful service store) :
    ApprovalRepository.UniqueIds store.rows := by
  apply (RowStore.committed_apart lawful.consistent).imp
  intro row other clear same
  rw [conflict_of_id same] at clear
  cases clear

/-! ## The statements of each call -/

theorem prepare_table_step (lawful : Lawful service store) {request : PrepareRequest}
    {phase after : PreparePhase} {locks : Bool}
    (knows : Knows service store caller (.approval (.prepare request phase)))
    (ran : PrepareStep service store.world caller request phase after table locks) :
    TableStep service store caller table := by
  cases ran with
  | refused error => exact lawful.none
  | authorize row wanted owned authorized => exact lawful.none
  | begin wanted => exact lawful.none
  | tooWide wanted now => exact lawful.rollback
  | conflicted wanted now => exact lawful.none
  | insert wanted now id executionId table inserted =>
      have prepared : Prepared service store.world request wanted := knows
      obtain ⟨found, owned⟩ := prepared.owned
      exact lawful.insert (GrantRow.of_new_grant prepared.asks owned _ _ now) inserted
  | notOne wanted error => exact lawful.rollback
  | lock wanted row grant table isGrant locked =>
      apply lawful.update _ locked
      intro slot member version seen matched
      exact ⟨Advances.refl version, lawful.visible member seen⟩
  | readClock wanted row grant => exact lawful.none
  | issue judgement rows table issues updated =>
      obtain ⟨isGrant, ⟨held, heldMem, written⟩, read⟩ := knows
      apply lawful.update _ updated
      intro slot member row seen matched
      -- the row the call has locked is the only one with its id
      have one : slot = held := RowStore.same_slot conflict_comm lawful.consistent member heldMem
        (Slot.visible_mem_versions seen) (Slot.written_mem_versions written)
        (conflict_of_id (by simpa using matched))
      subst one
      rw [Slot.visible_of_written written] at seen
      cases seen
      simp only [Judgement.issues, issuesAt, Bool.and_eq_true, decide_eq_true_eq] at issues
      obtain ⟨inTime, isApproved⟩ := issues
      refine ⟨consume_advances _ isApproved, GrantRow.consume
        (lawful.rows slot member _ (Slot.written_mem_versions written)) isApproved _ ?_⟩
      intro grant isOther
      rw [isGrant] at isOther
      cases isOther
      exact ⟨inTime, read⟩
  | answer judgement keeps => exact lawful.commit
  | finish judgement => exact lawful.commit

theorem decide_table_step (lawful : Lawful service store) {call after : DecideCall}
    {phase : DecidePhase} {input : Input}
    (ran : DecideStep store.world caller call phase input after table) :
    TableStep service store caller table := by
  cases ran with
  | unknown now other => exact lawful.none
  | start decision now known => exact lawful.none
  | unstorable decision now refused => exact lawful.none
  | update decision now rows table storable updated =>
      apply lawful.update _ updated
      intro slot member row seen matched
      have isPending := ((is_decidable_eq_true_iff _ _ row).mp matched).2.2.1
      exact ⟨apply_decision_advances decision _ now isPending,
        (lawful.visible member seen).apply_decision isPending decision _ now⟩
  | lose decision now matchedAt => exact lawful.commit
  | win decision now matchedAt rowcount changed => exact lawful.commit
  | gone absent => exact lawful.none
  | answer row found => exact lawful.none
  | notFound absent => exact lawful.none
  | otherTenant row found other => exact lawful.none
  | reread row found own => exact lawful.none
  | refuse row now => exact lawful.none

theorem create_table_step (lawful : Lawful service store) {arguments : CreatePending}
    {phase after : CreatePhase} (ran : CreateStep store caller arguments phase after table) :
    TableStep service store caller table := by
  cases ran with
  | stamp now => exact lawful.none
  | tooWide now => exact lawful.rollback
  | refuse now => exact lawful.rollback
  | insert now drawn table inserted =>
      exact lawful.insert (GrantRow.of_legacy_row arguments _ now) inserted
  | finish item => exact lawful.commit
  | existing row => exact lawful.none
  | fail => exact lawful.none

theorem consume_table_step (lawful : Lawful service store) {approvalId : String}
    {phase after : ConsumePhase} (ran : ConsumeStep store caller approvalId phase after table) :
    TableStep service store caller table := by
  cases ran with
  | stamp now => exact lawful.none
  | unstorable now => exact lawful.rollback
  | update now rows table updated =>
      apply lawful.update _ updated
      intro slot member row seen matched
      simp only [ApprovalRepository.isApprovedLegacy, structured, Bool.and_eq_true,
        decide_eq_true_eq, Bool.not_eq_true', Option.isSome_eq_false_iff,
        Option.isNone_iff_eq_none] at matched
      obtain ⟨⟨_, isApproved⟩, noGrant⟩ := matched
      refine ⟨consume_advances now isApproved,
        (lawful.visible member seen).consume isApproved now ?_⟩
      intro grant isGrant
      rw [noGrant] at isGrant
      cases isGrant
  | finish rows => exact lawful.commit

end Effects

/-! ## One step of the store -/

/-- A step of one call, with the table it leaves. -/
inductive GrantCallStep (service : ExecutionService) (store : GrantStore) (caller : Nat) :
    GrantCall → GrantCall → ApprovalTable → Prop
  | prepare (request : PrepareRequest) (phase after : PreparePhase) (table : ApprovalTable)
      (locks : Bool)
      (ran : PrepareStep service store.world caller request phase after table locks) :
      GrantCallStep service store caller (.approval (.prepare request phase))
        (.approval (.prepare request after)) table
  | decide (input : Input) (call after : DecideCall) (table : ApprovalTable)
      (ran : DecideStep store.world caller call call.phase input after table) :
      GrantCallStep service store caller (.approval (.decide call)) (.approval (.decide after))
        table
  | createPending (arguments : CreatePending) (phase after : CreatePhase) (table : ApprovalTable)
      (ran : CreateStep store caller arguments phase after table) :
      GrantCallStep service store caller (.createPending arguments phase)
        (.createPending arguments after) table
  | consumeApprovedGrant (approvalId : String) (phase after : ConsumePhase)
      (table : ApprovalTable) (ran : ConsumeStep store caller approvalId phase after table) :
      GrantCallStep service store caller (.consumeApprovedGrant approvalId phase)
        (.consumeApprovedGrant approvalId after) table
  | crash (call after : GrantCall) (table : ApprovalTable)
      (stops : GrantStore.crashed call = some after)
      (rolledBack : table = store.table.rollback caller) :
      GrantCallStep service store caller call after table

inductive GrantStep (service : ExecutionService) (store : GrantStore) : GrantStore → Prop
  | tick (duration : Nat) :
      GrantStep service store { store with clock := store.clock + duration }
  | createConversation (row : Conversation) (conversations : List Conversation)
      (created : ConversationRepository.create store.conversations row = some conversations) :
      GrantStep service store { store with conversations := conversations }
  | call (operation : Operation) :
      GrantStep service store { store with calls := store.calls ++ [operation.begun] }
  | moved (caller : Nat) (before after : GrantCall) (table : ApprovalTable)
      (here : store.calls[caller]? = some before)
      (ran : GrantCallStep service store caller before after table) :
      GrantStep service store (store.put caller after table)

section Steps

variable {service : ExecutionService} {store next : GrantStore} {label : GrantLabel}
  {caller : Nat}

theorem call_statement_step {before after : GrantCall} {input : Input} {table : ApprovalTable}
    (ran : store.callStatement service caller input before = some (after, table)) :
    GrantCallStep service store caller before after table := by
  cases before with
  | approval call =>
      cases call with
      | prepare request phase =>
          obtain ⟨⟨next, written, locks⟩, statement, same⟩ := Option.map_eq_some_iff.mp ran
          cases same
          exact .prepare request phase next _ locks
            (prepare_statement_step _ _ _ _ _ _ _ _ _ statement)
      | decide call =>
          obtain ⟨⟨next, written⟩, statement, same⟩ := Option.map_eq_some_iff.mp ran
          cases same
          exact .decide input call next _
            (decide_statement_step _ _ _ _ _ _ _ statement)
  | createPending arguments phase =>
      obtain ⟨⟨next, written⟩, statement, same⟩ := Option.map_eq_some_iff.mp ran
      cases same
      exact .createPending arguments phase next _
        (create_statement_step store caller statement)
  | consumeApprovedGrant approvalId phase =>
      obtain ⟨⟨next, written⟩, statement, same⟩ := Option.map_eq_some_iff.mp ran
      cases same
      exact .consumeApprovedGrant approvalId phase next _
        (consume_statement_step store caller statement)

theorem grant_step_of_step (stepped : (grantStore service).step store label = some next) :
    GrantStep service store next := by
  cases label with
  | tick duration =>
      cases stepped
      exact .tick duration
  | createConversation row =>
      obtain ⟨conversations, created, same⟩ := Option.map_eq_some_iff.mp stepped
      subst same
      exact .createConversation row conversations created
  | call operation =>
      cases stepped
      exact .call operation
  | statement caller input =>
      obtain ⟨before, here, rest⟩ := Option.bind_eq_some_iff.mp stepped
      obtain ⟨⟨after, table⟩, ran, same⟩ := Option.map_eq_some_iff.mp rest
      subst same
      exact .moved caller before after table here (call_statement_step ran)
  | crash caller =>
      obtain ⟨before, here, rest⟩ := Option.bind_eq_some_iff.mp stepped
      obtain ⟨after, stops, same⟩ := Option.map_eq_some_iff.mp rest
      subst same
      exact .moved caller before after _ here (.crash before after _ stops rfl)

theorem call_table_step (lawful : Lawful service store) {before after : GrantCall}
    {table : ApprovalTable} (knows : Knows service store caller before)
    (ran : GrantCallStep service store caller before after table) :
    TableStep service store caller table := by
  cases ran with
  | prepare request phase after table locks ran => exact prepare_table_step lawful knows ran
  | decide input call after table ran => exact decide_table_step lawful ran
  | createPending arguments phase after table ran => exact create_table_step lawful ran
  | consumeApprovedGrant approvalId phase after table ran => exact consume_table_step lawful ran
  | crash call after table stops rolledBack =>
      rw [rolledBack]
      exact lawful.rollback

/-- What a call knows stays true while others go on. -/
theorem knows_later {call : GrantCall} (later : Later caller store.world next.world)
    (knows : Knows service store caller call) : Knows service next caller call := by
  unfold Knows at knows ⊢
  split at knows
  · exact Prepared.later later.owned knows
  · exact Prepared.later later.owned knows
  · exact Prepared.later later.owned knows
  · exact ⟨knows.1, later.writes _ knows.2⟩
  · exact ⟨knows.1, later.writes _ knows.2.1, knows.2.2.trans later.clock⟩
  · trivial

theorem prepare_knows {request : PrepareRequest} {phase after : PreparePhase} {locks : Bool}
    {table : ApprovalTable}
    (knows : Knows service store caller (.approval (.prepare request phase)))
    (ran : PrepareStep service store.world caller request phase after table locks) (call : GrantCall) :
    Knows service (store.put caller call table) caller (.approval (.prepare request after)) := by
  cases ran with
  | refused error => trivial
  | authorize row wanted owned authorized => exact ⟨authorized, row, owned⟩
  | begin wanted => exact ⟨knows.authorized, knows.owned⟩
  | tooWide wanted now => trivial
  | conflicted wanted now => exact ⟨knows.authorized, knows.owned⟩
  | insert wanted now id executionId table inserted => exact ⟨knows.authorized, knows.owned⟩
  | notOne wanted error => trivial
  | lock wanted row grant table isGrant locked =>
      have selected : row ∈ store.table.select caller (isGrantOf wanted) := by
        have rows := (RowStore.update_inversion locked).2.1
        rw [List.map_id] at rows
        rw [show store.table = store.world.table from rfl, ← rows]
        exact List.mem_singleton_self row
      obtain ⟨slot, member, seen, matched⟩ := (store.table.mem_select_iff _ _ _).mp selected
      exact ⟨isGrant, _, RowStore.update_writes locked member seen matched, rfl⟩
  | readClock wanted row grant => exact ⟨knows.1, knows.2, le_refl _⟩
  | issue judgement rows table issues updated => trivial
  | answer judgement keeps => trivial
  | finish judgement => trivial

/-- A call that has stopped relies on nothing. -/
theorem crashed_knows {call after : GrantCall} (stops : GrantStore.crashed call = some after) :
    Knows service next caller after := by
  unfold GrantStore.crashed at stops
  split at stops
  · obtain ⟨stopped, isStopped, same⟩ := Option.map_eq_some_iff.mp stops
    subst same
    unfold World.crashed at isStopped
    split at isStopped
    · cases isStopped
    · cases isStopped
    · cases isStopped
    · cases isStopped
      trivial
    · split at isStopped
      · cases isStopped
      · cases isStopped
      · cases isStopped
      · cases isStopped
        trivial
  · cases stops
  · cases stops
  · cases stops
  · cases stops
    trivial
  · cases stops
  · cases stops
  · cases stops
  · cases stops
    trivial

theorem call_knows {before after : GrantCall} {table : ApprovalTable}
    (knows : Knows service store caller before)
    (ran : GrantCallStep service store caller before after table) :
    Knows service (store.put caller after table) caller after := by
  cases ran with
  | prepare request phase after table locks ran => exact prepare_knows knows ran _
  | decide input call after table ran => trivial
  | createPending arguments phase after table ran => trivial
  | consumeApprovedGrant approvalId phase after table ran => trivial
  | crash call after table stops rolledBack => exact crashed_knows stops

theorem lawful_put (lawful : Lawful service store) {before after : GrantCall}
    {table : ApprovalTable} (here : store.calls[caller]? = some before)
    (ran : GrantCallStep service store caller before after table) :
    Lawful service (store.put caller after table) := by
  have knows := lawful.calls caller before here
  have effect := call_table_step lawful knows ran
  constructor
  · exact effect.transition.consistent
  · exact effect.grows
  · exact effect.rows
  · intro other call present
    simp only [GrantStore.put] at present
    by_cases same : other = caller
    · subst same
      rw [List.getElem?_set_self (List.getElem?_eq_some_iff.mp here).1] at present
      cases present
      exact call_knows knows ran
    · rw [List.getElem?_set_ne (Ne.symm same)] at present
      apply knows_later _ (lawful.calls other call present)
      constructor
      · exact fun _ _ _ owned => owned
      · exact le_refl _
      · exact effect.transition.advanced
      · intro row writes
        obtain ⟨slot, member, written⟩ := writes
        exact ⟨slot, effect.transition.kept slot member other row same written, written⟩

theorem lawful_step (lawful : Lawful service store)
    (stepped : (grantStore service).step store label = some next) : Lawful service next := by
  cases grant_step_of_step stepped with
  | tick duration =>
      have ticks : store.clock ≤ store.clock + duration := by omega
      refine ⟨lawful.consistent, lawful.grows, ?_, ?_⟩
      · exact lawful.rows.imp fun row keeps => keeps.later (fun _ member => member) ticks
      · intro caller call present
        apply knows_later _ (lawful.calls caller call present)
        exact ⟨fun _ _ _ owned => owned, ticks, fun row member => ⟨row, member, Advances.refl row⟩,
          fun _ writes => writes⟩
  | createConversation row conversations created =>
      have stays : ∀ conversation ∈ store.conversations, conversation ∈ conversations := by
        intro conversation member
        unfold ConversationRepository.create at created
        split_ifs at created
        cases created
        exact List.mem_append_left _ member
      refine ⟨lawful.consistent, lawful.grows, ?_, ?_⟩
      · exact lawful.rows.imp fun version keeps => keeps.later stays (le_refl _)
      · intro caller call present
        apply knows_later _ (lawful.calls caller call present)
        refine ⟨?_, le_refl _, fun row member => ⟨row, member, Advances.refl row⟩,
          fun _ writes => writes⟩
        intro conversationId tenantId userId owned
        obtain ⟨found, isFound⟩ := owned
        exact ⟨found, ConversationRepository.get_owned_create isFound created⟩
  | call operation =>
      refine ⟨lawful.consistent, lawful.grows, lawful.rows, ?_⟩
      intro caller call present
      by_cases inRange : caller < store.calls.length
      · rw [List.getElem?_append_left inRange] at present
        exact lawful.calls caller call present
      · rw [List.getElem?_append_right (by omega)] at present
        have isAdded := List.mem_singleton.mp (List.mem_of_getElem? present)
        rw [isAdded]
        cases operation <;> trivial
  | moved caller before after table here ran => exact lawful_put lawful here ran

end Steps

theorem lawful_start (service : ExecutionService) (conversations : List Conversation)
    (clock : Int) : Lawful service (.start conversations clock) where
  consistent := RowStore.consistent_of_rows List.Pairwise.nil
  grows := by
    intro slot member
    cases member
  rows := by
    intro slot member
    cases member
  calls := by
    intro caller call present
    cases present

/-- Whatever the calls and their interleaving, every version of every row keeps the law. -/
theorem every_grant_row (service : ExecutionService) (conversations : List Conversation)
    (clock : Int) (labels : List GrantLabel) (final : GrantStore)
    (reached : (grantStore service).run (.start conversations clock) labels = some final) :
    final.table.Every (GrantRow service final.conversations final.clock) := by
  have lawful := (grantStore service).run_invariant (Lawful service)
    (fun store label next lawful stepped => lawful_step lawful stepped)
    (lawful_start service conversations clock) reached
  exact lawful.rows

namespace Recorded

def decision (index : Nat) (approvalId : Uuid) : List GrantLabel :=
  [.call (.decide ⟨approvalId.text, "approve", "approver-1", "t-1"⟩), .statement index (.host 0),
    .statement index .nothing, .statement index .nothing, .statement index .nothing]

/-- A message and a grant are asked for at the same time; both are approved and used. -/
def bothConsumed : List GrantLabel :=
  [.createConversation conversation, .call (.createPending (legacyMessage "message")),
    .call (.prepare cancel), .statement 0 (.host 0), .statement 1 .nothing,
    .statement 0 (.drawn (uuid 1) (uuid 9)), .statement 1 .nothing,
    .statement 1 (.drawn (uuid 2) (uuid 3)), .statement 0 .nothing, .statement 1 .nothing,
    .statement 1 .nothing, .statement 1 .nothing] ++
  decision 2 (uuid 1) ++ decision 3 (uuid 2) ++
  [.call (.consumeApprovedGrant (uuid 1).text), .call (.prepare cancel), .statement 4 (.host 0),
    .statement 4 .nothing, .statement 5 .nothing, .statement 5 .nothing, .statement 4 .nothing,
    .statement 5 (.drawn (uuid 4) (uuid 5)), .tick 1, .statement 5 .nothing,
    .statement 5 .nothing, .statement 5 .nothing, .statement 5 .nothing]

theorem both_consumed_rows :
    ((grantStore orderService).run (.start [] 0) bothConsumed).map
      (fun final => final.rows.map fun row => (row.structured, row.status, row.consumedAt)) =
    some [(false, .consumed, some 0), (true, .consumed, some 1)] := by
  decide +kernel

end Recorded

theorem every_grant_row_both_consumed :
    ∃ final, (grantStore Recorded.orderService).run (.start [] 0) Recorded.bothConsumed =
        some final ∧
      final.rows.map (fun row => (row.structured, row.status, row.consumedAt)) =
        [(false, .consumed, some 0), (true, .consumed, some 1)] ∧
      final.table.Every (GrantRow Recorded.orderService final.conversations final.clock) := by
  obtain ⟨final, reached, rows⟩ := Option.map_eq_some_iff.mp Recorded.both_consumed_rows
  exact ⟨final, reached, rows, every_grant_row Recorded.orderService [] 0 Recorded.bothConsumed
    final reached⟩

end AgentHarness.Approval
