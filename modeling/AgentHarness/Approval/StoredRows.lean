import AgentHarness.Approval.GrantRows

/-!
# What an insert fixes

No statement updates the columns that `frozen` keeps. What is true of these columns of every row that
is inserted is true of every version of every row.
-/

namespace AgentHarness.Approval

open AgentHarness.Library AgentHarness.Conversations AgentHarness.Executions ApprovalRequest

set_option autoImplicit false

/-- A property of the fixed columns that every insert of a row the columns take establishes. -/
structure FixedAtInsert (holds : ApprovalRequest → Prop) : Prop where
  frozen : ∀ {row other : ApprovalRequest}, other.frozen = row.frozen → holds row → holds other
  grant : ∀ (wanted : PrepareExecution) (id executionId : Uuid) (now : Int),
    (newGrant wanted id.text executionId.text now).fitsColumns = true →
      holds (newGrant wanted id.text executionId.text now)
  legacy : ∀ (arguments : CreatePending) (id : Uuid) (now : Int),
    (ApprovalRepository.legacyRow arguments id.text now).fitsColumns = true →
      holds (ApprovalRepository.legacyRow arguments id.text now)

section Statements

variable {service : ExecutionService} {store next : GrantStore} {caller : Nat}
  {table : ApprovalTable} {holds : ApprovalRequest → Prop}

theorem stored_update (fixed : FixedAtInsert holds) {wanted : ApprovalRequest → Bool}
    {change : ApprovalRequest → ApprovalRequest} {rows : List ApprovalRequest}
    (stored : store.table.Every holds)
    (updated : store.table.updateWhere caller wanted change = some (rows, table))
    (keeps : ∀ row, (change row).frozen = row.frozen) : table.Every holds := by
  apply RowStore.every_update stored _ updated
  intro slot member row seen _
  exact fixed.frozen (keeps row) (stored slot member row (Slot.visible_mem_versions seen))

/-- The insert comes after the columns have taken the row. -/
theorem prepare_inserts {world : World} {request : PrepareRequest} {wanted : PrepareExecution}
    {now : Int} {input : Input} {after : PreparePhase} {locks : Bool}
    (ran : world.prepareStatement service caller request (.began wanted now) input =
      some (after, table, locks)) :
    table = world.table ∨ table = world.table.rollback caller ∨ ∃ id executionId : Uuid,
      (newGrant wanted id.text executionId.text now).fitsColumns = true ∧
      RowStore.insertOnConflictDoNothing conflict world.table caller
        (newGrant wanted id.text executionId.text now) = .inserted table := by
  cases input with
  | nothing => cases ran
  | host now => cases ran
  | drawn id executionId =>
      simp only [World.prepareStatement] at ran
      split at ran
      · cases ran
        exact .inr (.inl rfl)
      · rename_i fits
        split at ran
        · cases ran
        · cases ran
          exact .inl rfl
        · rename_i inserted
          cases ran
          exact .inr (.inr ⟨id, executionId, by simpa using fits, inserted⟩)

theorem stored_prepare (fixed : FixedAtInsert holds) (stored : store.table.Every holds)
    {request : PrepareRequest} {phase after : PreparePhase} {input : Input} {locks : Bool}
    (ran : store.world.prepareStatement service caller request phase input =
      some (after, table, locks)) : table.Every holds := by
  cases prepare_statement_step _ _ _ _ _ _ _ _ _ ran with
  | refused error => exact stored
  | authorize row wanted owned authorized => exact stored
  | begin wanted => exact stored
  | tooWide wanted now => exact RowStore.every_rollback stored
  | conflicted wanted now => exact stored
  | insert wanted now id executionId table _ =>
      rcases prepare_inserts ran with rfl | rfl | ⟨id, executionId, fits, inserted⟩
      · exact stored
      · exact RowStore.every_rollback stored
      · exact RowStore.every_insert stored (fixed.grant wanted id executionId now fits) inserted
  | notOne wanted error => exact RowStore.every_rollback stored
  | lock wanted row grant table isGrant locked =>
      exact stored_update fixed stored locked fun _ => rfl
  | readClock wanted row grant => exact stored
  | issue judgement rows table issues updated =>
      exact stored_update fixed stored updated fun _ => rfl
  | answer judgement keeps => exact RowStore.every_commit stored
  | finish judgement => exact RowStore.every_commit stored

theorem stored_decide (fixed : FixedAtInsert holds) (stored : store.table.Every holds)
    {call after : DecideCall} {phase : DecidePhase} {input : Input}
    (ran : DecideStep store.world caller call phase input after table) : table.Every holds := by
  cases ran with
  | unknown now other => exact stored
  | start decision now known => exact stored
  | unstorable decision now refused => exact stored
  | update decision now rows table storable updated =>
      exact stored_update fixed stored updated fun _ => rfl
  | lose decision now matchedAt => exact RowStore.every_commit stored
  | win decision now matchedAt rowcount changed => exact RowStore.every_commit stored
  | gone absent => exact stored
  | answer row found => exact stored
  | notFound absent => exact stored
  | otherTenant row found other => exact stored
  | reread row found own => exact stored
  | refuse row now => exact stored

theorem stored_create (fixed : FixedAtInsert holds) (stored : store.table.Every holds)
    {arguments : CreatePending} {phase after : CreatePhase} {input : Input}
    (ran : store.createStatement caller arguments phase input = some (after, table)) :
    table.Every holds := by
  cases phase <;> cases input
  case called.host now =>
    cases ran
    exact stored
  case stamped.drawn now id other =>
    simp only [GrantStore.createStatement] at ran
    split at ran
    · cases ran
      exact RowStore.every_rollback stored
    · rename_i fits
      split at ran
      · cases ran
      · cases ran
        exact RowStore.every_rollback stored
      · rename_i inserted
        split at ran
        · cases ran
          exact RowStore.every_insert stored (fixed.legacy arguments id now (by simpa using fits))
            inserted
        · cases ran
          exact RowStore.every_rollback stored
  case inserted.nothing item =>
    cases ran
    exact RowStore.every_commit stored
  case refused.nothing =>
    simp only [GrantStore.createStatement] at ran
    split at ran <;>
    · cases ran
      exact stored
  all_goals cases ran

theorem stored_consume (fixed : FixedAtInsert holds) (stored : store.table.Every holds)
    {approvalId : String} {phase after : ConsumePhase}
    (ran : ConsumeStep store caller approvalId phase after table) : table.Every holds := by
  cases ran with
  | stamp now => exact stored
  | unstorable now => exact RowStore.every_rollback stored
  | update now rows table updated => exact stored_update fixed stored updated fun _ => rfl
  | finish rows => exact RowStore.every_commit stored

theorem stored_call (fixed : FixedAtInsert holds) (stored : store.table.Every holds)
    {before after : GrantCall} {input : Input}
    (ran : store.callStatement service caller input before = some (after, table)) :
    table.Every holds := by
  cases before with
  | approval call =>
      cases call with
      | prepare request phase =>
          obtain ⟨⟨next, written, locks⟩, statement, same⟩ := Option.map_eq_some_iff.mp ran
          cases same
          exact stored_prepare fixed stored statement
      | decide call =>
          obtain ⟨⟨next, written⟩, statement, same⟩ := Option.map_eq_some_iff.mp ran
          cases same
          exact stored_decide fixed stored (decide_statement_step _ _ _ _ _ _ _ statement)
  | createPending arguments phase =>
      obtain ⟨⟨next, written⟩, statement, same⟩ := Option.map_eq_some_iff.mp ran
      cases same
      exact stored_create fixed stored statement
  | consumeApprovedGrant approvalId phase =>
      obtain ⟨⟨next, written⟩, statement, same⟩ := Option.map_eq_some_iff.mp ran
      cases same
      exact stored_consume fixed stored (consume_statement_step store caller statement)

theorem stored_step (fixed : FixedAtInsert holds) {label : GrantLabel}
    (stored : store.table.Every holds)
    (stepped : (grantStore service).step store label = some next) : next.table.Every holds := by
  cases label with
  | tick duration =>
      cases stepped
      exact stored
  | createConversation row =>
      obtain ⟨conversations, created, same⟩ := Option.map_eq_some_iff.mp stepped
      subst same
      exact stored
  | call operation =>
      cases stepped
      exact stored
  | statement caller input =>
      obtain ⟨before, here, rest⟩ := Option.bind_eq_some_iff.mp stepped
      obtain ⟨⟨after, table⟩, ran, same⟩ := Option.map_eq_some_iff.mp rest
      subst same
      exact stored_call fixed stored ran
  | crash caller =>
      obtain ⟨before, here, rest⟩ := Option.bind_eq_some_iff.mp stepped
      obtain ⟨after, stops, same⟩ := Option.map_eq_some_iff.mp rest
      subst same
      exact RowStore.every_rollback stored

end Statements

/-- Every version of every row of a reachable table has the property. -/
theorem stored_run {service : ExecutionService} {holds : ApprovalRequest → Prop}
    (fixed : FixedAtInsert holds) {conversations : List Conversation} {clock : Int}
    {labels : List GrantLabel} {final : GrantStore}
    (reached : (grantStore service).run (.start conversations clock) labels = some final) :
    final.table.Every holds := by
  apply (grantStore service).run_invariant (fun store => store.table.Every holds)
    (fun store label next stored stepped => stored_step fixed stored stepped) _ reached
  intro slot member
  cases member

/-! ## Two properties of the fixed columns -/

/-- The id was drawn by `uuid4`. -/
def Drawn (row : ApprovalRequest) : Prop := ∃ id : Uuid, row.id = id.text

theorem drawn_fixed : FixedAtInsert Drawn where
  frozen := by
    rintro row other same ⟨id, isId⟩
    exact ⟨id, (congrArg ApprovalRequest.id same).trans isId⟩
  grant := fun _ id _ _ _ => ⟨id, rfl⟩
  legacy := fun _ id _ _ => ⟨id, rfl⟩

/-- The columns take the row, and the message of a grant tells its operation and arguments. -/
structure Filed (row : ApprovalRequest) : Prop where
  fits : row.fitsColumns = true
  message : ∀ grant, row.grant = some grant →
    row.params = [("message", .str (grant.operation ++ ": " ++
      JsonText.dumps .default (.obj grant.operationArguments)))]

theorem fits_columns_frozen (row : ApprovalRequest) : row.frozen.fitsColumns = row.fitsColumns :=
  rfl

theorem filed_fixed : FixedAtInsert Filed where
  frozen := by
    intro row other same filed
    constructor
    · rw [← fits_columns_frozen, same, fits_columns_frozen]
      exact filed.fits
    · intro grant isGrant
      have sameGrant : other.frozen.grant = row.frozen.grant :=
        congrArg ApprovalRequest.grant same
      have sameParams : other.frozen.params = row.frozen.params :=
        congrArg ApprovalRequest.params same
      exact sameParams.trans (filed.message grant (sameGrant.symm.trans isGrant))
  grant := by
    intro wanted id executionId now fits
    refine ⟨fits, ?_⟩
    intro grant isGrant
    cases isGrant
    rfl
  legacy := by
    intro arguments id now fits
    refine ⟨fits, ?_⟩
    intro grant isGrant
    cases isGrant

end AgentHarness.Approval
