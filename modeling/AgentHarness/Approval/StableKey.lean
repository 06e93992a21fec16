import AgentHarness.Approval.CallRuns

/-!
# One execution id for one action

An action is the tuple a grant was asked for. Its grant is created once, and every later call for
the same action is answered from that row.
-/

namespace AgentHarness.Approval

open AgentHarness.Library AgentHarness.Conversations AgentHarness.Executions ApprovalRequest

set_option autoImplicit false

/-- The action a structured row was created for. -/
def rowAction (row : ApprovalRequest) (grant : ExecutionGrant) : Action where
  conversationId := row.conversationId
  userId := row.requesterUserId
  tenantId := row.tenantId
  operation := grant.operation
  arguments := grant.operationArguments

def isGrantFor (action : Action) (row : ApprovalRequest) : Bool :=
  row.grant.any fun grant => (rowAction row grant).Same action

namespace World

def grantsOf (world : World) (action : Action) : List ApprovalRequest :=
  world.rows.filter (isGrantFor action)

/-- A call of `prepare` for the action has returned the decision. -/
def Returned (world : World) (service : ExecutionService) (action : Action)
    (decision : ExecutionDecision) : Prop :=
  ∃ (caller : Nat) (request : PrepareRequest) (wanted : PrepareExecution) (judgement : Judgement),
    world.calls[caller]? = some (Call.prepare request (.returned judgement)) ∧
      service.authorize request = .ok wanted ∧ actionOf wanted = action ∧
      judgement.decision = decision

end World

variable {service : ExecutionService} {world : World}

theorem is_grant_for_eq_true_iff (action : Action) (row : ApprovalRequest) :
    isGrantFor action row = true ↔
      ∃ grant, row.grant = some grant ∧ (rowAction row grant).Same action := by
  cases isGrant : row.grant <;> simp [isGrantFor, isGrant]

theorem is_grant_for_advances {action : Action} {old new : ApprovalRequest}
    (advances : Advances old new) : isGrantFor action new = isGrantFor action old := by
  rw [Bool.eq_iff_iff, is_grant_for_eq_true_iff, is_grant_for_eq_true_iff]
  simp only [rowAction, advances.grant, advances.conversation_id, advances.requester_user_id,
    advances.tenant_id]

/-- A row and the call that inserted it are for the same action, and its identifiers were drawn. -/
theorem Minted.origin {row : ApprovalRequest} {grant : ExecutionGrant}
    (minted : Minted service world row) (isGrant : row.grant = some grant) :
    ∃ request wanted, Prepared service world request wanted ∧
      rowAction row grant = actionOf wanted ∧ row.approvalKey = wanted.approvalKey ∧
      ∃ id executionId : Uuid, row.id = id.text ∧ grant.executionId = executionId.text := by
  obtain ⟨request, wanted, id, executionId, now, prepared, same⟩ := minted grant isGrant
  have grants := congrArg ApprovalRequest.grant same
  have conversation := congrArg ApprovalRequest.conversationId same
  have user := congrArg ApprovalRequest.requesterUserId same
  have tenant := congrArg ApprovalRequest.tenantId same
  simp only [frozen, newGrant, isGrant, Option.some.injEq] at grants conversation user tenant
  subst grants
  refine ⟨request, wanted, prepared, ?_, congrArg ApprovalRequest.approvalKey same, id,
    executionId, congrArg ApprovalRequest.id same, rfl⟩
  simp only [rowAction, actionOf, conversation, user, tenant]

theorem Sound.minted_row (sound : Sound service world) {row : ApprovalRequest}
    (member : row ∈ world.rows) : Minted service world row := by
  obtain ⟨slot, slotMem, isCommitted⟩ := (world.table.mem_committed_iff row).mp member
  exact sound.minted slot slotMem row (Slot.committed_mem_versions isCommitted)

/-- Two structured rows have one approval key exactly when they are for one action. -/
theorem Sound.key_eq_iff (sound : Sound service world) (collisionFree : service.CollisionFree)
    {row other : ApprovalRequest} {grant otherGrant : ExecutionGrant} (rowMem : row ∈ world.rows)
    (otherMem : other ∈ world.rows) (isGrant : row.grant = some grant)
    (isOther : other.grant = some otherGrant) :
    row.approvalKey = other.approvalKey ↔ (rowAction row grant).Same (rowAction other otherGrant) := by
  obtain ⟨_, wanted, prepared, action, key, _⟩ := (sound.minted_row rowMem).origin isGrant
  obtain ⟨_, otherWanted, otherPrepared, otherAction, otherKey, _⟩ :=
    (sound.minted_row otherMem).origin isOther
  rw [action, otherAction, key, otherKey]
  exact ExecutionService.key_eq_iff collisionFree prepared.asks otherPrepared.asks

theorem Sound.grant_unique (sound : Sound service world) (collisionFree : service.CollisionFree)
    {action : Action} {row other : ApprovalRequest} (rowMem : row ∈ world.grantsOf action)
    (otherMem : other ∈ world.grantsOf action) : row = other ∧ conflict row other = true := by
  rw [World.grantsOf, List.mem_filter, is_grant_for_eq_true_iff] at rowMem otherMem
  obtain ⟨member, grant, isGrant, same⟩ := rowMem
  obtain ⟨otherIn, otherGrant, isOther, otherSame⟩ := otherMem
  have actions := same.trans otherSame.symm
  have keys := (sound.key_eq_iff collisionFree member otherIn isGrant isOther).mpr actions
  have clash : conflict row other = true := by
    apply conflict_of_action
    · simp [structured, isGrant]
    · simp [structured, isOther]
    · have conversations : row.conversationId = other.conversationId := actions.conversationId
      simp [sameAction, keys, conversations]
  exact ⟨RowStore.same_committed conflict_comm sound.consistent member otherIn clash, clash⟩

theorem length_le_one_of_clash {rows : List ApprovalRequest}
    (apart : rows.Pairwise fun row other => conflict row other = false)
    (clash : ∀ row ∈ rows, ∀ other ∈ rows, conflict row other = true) : rows.length ≤ 1 := by
  match rows with
  | [] => simp
  | [_] => simp
  | first :: second :: rest =>
      have clear := (List.pairwise_cons.mp apart).1 second (by simp)
      rw [clash first (by simp) second (by simp)] at clear
      cases clear

theorem Sound.grants_length (sound : Sound service world) (collisionFree : service.CollisionFree)
    (action : Action) : (world.grantsOf action).length ≤ 1 := by
  apply length_le_one_of_clash
  · exact (RowStore.committed_apart sound.consistent).filter _
  · intro row rowMem other otherMem
    exact (sound.grant_unique collisionFree rowMem otherMem).2

/-! ## Answers -/

/-- The row an answer was read from, as it stands now. -/
structure Answered (world : World) (wanted : PrepareExecution) (judgement : Judgement)
    (current : ApprovalRequest) : Prop where
  member : current ∈ world.rows
  isGrantOf : isGrantOf wanted current = true
  grant : current.grant = some judgement.grant
  id : current.id = judgement.row.id

theorem Sound.answered (sound : Sound service world) {caller : Nat} {request : PrepareRequest}
    {judgement : Judgement}
    (returned : world.calls[caller]? = some (.prepare request (.returned judgement))) :
    Prepared service world request judgement.wanted ∧
      ∃ current, Answered world judgement.wanted judgement current := by
  obtain ⟨prepared, located, _, current, member, advances, _⟩ := sound.calls caller _ returned
  refine ⟨prepared, current, member, ?_, ?_, advances.id⟩
  · rw [is_grant_of_advances advances]
    exact located.isGrantOf
  · rw [advances.grant]
    exact located.grant

/-- The row behind a returned decision. -/
theorem Sound.returned_row (sound : Sound service world) {action : Action}
    {decision : ExecutionDecision} (returned : world.Returned service action decision) :
    ∃ request judgement row, Prepared service world request judgement.wanted ∧
      Answered world judgement.wanted judgement row ∧ actionOf judgement.wanted = action ∧
      judgement.decision = decision := by
  obtain ⟨caller, request, wanted, judgement, called, authorized, isAction, isDecision⟩ := returned
  obtain ⟨prepared, row, answered⟩ := sound.answered called
  have isWanted : judgement.wanted = wanted :=
    Except.ok.inj (prepared.authorized.symm.trans authorized)
  exact ⟨request, judgement, row, prepared, answered, by rw [isWanted]; exact isAction, isDecision⟩

/-- Two answers for one action come from one row. -/
theorem Sound.same_answer (sound : Sound service world) {left right : Judgement}
    {leftWanted rightWanted : PrepareExecution} {leftRow rightRow : ApprovalRequest}
    (leftAnswered : Answered world leftWanted left leftRow)
    (rightAnswered : Answered world rightWanted right rightRow)
    (conversation : leftWanted.conversationId = rightWanted.conversationId)
    (key : leftWanted.approvalKey = rightWanted.approvalKey) :
    left.row.id = right.row.id ∧ left.grant = right.grant := by
  have same := RowStore.same_committed conflict_comm sound.consistent leftAnswered.member
    rightAnswered.member (grants_conflict leftAnswered.isGrantOf rightAnswered.isGrantOf
      conversation key)
  have grants := leftAnswered.grant
  rw [same, rightAnswered.grant] at grants
  exact ⟨by rw [← leftAnswered.id, ← rightAnswered.id, same], (Option.some.inj grants).symm⟩

theorem execution_id_of_decision {judgement : Judgement} {key : String}
    (carried : judgement.decision.executionId = some key) : key = judgement.grant.executionId := by
  simp only [Judgement.decision, executionDecision] at carried
  split_ifs at carried
  exact (Option.some.inj carried).symm

theorem execution_id_of_authorized {judgement : Judgement}
    (authorized : judgement.decision.status = "AUTHORIZED") :
    judgement.decision.executionId = some judgement.grant.executionId := by
  simp only [Judgement.decision, executionDecision] at authorized ⊢
  rw [if_pos authorized]

section Decisions

variable {left right : Action} {decision other : ExecutionDecision}

theorem Sound.same_action_decisions (sound : Sound service world) (same : left.Same right)
    (returned : world.Returned service left decision)
    (otherReturned : world.Returned service right other) :
    decision.approvalId = other.approvalId ∧ decision.expiresAt = other.expiresAt ∧
      (decision.status = "AUTHORIZED" → other.status = "AUTHORIZED" →
        ∃ key, decision.executionId = some key ∧ other.executionId = some key) := by
  obtain ⟨_, judgement, row, prepared, answered, rfl, rfl⟩ := sound.returned_row returned
  obtain ⟨_, judgement', row', prepared', answered', rfl, rfl⟩ := sound.returned_row otherReturned
  have keys : judgement.wanted.approvalKey = judgement'.wanted.approvalKey := by
    rw [prepared.asks.approvalKey, prepared'.asks.approvalKey,
      (Action.canonical_eq_iff _ _).mpr same]
  obtain ⟨ids, grants⟩ := sound.same_answer answered answered' same.conversationId keys
  refine ⟨ids, congrArg ExecutionGrant.expiresAt grants, ?_⟩
  intro isAuthorized isAuthorized'
  refine ⟨judgement.grant.executionId, execution_id_of_authorized isAuthorized, ?_⟩
  rw [grants]
  exact execution_id_of_authorized isAuthorized'

theorem Sound.other_action_decisions (sound : Sound service world)
    (collisionFree : service.CollisionFree) (differ : ¬ left.Same right)
    (returned : world.Returned service left decision)
    (otherReturned : world.Returned service right other) :
    decision.approvalId ≠ other.approvalId ∧
      ∀ key, decision.executionId = some key → other.executionId ≠ some key := by
  obtain ⟨_, judgement, row, prepared, answered, rfl, rfl⟩ := sound.returned_row returned
  obtain ⟨_, judgement', row', prepared', answered', rfl, rfl⟩ := sound.returned_row otherReturned
  have apart : row ≠ row' := by
    rintro rfl
    apply differ
    have key := (is_grant_of_eq_true_iff _ _).mp answered.isGrantOf
    have key' := (is_grant_of_eq_true_iff _ _).mp answered'.isGrantOf
    exact (ExecutionService.key_eq_iff collisionFree prepared.asks prepared'.asks).mp
      (key.2.1.symm.trans key'.2.1)
  constructor
  · intro ids
    exact apart (sound.row_unique answered.member answered'.member
      (answered.id.trans (ids.trans answered'.id.symm)))
  · intro key carried carried'
    have same : judgement.grant.executionId = judgement'.grant.executionId := by
      rw [← execution_id_of_decision carried, ← execution_id_of_decision carried']
    exact apart (RowStore.same_committed conflict_comm sound.consistent answered.member
      answered'.member (conflict_of_execution_id answered.grant answered'.grant same))

end Decisions

/-! ## Over whole runs -/

/-- The grants of an action in a later state are those it had before. -/
theorem grants_kept (collisionFree : service.CollisionFree) {labels : List Label} {final : World}
    (sound : Sound service world)
    (reached : (approvals service).run world labels = some final) {action : Action}
    {row : ApprovalRequest} (member : row ∈ world.grantsOf action) :
    ∃ later, final.grantsOf action = [later] ∧ Advances row later := by
  obtain ⟨rowMem, isGrant⟩ := List.mem_filter.mp member
  obtain ⟨later, laterMem, advances⟩ := rows_run sound reached rowMem
  have isFinal : later ∈ final.grantsOf action :=
    List.mem_filter.mpr ⟨laterMem, by rw [is_grant_for_advances advances]; exact isGrant⟩
  have short := (sound_from sound reached).grants_length collisionFree action
  obtain ⟨only, isOnly⟩ := List.length_eq_one_iff.mp
    (le_antisymm short (List.length_pos_of_mem isFinal))
  rw [isOnly] at isFinal
  rw [List.mem_singleton.mp isFinal] at advances
  exact ⟨only, isOnly, advances⟩

/-- An action has at most one grant and one execution id, in every state of every run from an
empty table, and no two actions share either. -/
theorem stable_idempotency_key (collisionFree : service.CollisionFree)
    (conversations : List Conversation) (clock : Int) (early late : List Label)
    (middle final : World)
    (reached : (approvals service).run (World.start conversations [] clock) early = some middle)
    (continued : (approvals service).run middle late = some final) :
    (∀ action, (final.grantsOf action).length ≤ 1) ∧
      (∀ action, ∀ row ∈ middle.grantsOf action, ∃ later, final.grantsOf action = [later] ∧
        later.id = row.id ∧ later.grant = row.grant) ∧
      (∀ left right decision other, final.Returned service left decision →
        final.Returned service right other →
        (left.Same right → decision.status = "AUTHORIZED" → other.status = "AUTHORIZED" →
          decision.approvalId = other.approvalId ∧
            ∃ key, decision.executionId = some key ∧ other.executionId = some key) ∧
        (¬ left.Same right → decision.approvalId ≠ other.approvalId ∧
          ∀ key, decision.executionId = some key → other.executionId ≠ some key)) := by
  have sound := sound_run legacy_nil reached
  have finalSound := sound_from sound continued
  refine ⟨finalSound.grants_length collisionFree, ?_, ?_⟩
  · intro action row member
    obtain ⟨later, only, advances⟩ := grants_kept collisionFree sound continued member
    exact ⟨later, only, advances.id, advances.grant⟩
  · intro left right decision other returned otherReturned
    constructor
    · intro same isAuthorized otherAuthorized
      obtain ⟨ids, _, keys⟩ := finalSound.same_action_decisions same returned otherReturned
      exact ⟨ids, keys isAuthorized otherAuthorized⟩
    · intro differ
      exact finalSound.other_action_decisions collisionFree differ returned otherReturned

/-- The calls that issue the execution id and repeat it. -/
theorem approved_twice_answers :
    ((approvals Recorded.orderService).run (World.start [Recorded.conversation] [] 0)
      Recorded.approvedTwice).map (fun final => (final.calls[2]?, final.calls[3]?)) =
      some (some (.prepare Recorded.cancel (.returned
          ⟨Recorded.wanted, Recorded.approvedRow, Recorded.grant, 0⟩)),
        some (.prepare Recorded.cancel (.returned
          ⟨Recorded.wanted, consume 0 Recorded.approvedRow, Recorded.grant, 0⟩))) := by
  decide +kernel

theorem stable_idempotency_key_approved_twice :
    ∃ final decision other key,
      (approvals Recorded.orderService).run (World.start [Recorded.conversation] [] 0)
        Recorded.approvedTwice = some final ∧
      final.Returned Recorded.orderService (actionOf Recorded.wanted) decision ∧
      final.Returned Recorded.orderService (actionOf Recorded.wanted) other ∧
      decision.executionId = some key ∧ other.executionId = some key := by
  obtain ⟨final, reached, calls⟩ := Option.map_eq_some_iff.mp approved_twice_answers
  obtain ⟨first, second⟩ := Prod.mk.inj calls
  have issued : final.Returned Recorded.orderService (actionOf Recorded.wanted)
      ⟨"AUTHORIZED", (Recorded.uuid 1).text, some (Recorded.uuid 2).text, 86400000000⟩ :=
    ⟨2, Recorded.cancel, Recorded.wanted, _, first, by decide +kernel, rfl, by decide +kernel⟩
  have replayed : final.Returned Recorded.orderService (actionOf Recorded.wanted)
      ⟨"AUTHORIZED", (Recorded.uuid 1).text, some (Recorded.uuid 2).text, 86400000000⟩ :=
    ⟨3, Recorded.cancel, Recorded.wanted, _, second, by decide +kernel, rfl, by decide +kernel⟩
  obtain ⟨_, _, decisions⟩ := stable_idempotency_key Recorded.collision_free
    [Recorded.conversation] 0 Recorded.approvedTwice [] _ _ reached rfl
  obtain ⟨_, key, isKey, isOtherKey⟩ :=
    (decisions _ _ _ _ issued replayed).1 (Action.Same.refl _) rfl rfl
  exact ⟨_, _, _, key, reached, issued, replayed, isKey, isOtherKey⟩

end AgentHarness.Approval
