import AgentHarness.Approval.ApprovalRepository
import AgentHarness.Approval.CallRuns
import Mathlib.Data.List.Pairwise

/-!
# Legacy rows and structured grants

Two rows of one action, one of each kind, meet in `uq_approval_requests_active_grant` as long as
both are unsettled. Apart from that neither kind of call sees the other kind of row.
-/

namespace AgentHarness.Approval

open AgentHarness.Library AgentHarness.Conversations AgentHarness.Executions ApprovalRequest

set_option autoImplicit false

namespace Store

@[simp] theorem put_rows (store : Store) (rows : List ApprovalRequest) :
    (store.put rows).rows = rows :=
  rfl

def withoutLegacy (store : Store) : Store :=
  store.put (store.rows.filter structured)

def lookup (store : Store) (wanted : PrepareExecution) (proposed : ApprovalRequest) :
    List ApprovalRequest :=
  (ApprovalRepository.insertNew store.rows proposed).filter (isGrantOf wanted)

/-- An unsettled legacy row has the approval key, and no structured row has it. -/
def takenByLegacy (store : Store) (wanted : PrepareExecution) : Bool :=
  store.rows.any (fun row => !row.structured &&
      ApprovalRepository.isActionable wanted.conversationId wanted.approvalKey row) &&
    !store.rows.any fun row => row.structured && row.conversationId = wanted.conversationId &&
      row.approvalKey = wanted.approvalKey

def hasActiveGrant (store : Store) (arguments : CreatePending) : Bool :=
  store.rows.any fun row => row.structured &&
    ApprovalRepository.isActionable arguments.conversationId arguments.approvalKey row

/-- The two kinds of rows do not interfere in the call. -/
def Apart (store : Store) (service : ExecutionService) : StoreCall → Prop
  | .prepare request drawn executionId now later =>
      (store.prepare service request drawn.text executionId.text now later).1 =
          (store.withoutLegacy.prepare service request drawn.text executionId.text now later).1 ∧
        ∀ wanted, store.wantedBy service request = .ok wanted →
          (newGrant wanted drawn.text executionId.text now).fitsColumns = true →
          (store.lookup wanted (newGrant wanted drawn.text executionId.text now)).length = 1
  | .decide request now matchedAt rereadAt =>
      (ApprovalRepository.get store.rows request.approvalId).any structured = true →
        (ApprovalRepository.decide store.rows request now matchedAt rereadAt).1 =
          (ApprovalRepository.decide store.withoutLegacy.rows request now matchedAt rereadAt).1
  | .createPending arguments drawn now =>
      (ApprovalRepository.createPending store.conversations store.rows arguments drawn.text
          now).2.filter structured = store.rows.filter structured ∧
        ∀ row, (ApprovalRepository.createPending store.conversations store.rows arguments
          drawn.text now).1 = .ok row → row.structured = false
  | .consumeApprovedGrant approvalId now =>
      (ApprovalRepository.consumeApprovedGrant store.rows approvalId now).2.filter structured =
        store.rows.filter structured

/-- No row of the other kind stands in the call's way. -/
def isFree (store : Store) (service : ExecutionService) : StoreCall → Bool
  | .prepare request drawn executionId now _ =>
      match store.wantedBy service request with
      | .error _ => true
      | .ok wanted => !(newGrant wanted drawn.text executionId.text now).fitsColumns ||
          !store.takenByLegacy wanted
  | .createPending arguments drawn now =>
      !(ApprovalRepository.legacyRow arguments drawn.text now).fitsColumns ||
        !store.hasActiveGrant arguments
  | _ => true

end Store

/-! ## Reachable stores -/

structure Valid (service : ExecutionService) (store : Store) : Prop where
  apart : store.rows.Pairwise fun row other => conflict row other = false
  asked : ∀ row ∈ store.rows, ∀ grant, row.grant = some grant →
    ∃ request wanted drawn executionId now, service.Asks request wanted ∧
      row.frozen = newGrant wanted drawn executionId now

variable {service : ExecutionService} {store : Store}

theorem Valid.unique (valid : Valid service store) {row other : ApprovalRequest}
    (rowMem : row ∈ store.rows) (otherMem : other ∈ store.rows)
    (clash : conflict row other = true) : row = other :=
  ApprovalRepository.clear_unique valid.apart rowMem otherMem clash

theorem Valid.without_legacy (valid : Valid service store) : Valid service store.withoutLegacy where
  apart := valid.apart.filter _
  asked := by
    intro row member
    exact valid.asked row (List.mem_filter.mp member).1

theorem Valid.only (valid : Valid service store) {row : ApprovalRequest}
    {condition : ApprovalRequest → Bool} (member : row ∈ store.rows) (holds : condition row = true)
    (clash : ∀ other ∈ store.rows, condition other = true → conflict other row = true) :
    store.rows.filter condition = [row] :=
  ApprovalRepository.clear_only valid.apart member holds clash

/-- Changing rows forward keeps a store valid. -/
theorem valid_map (valid : Valid service store) (change : ApprovalRequest → ApprovalRequest)
    (advances : ∀ row ∈ store.rows, Advances row (change row)) :
    Valid service (store.put (store.rows.map change)) where
  apart := by
    rw [Store.put_rows, List.pairwise_map]
    apply valid.apart.imp_of_mem
    intro row other rowMem otherMem clear
    by_contra clash
    have first := (advances row rowMem).conflict _ (by simpa using clash)
    rw [conflict_comm] at first
    have second := (advances other otherMem).conflict _ first
    rw [conflict_comm, clear] at second
    cases second
  asked := by
    intro row member grant isGrant
    rw [Store.put_rows] at member
    obtain ⟨old, oldMem, rfl⟩ := List.mem_map.mp member
    have moved := advances old oldMem
    obtain ⟨request, wanted, drawn, executionId, now, asks, same⟩ :=
      valid.asked old oldMem grant (moved.grant.symm.trans isGrant)
    exact ⟨request, wanted, drawn, executionId, now, asks, moved.frozen.symm.trans same⟩

theorem valid_append (valid : Valid service store) {row : ApprovalRequest}
    (clear : store.rows.any (conflict row) = false)
    (asked : ∀ grant, row.grant = some grant → ∃ request wanted drawn executionId now,
      service.Asks request wanted ∧ row.frozen = newGrant wanted drawn executionId now) :
    Valid service (store.put (store.rows ++ [row])) where
  apart := by
    rw [Store.put_rows, List.pairwise_append]
    refine ⟨valid.apart, List.pairwise_singleton _ _, ?_⟩
    intro old member added single
    rw [List.mem_singleton.mp single, conflict_comm]
    have noClash := List.any_eq_false.mp clear old member
    simpa using noClash
  asked := by
    intro old member
    rw [Store.put_rows, List.mem_append, List.mem_singleton] at member
    rcases member with present | rfl
    · exact valid.asked old present
    · exact asked

theorem valid_create_pending (valid : Valid service store) (arguments : CreatePending)
    (drawn : String) (now : Int) :
    Valid service (store.put (ApprovalRepository.createPending store.conversations store.rows
      arguments drawn now).2) := by
  simp only [ApprovalRepository.createPending]
  split_ifs with narrow taken
  · exact valid
  · split <;> exact valid
  · simp only [Bool.or_eq_true, not_or, Bool.not_eq_true] at taken
    apply valid_append valid taken.1
    intro grant isGrant
    cases isGrant

theorem asks_of_wanted {request : PrepareRequest} {wanted : PrepareExecution}
    (reached : store.wantedBy service request = .ok wanted) : service.Asks request wanted := by
  unfold Store.wantedBy at reached
  split at reached
  · cases reached
  · exact ExecutionService.authorize_asks reached

theorem valid_insert (valid : Valid service store) {request : PrepareRequest}
    {wanted : PrepareExecution} (asks : service.Asks request wanted) (drawn executionId : String)
    (now : Int) :
    Valid service (store.put (ApprovalRepository.insertNew store.rows
      (newGrant wanted drawn executionId now))) := by
  unfold ApprovalRepository.insertNew
  split_ifs with taken
  · exact valid
  · exact valid_append valid (by simpa using taken) fun grant _ =>
      ⟨request, wanted, drawn, executionId, now, asks, rfl⟩

theorem valid_prepare (valid : Valid service store) {request : PrepareRequest}
    {wanted : PrepareExecution} (asks : service.Asks request wanted) (drawn executionId : String)
    (now later : Int) :
    Valid service (store.put (ApprovalRepository.prepareExecution store.rows wanted drawn
      executionId now later).2) := by
  have inserted := valid_insert valid asks drawn executionId now
  simp only [ApprovalRepository.prepareExecution]
  split_ifs with narrow
  · exact valid
  · split
    · exact valid
    · rename_i row found
      have isRow : row ∈ ApprovalRepository.insertNew store.rows
          (newGrant wanted drawn executionId now) := by
        have selected : row ∈ (ApprovalRepository.insertNew store.rows
            (newGrant wanted drawn executionId now)).filter (isGrantOf wanted) := by
          rw [found]
          exact List.mem_singleton_self row
        exact (List.mem_filter.mp selected).1
      split
      · exact valid
      · rename_i grant isGrant
        split_ifs with issues
        · apply valid_map inserted
          intro other member
          split_ifs with same
          · have isOther := inserted.unique member isRow (conflict_of_id same)
            subst isOther
            simp only [issuesAt, Bool.and_eq_true, decide_eq_true_eq] at issues
            exact consume_advances later issues.2
          · exact Advances.refl other
        · exact inserted
    · exact valid

theorem valid_decide (valid : Valid service store) (request : DecideRequest)
    (now matchedAt rereadAt : Int) :
    Valid service (store.put (ApprovalRepository.decide store.rows request now matchedAt
      rereadAt).2) := by
  have updated : ∀ decision : Decision, Valid service (store.put (store.rows.map fun row =>
      if isDecidable request matchedAt row then
        applyDecision decision request.decidedBy now row else row)) := by
    intro decision
    apply valid_map valid
    intro row _
    split_ifs with decidable
    · rw [is_decidable_eq_true_iff] at decidable
      exact apply_decision_advances decision _ now decidable.2.2.1
    · exact Advances.refl row
  cases known : Decision.ofText request.decision with
  | none =>
      simp only [ApprovalRepository.decide, known]
      exact valid
  | some decision =>
      simp only [ApprovalRepository.decide, known]
      by_cases narrow : (!request.storable) = true
      · rw [if_pos narrow]
        exact valid
      · rw [if_neg narrow]
        cases ApprovalRepository.get _ request.approvalId with
        | none => exact updated decision
        | some row =>
            dsimp only
            split_ifs <;> exact updated decision

theorem valid_consume (valid : Valid service store) (approvalId : String) (now : Int) :
    Valid service (store.put
      (ApprovalRepository.consumeApprovedGrant store.rows approvalId now).2) := by
  apply valid_map valid
  intro row _
  split_ifs with wanted
  · simp only [Bool.and_eq_true, decide_eq_true_eq] at wanted
    exact consume_advances now wanted.1.2
  · exact Advances.refl row

theorem valid_step (valid : Valid service store) {call : StoreCall} {next : Store}
    (stepped : (callByCall service).step store call = some next) : Valid service next := by
  simp only [callByCall] at stepped
  split_ifs at stepped
  cases stepped
  cases call with
  | createPending arguments drawn now => exact valid_create_pending valid arguments _ now
  | prepare request drawn executionId now later =>
      simp only [Store.answer, Store.prepare]
      split
      · exact valid
      · rename_i wanted reached
        exact valid_prepare valid (asks_of_wanted reached) _ _ now later
  | decide request now matchedAt rereadAt => exact valid_decide valid request now matchedAt rereadAt
  | consumeApprovedGrant approvalId now => exact valid_consume valid approvalId now

/-! ## `prepare_execution` -/

variable {wanted : PrepareExecution} {request : PrepareRequest} {drawn executionId : Uuid}
  {now later : Int}

/-- A fresh grant is in conflict with the structured and the unsettled rows of its action. -/
theorem new_grant_conflict (freshId : store.fresh drawn = true)
    (freshExecution : store.fresh executionId = true) {row : ApprovalRequest}
    (member : row ∈ store.rows) :
    conflict (newGrant wanted drawn.text executionId.text now) row = true ↔
      (row.status.active = true ∨ row.structured = true) ∧
        row.conversationId = wanted.conversationId ∧ row.approvalKey = wanted.approvalKey := by
  simp only [Store.fresh, List.all_eq_true, Bool.and_eq_true, decide_eq_true_eq,
    Option.all_eq_true] at freshId freshExecution
  have otherId : drawn.text ≠ row.id := (freshId row member).1.symm
  have action : sameAction (newGrant wanted drawn.text executionId.text now) row = true ↔
      row.conversationId = wanted.conversationId ∧ row.approvalKey = wanted.approvalKey := by
    rw [same_action_comm, sameAction, Bool.and_eq_true, decide_eq_true_eq, decide_eq_true_eq]
    exact Iff.rfl
  rw [conflict_eq_true_iff, action]
  constructor
  · intro clash
    rcases clash with sameId | ⟨_, active, same⟩ |
      ⟨mine, other, isMine, isOther, sameExecution | same⟩
    · exact absurd sameId otherId
    · exact ⟨Or.inl active, same⟩
    · cases isMine
      exact absurd sameExecution.symm ((freshExecution row member).2 other isOther)
    · exact ⟨Or.inr (Option.isSome_iff_exists.mpr ⟨other, isOther⟩), same⟩
  · intro clash
    rcases clash with ⟨active | structured, same⟩
    · exact Or.inr (Or.inl ⟨rfl, active, same⟩)
    · obtain ⟨grant, isGrant⟩ := Option.isSome_iff_exists.mp structured
      exact Or.inr (Or.inr ⟨_, grant, rfl, isGrant, Or.inr same⟩)

/-- With collision-free keys a structured row of the action is a grant of the call. -/
theorem Valid.is_grant_of (valid : Valid service store) (collisionFree : service.CollisionFree)
    (asks : service.Asks request wanted) {row : ApprovalRequest} (member : row ∈ store.rows)
    (isStructured : row.structured = true) (key : row.approvalKey = wanted.approvalKey) :
    isGrantOf wanted row = true := by
  obtain ⟨grant, isGrant⟩ := Option.isSome_iff_exists.mp isStructured
  obtain ⟨first, asked, drawn, executionId, now, firstAsks, same⟩ :=
    valid.asked row member grant isGrant
  have askedKey : asked.approvalKey = wanted.approvalKey :=
    (congrArg ApprovalRequest.approvalKey same).symm.trans key
  have action := (ExecutionService.key_eq_iff collisionFree firstAsks asks).mp askedKey
  have conversationId : row.conversationId = asked.conversationId :=
    congrArg ApprovalRequest.conversationId same
  have tenantId : row.tenantId = asked.tenantId := congrArg ApprovalRequest.tenantId same
  have userId : row.requesterUserId = asked.userId :=
    congrArg ApprovalRequest.requesterUserId same
  rw [is_grant_of_eq_true_iff]
  exact ⟨conversationId.trans action.conversationId, key, isStructured,
    tenantId.trans action.tenantId, userId.trans action.userId⟩

/-- A structured row of the action is what every lookup finds. -/
theorem lookup_of_grant (valid : Valid service store) (collisionFree : service.CollisionFree)
    (asks : service.Asks request wanted) (freshId : store.fresh drawn = true)
    (freshExecution : store.fresh executionId = true) {row : ApprovalRequest}
    (member : row ∈ store.rows) (isStructured : row.structured = true)
    (conversation : row.conversationId = wanted.conversationId)
    (key : row.approvalKey = wanted.approvalKey) :
    store.lookup wanted (newGrant wanted drawn.text executionId.text now) = [row] := by
  have taken : store.rows.any
      (conflict (newGrant wanted drawn.text executionId.text now)) = true := by
    rw [List.any_eq_true]
    exact ⟨row, member, (new_grant_conflict freshId freshExecution member).mpr
      ⟨Or.inr isStructured, conversation, key⟩⟩
  rw [Store.lookup, ApprovalRepository.insertNew, if_pos taken]
  have isGrant := valid.is_grant_of collisionFree asks member isStructured key
  apply valid.only member isGrant
  intro other _ otherGrant
  exact grants_conflict otherGrant isGrant rfl rfl

/-- A legacy row alone keeps the grant out of the table. -/
theorem lookup_of_taken (freshId : store.fresh drawn = true)
    (freshExecution : store.fresh executionId = true)
    (taken : store.takenByLegacy wanted = true) :
    store.lookup wanted (newGrant wanted drawn.text executionId.text now) = [] := by
  simp only [Store.takenByLegacy, Bool.and_eq_true, List.any_eq_true,
    ApprovalRepository.isActionable, decide_eq_true_eq, Bool.not_eq_true', List.any_eq_false,
    not_and] at taken
  obtain ⟨⟨legacy, member, _, ⟨conversation, key⟩, active⟩, noGrant⟩ := taken
  have clash : store.rows.any
      (conflict (newGrant wanted drawn.text executionId.text now)) = true := by
    rw [List.any_eq_true]
    exact ⟨legacy, member, (new_grant_conflict freshId freshExecution member).mpr
      ⟨Or.inl active, conversation, key⟩⟩
  rw [Store.lookup, ApprovalRepository.insertNew, if_pos clash, List.filter_eq_nil_iff]
  intro row rowMem isGrant
  rw [is_grant_of_eq_true_iff] at isGrant
  exact noGrant row rowMem ⟨isGrant.2.2.1, isGrant.1⟩ isGrant.2.1

/-- Without a row in its way the new grant is what the lookup finds. -/
theorem lookup_of_new (freshId : store.fresh drawn = true)
    (freshExecution : store.fresh executionId = true)
    (clear : ∀ row ∈ store.rows, row.status.active = true ∨ row.structured = true →
      row.conversationId = wanted.conversationId → row.approvalKey ≠ wanted.approvalKey) :
    store.lookup wanted (newGrant wanted drawn.text executionId.text now) =
      [newGrant wanted drawn.text executionId.text now] := by
  have noClash : ¬ store.rows.any
      (conflict (newGrant wanted drawn.text executionId.text now)) = true := by
    rw [List.any_eq_true]
    rintro ⟨row, member, clash⟩
    obtain ⟨present, conversation, key⟩ :=
      (new_grant_conflict freshId freshExecution member).mp clash
    exact clear row member present conversation key
  have noGrant : store.rows.filter (isGrantOf wanted) = [] := by
    rw [List.filter_eq_nil_iff]
    intro row member isGrant
    rw [is_grant_of_eq_true_iff] at isGrant
    exact clear row member (Or.inr isGrant.2.2.1) isGrant.1 isGrant.2.1
  rw [Store.lookup, ApprovalRepository.insertNew, if_neg noClash, List.filter_append, noGrant,
    List.filter_singleton, new_grant_is_grant_of]
  rfl

theorem fresh_without_legacy {id : Uuid} (fresh : store.fresh id = true) :
    store.withoutLegacy.fresh id = true := by
  rw [Store.fresh, List.all_eq_true] at fresh ⊢
  intro row member
  exact fresh row (List.mem_filter.mp member).1

/-- Without a legacy row in its way the lookup finds the one row it finds among the grants. -/
theorem lookup_of_free (valid : Valid service store) (collisionFree : service.CollisionFree)
    (asks : service.Asks request wanted) (freshId : store.fresh drawn = true)
    (freshExecution : store.fresh executionId = true)
    (free : store.takenByLegacy wanted = false) :
    ∃ row, store.lookup wanted (newGrant wanted drawn.text executionId.text now) = [row] ∧
      store.withoutLegacy.lookup wanted (newGrant wanted drawn.text executionId.text now) =
        [row] := by
  have freshId' := fresh_without_legacy freshId
  have freshExecution' := fresh_without_legacy freshExecution
  by_cases present : ∃ row ∈ store.rows, row.structured = true ∧
      row.conversationId = wanted.conversationId ∧ row.approvalKey = wanted.approvalKey
  · obtain ⟨row, member, isStructured, conversation, key⟩ := present
    have kept : row ∈ store.withoutLegacy.rows := List.mem_filter.mpr ⟨member, isStructured⟩
    exact ⟨row, lookup_of_grant valid collisionFree asks freshId freshExecution member isStructured
        conversation key,
      lookup_of_grant valid.without_legacy collisionFree asks freshId' freshExecution' kept
        isStructured conversation key⟩
  · have noGrant : ∀ row ∈ store.rows, row.structured = true →
        row.conversationId = wanted.conversationId → row.approvalKey ≠ wanted.approvalKey :=
      fun row member isStructured conversation key =>
        present ⟨row, member, isStructured, conversation, key⟩
    refine ⟨_, lookup_of_new freshId freshExecution ?_, lookup_of_new freshId' freshExecution' ?_⟩
    · intro row member active conversation key
      cases isStructured : row.structured with
      | true => exact noGrant row member isStructured conversation key
      | false =>
          simp only [isStructured, Bool.false_eq_true, or_false] at active
          have taken : store.takenByLegacy wanted = true := by
            simp only [Store.takenByLegacy, Bool.and_eq_true, List.any_eq_true,
              ApprovalRepository.isActionable, decide_eq_true_eq, Bool.not_eq_true',
              List.any_eq_false, not_and]
            exact ⟨⟨row, member, isStructured, ⟨conversation, key⟩, active⟩,
              fun other otherMem same => noGrant other otherMem same.1 same.2⟩
          rw [free] at taken
          cases taken
    · intro row member _
      rw [Store.withoutLegacy, Store.put_rows, List.mem_filter] at member
      exact noGrant row member.1 member.2

/-- What a `prepare` call answers depends on the row it finds. -/
theorem prepare_answer (rows : List ApprovalRequest) (id executionId : String) :
    (ApprovalRepository.prepareExecution rows wanted id executionId now later).1 =
      if (newGrant wanted id executionId now).fitsColumns then
        match (ApprovalRepository.insertNew rows (newGrant wanted id executionId now)).filter
            (isGrantOf wanted) with
        | [] => .error .noResultFound
        | [row] => match row.grant with
            | none => .error .noResultFound
            | some grant => .ok (row.executionDecision grant later)
        | _ => .error .multipleResultsFound
      else .error .dataError := by
  simp only [ApprovalRepository.prepareExecution]
  cases (newGrant wanted id executionId now).fitsColumns with
  | false => rfl
  | true =>
      simp only [Bool.not_true, Bool.false_eq_true, if_false, if_true]
      cases (ApprovalRepository.insertNew rows (newGrant wanted id executionId now)).filter
          (isGrantOf wanted) with
      | nil => rfl
      | cons row rest =>
          cases rest with
          | cons => rfl
          | nil =>
              dsimp only
              cases row.grant <;> rfl

theorem prepare_apart_iff (valid : Valid service store) (collisionFree : service.CollisionFree)
    (freshId : store.fresh drawn = true) (freshExecution : store.fresh executionId = true) :
    store.Apart service (.prepare request drawn executionId now later) ↔
      store.isFree service (.prepare request drawn executionId now later) = true := by
  have sameWanted : store.withoutLegacy.wantedBy service request =
      store.wantedBy service request := rfl
  simp only [Store.Apart, Store.isFree, Store.prepare, sameWanted]
  cases reached : store.wantedBy service request with
  | error raised => simp only [reduceCtorEq, false_implies, implies_true, and_true]
  | ok wanted =>
      have asks := asks_of_wanted reached
      simp only [Except.ok.injEq, forall_eq', prepare_answer]
      by_cases narrow : (newGrant wanted drawn.text executionId.text now).fitsColumns = true
      · simp only [narrow, if_true, true_implies, Bool.not_true, Bool.false_or, Bool.not_eq_true']
        constructor
        · intro apart
          by_contra taken
          have nothing : store.lookup wanted
              (newGrant wanted drawn.text executionId.text now) = [] :=
            lookup_of_taken freshId freshExecution (by simpa using taken)
          rw [nothing] at apart
          cases apart.2
        · intro free
          obtain ⟨row, found, foundAlone⟩ :=
            lookup_of_free valid collisionFree asks freshId freshExecution free
          constructor
          · rw [Store.lookup] at found foundAlone
            rw [found, foundAlone]
          · rw [found]
            rfl
      · simp only [narrow, Bool.false_eq_true, if_false, false_implies, and_true, Bool.not_false,
          Bool.true_or]

/-! ## `create_pending` -/

variable {arguments : CreatePending}

theorem create_pending_keeps_grants (conversations : List Conversation)
    (rows : List ApprovalRequest) (id : String) :
    (ApprovalRepository.createPending conversations rows arguments id now).2.filter structured =
      rows.filter structured := by
  simp only [ApprovalRepository.createPending]
  split_ifs with narrow taken
  · rfl
  · split <;> rfl
  · rw [List.filter_append, List.filter_singleton]
    exact List.append_nil _

/-- The legacy call finds the unsettled row of its action, of whatever kind. -/
theorem find_actionable_eq_some (valid : Valid service store) {row : ApprovalRequest}
    (member : row ∈ store.rows)
    (actionable : ApprovalRepository.isActionable arguments.conversationId arguments.approvalKey
      row = true) :
    ApprovalRepository.findActionable store.rows arguments.conversationId arguments.approvalKey =
      some row := by
  have only : store.rows.filter (ApprovalRepository.isActionable arguments.conversationId
      arguments.approvalKey) = [row] := by
    apply valid.only member actionable
    intro other _ otherActionable
    simp only [ApprovalRepository.isActionable, Bool.and_eq_true, decide_eq_true_eq]
      at actionable otherActionable
    rw [conflict_eq_true_iff]
    refine Or.inr (Or.inl ⟨otherActionable.2, actionable.2, ?_⟩)
    rw [sameAction, otherActionable.1.1, otherActionable.1.2, actionable.1.1, actionable.1.2]
    simp only [decide_true, Bool.and_self]
  rw [ApprovalRepository.findActionable, only]
  rfl

theorem find_actionable_actionable {rows : List ApprovalRequest} {row : ApprovalRequest}
    (found : ApprovalRepository.findActionable rows arguments.conversationId
      arguments.approvalKey = some row) :
    row ∈ rows ∧ ApprovalRepository.isActionable arguments.conversationId arguments.approvalKey
      row = true := by
  have selected := List.mem_of_mem_head? found
  rw [List.mem_insertionSort, List.mem_filter] at selected
  exact selected

theorem create_pending_apart_iff (valid : Valid service store) :
    store.Apart service (.createPending arguments drawn now) ↔
      store.isFree service (.createPending arguments drawn now) = true := by
  simp only [Store.Apart, Store.isFree, create_pending_keeps_grants, true_and, Bool.or_eq_true,
    Bool.not_eq_true']
  constructor
  · intro apart
    by_contra blocked
    obtain ⟨columns, present⟩ := not_or.mp blocked
    rw [Bool.not_eq_false] at columns
    simp only [Store.hasActiveGrant, Bool.not_eq_false, List.any_eq_true, Bool.and_eq_true]
      at present
    obtain ⟨row, member, isStructured, actionable⟩ := present
    have found := find_actionable_eq_some valid member actionable
    simp only [ApprovalRepository.isActionable, Bool.and_eq_true, decide_eq_true_eq] at actionable
    have clash : store.rows.any
        (conflict (ApprovalRepository.legacyRow arguments drawn.text now)) = true := by
      rw [List.any_eq_true]
      refine ⟨row, member, (conflict_eq_true_iff _ _).mpr (Or.inr (Or.inl ⟨rfl, actionable.2, ?_⟩))⟩
      rw [sameAction, actionable.1.1, actionable.1.2]
      simp only [ApprovalRepository.legacyRow, decide_true, Bool.and_self]
    have legacy := apart row (by
      simp only [ApprovalRepository.createPending, columns, clash, found, Bool.not_true,
        Bool.false_eq_true, Bool.true_or, if_true, if_false])
    rw [isStructured] at legacy
    cases legacy
  · intro free row answered
    simp only [ApprovalRepository.createPending] at answered
    split_ifs at answered with narrow taken
    · split at answered
      · rename_i existing found
        cases answered
        obtain ⟨member, actionable⟩ := find_actionable_actionable found
        have absent := free.resolve_left (by simpa using narrow)
        simp only [Store.hasActiveGrant, List.any_eq_false, Bool.and_eq_true, not_and,
          Bool.not_eq_true] at absent
        by_contra isStructured
        have notActionable := absent row member (by simpa using isStructured)
        rw [actionable] at notActionable
        cases notActionable
      · cases answered
    · cases answered
      rfl

/-! ## `decide` and `consume_approved_grant` -/

theorem Valid.unique_ids (valid : Valid service store) :
    ApprovalRepository.UniqueIds store.rows := by
  apply valid.apart.imp
  intro row other clear same
  rw [conflict_of_id same] at clear
  cases clear

theorem decide_apart (valid : Valid service store) (decideRequest : DecideRequest)
    (matchedAt rereadAt : Int) :
    store.Apart service (.decide decideRequest now matchedAt rereadAt) := by
  intro isGrant
  obtain ⟨row, found, isStructured⟩ := (Option.any_eq_true _ _).mp isGrant
  obtain ⟨member, isId⟩ := ApprovalRepository.mem_of_get found
  have kept : row ∈ store.withoutLegacy.rows := List.mem_filter.mpr ⟨member, isStructured⟩
  have foundAlone := ApprovalRepository.get_of_mem valid.without_legacy.unique_ids kept
  rw [isId] at foundAlone
  rw [ApprovalRepository.decide_answer valid.unique_ids,
    ApprovalRepository.decide_answer valid.without_legacy.unique_ids, found, foundAlone]

theorem consume_keeps_grants (rows : List ApprovalRequest) (approvalId : String) :
    (ApprovalRepository.consumeApprovedGrant rows approvalId now).2.filter structured =
      rows.filter structured := by
  simp only [ApprovalRepository.consumeApprovedGrant]
  induction rows with
  | nil => rfl
  | cons row rest ih =>
      rw [List.map_cons, List.filter_cons, List.filter_cons, ih]
      by_cases isStructured : row.structured = true
      · simp only [isStructured, Bool.not_true, Bool.and_false, Bool.false_eq_true, if_false]
      · split_ifs with wanted isStill
        · exact absurd isStill isStructured
        · rfl
        · rfl

theorem consume_apart (approvalId : String) :
    store.Apart service (.consumeApprovedGrant approvalId now) :=
  consume_keeps_grants store.rows approvalId

/-! ## Whole histories -/

theorem apart_iff_free (collisionFree : service.CollisionFree) (valid : Valid service store)
    {call : StoreCall} (fresh : store.drawsFresh call = true) :
    store.Apart service call ↔ store.isFree service call = true := by
  cases call with
  | prepare request drawn executionId now later =>
      rw [Store.drawsFresh, Bool.and_eq_true] at fresh
      exact prepare_apart_iff valid collisionFree fresh.1 fresh.2
  | createPending arguments drawn now => exact create_pending_apart_iff valid
  | decide decideRequest now matchedAt rereadAt =>
      exact iff_of_true (decide_apart valid decideRequest matchedAt rereadAt) rfl
  | consumeApprovedGrant approvalId now => exact iff_of_true (consume_apart approvalId) rfl

theorem valid_legacy {legacy : List ApprovalRequest} (isLegacy : Legacy legacy)
    (conversations : List Conversation) : Valid service ⟨conversations, legacy⟩ where
  apart := isLegacy.apart
  asked := by
    intro row member grant isGrant
    rw [isLegacy.unstructured row member] at isGrant
    cases isGrant

/-- In a history of calls the two kinds of rows are apart exactly if no `prepare` call finds the
key of its action taken by an unsettled legacy row alone, and no `create_pending` call the key of
its action by an unsettled grant. -/
theorem legacy_apart_iff (service : ExecutionService) (collisionFree : service.CollisionFree)
    (conversations : List Conversation) (legacy : List ApprovalRequest) (isLegacy : Legacy legacy)
    (calls : List StoreCall) :
    (callByCall service).EachStep (fun store call _ => store.Apart service call)
        ⟨conversations, legacy⟩ calls ↔
      (callByCall service).EachStep (fun store call _ => store.isFree service call = true)
        ⟨conversations, legacy⟩ calls := by
  apply (callByCall service).each_step_congr (Valid service)
  · intro store call next valid stepped
    exact valid_step valid stepped
  · intro store call next valid stepped
    apply apart_iff_free collisionFree valid
    simp only [callByCall] at stepped
    split_ifs at stepped with fresh
    exact fresh
  · exact valid_legacy isLegacy conversations

namespace Recorded

/-- A message of the SDK about the cancellation, kept under the key. -/
def legacyMessage (approvalKey : String) : CreatePending where
  method := "mcpServer/elicitation/request"
  params := [("threadId", .str "thread-1"), ("serverName", .str "order")]
  approvalKey := approvalKey
  conversationId := "c-1"
  requesterUserId := "u-1"
  tenantId := "t-1"

/-- The two kinds under different keys. -/
def bothKinds : List StoreCall :=
  [.createPending (legacyMessage "message") (uuid 1) 0, .prepare cancel (uuid 2) (uuid 3) 0 0,
    .decide ⟨(uuid 2).text, "approve", "approver-1", "t-1"⟩ 0 0 0,
    .consumeApprovedGrant (uuid 1).text 0, .prepare cancel (uuid 4) (uuid 5) 0 0]

/-- The message is already there under the key of the cancellation. -/
def messageStored : Store where
  conversations := [conversation]
  rows := [ApprovalRepository.legacyRow (legacyMessage Recorded.wanted.approvalKey) (uuid 1).text 0]

def messageFirst : List StoreCall :=
  [.createPending (legacyMessage Recorded.wanted.approvalKey) (uuid 1) 0,
    .prepare cancel (uuid 2) (uuid 3) 0 0]

end Recorded

theorem legacy_apart_iff_both_kinds :
    (callByCall Recorded.orderService).EachStep
      (fun store call _ => store.Apart Recorded.orderService call)
      ⟨[Recorded.conversation], []⟩ Recorded.bothKinds :=
  (legacy_apart_iff Recorded.orderService Recorded.collision_free [Recorded.conversation] []
    legacy_nil Recorded.bothKinds).2 (by decide +kernel)

/-- A message under the key keeps the grant out of the table, and the lookup finds nothing. -/
theorem legacy_row_blocks_grant :
    ¬ ∀ (conversations : List Conversation) (calls : List StoreCall),
      (callByCall Recorded.orderService).EachStep
        (fun store call _ => store.Apart Recorded.orderService call) ⟨conversations, []⟩ calls := by
  intro law
  have first : (callByCall Recorded.orderService).step ⟨[Recorded.conversation], []⟩
      (.createPending (Recorded.legacyMessage Recorded.wanted.approvalKey) (Recorded.uuid 1) 0) =
      some Recorded.messageStored := by decide +kernel
  have second : ((callByCall Recorded.orderService).step Recorded.messageStored
      (.prepare Recorded.cancel (Recorded.uuid 2) (Recorded.uuid 3) 0 0)).isSome = true := by
    decide +kernel
  obtain ⟨last, reached⟩ := Option.isSome_iff_exists.mp second
  have later := (law [Recorded.conversation] Recorded.messageFirst _ first).2
  have same := (later last reached).1.1
  clear later reached law
  revert same
  decide +kernel

end AgentHarness.Approval
