import AgentHarness.Approval.GrantStore

/-!
# The approval store one call at a time

The meaning of a concurrent run is a run of this machine: whole calls, each on the rows the one
before has left, with their answers on record. It says nothing of statements, locks or transactions.
-/

namespace AgentHarness.Approval

open AgentHarness.Library AgentHarness.Conversations AgentHarness.Executions ApprovalRequest

set_option autoImplicit false

inductive SerialLabel where
  | createConversation (row : Conversation)
  | call (caller : Nat) (call : StoreCall)

/-- A call that was served, for whom, and what it was told. -/
structure Served where
  caller : Nat
  call : StoreCall
  answer : Answer

def serialStore (service : ExecutionService) : Machine Store SerialLabel where
  step store
    | .createConversation row =>
        (ConversationRepository.create store.conversations row).map fun conversations =>
          { store with conversations := conversations }
    | .call _ call => some (store.put (store.answer service call).2)

def served (service : ExecutionService) (store : Store) : SerialLabel → Option Served
  | .createConversation _ => none
  | .call caller call => some ⟨caller, call, (store.answer service call).1⟩

/-- The serial store with the answers it has given so far. -/
def servedStore (service : ExecutionService) : Machine (Store × List Served) SerialLabel :=
  (serialStore service).withHistory (served service)

theorem served_call (service : ExecutionService) (store : Store) (history : List Served)
    (caller : Nat) (call : StoreCall) :
    (servedStore service).run (store, history) [.call caller call] =
      some (store.put (store.answer service call).2,
        history ++ [⟨caller, call, (store.answer service call).1⟩]) := rfl

/-- What was served for one caller, in order. -/
def servedFor (caller : Nat) (history : List Served) : List (StoreCall × Answer) :=
  (history.filter fun entry => entry.caller = caller).map fun entry => (entry.call, entry.answer)

theorem served_for_same (caller : Nat) (history : List Served) (call : StoreCall)
    (answer : Answer) :
    servedFor caller (history ++ [⟨caller, call, answer⟩]) =
      servedFor caller history ++ [(call, answer)] := by
  simp [servedFor]

theorem served_for_other {caller other : Nat} (apart : other ≠ caller) (history : List Served)
    (call : StoreCall) (answer : Answer) :
    servedFor other (history ++ [⟨caller, call, answer⟩]) = servedFor other history := by
  simp [servedFor, Ne.symm apart]

namespace ApprovalRepository

section Rows

variable {rows : List ApprovalRequest} {row : ApprovalRequest} {wanted : PrepareExecution}
  {grant : ExecutionGrant}

/-- The rows of the table satisfy its unique indexes. -/
def Clear (rows : List ApprovalRequest) : Prop :=
  rows.Pairwise fun row other => conflict row other = false

theorem Clear.unique_ids (clear : Clear rows) : UniqueIds rows := by
  apply clear.imp
  intro row other apart same
  rw [conflict_of_id same] at apart
  cases apart

theorem Clear.nodup (clear : Clear rows) : rows.Nodup := by
  apply clear.imp
  intro row other apart same
  rw [conflict_of_id (congrArg ApprovalRequest.id same)] at apart
  cases apart

theorem Clear.perm {other : List ApprovalRequest} (clear : Clear rows) (same : rows.Perm other) :
    Clear other := by
  apply same.pairwise clear
  intro row other apart
  rw [conflict_comm]
  exact apart

/-- Asking for an action that has a grant reads the grant, whatever identifiers were drawn. -/
theorem prepare_existing (clear : Clear rows) (member : row ∈ rows)
    (isGrantOf : isGrantOf wanted row = true) (isGrant : row.grant = some grant)
    (id executionId : String) (now later : Int)
    (narrow : (newGrant wanted id executionId now).fitsColumns = true) :
    prepareExecution rows wanted id executionId now later =
      (.ok (row.executionDecision grant later),
        if row.issuesAt grant later then
          rows.map fun other => if other.id = row.id then consume later other else other
        else rows) := by
  have proposedGrant := new_grant_is_grant_of wanted id executionId now
  have taken : rows.any (conflict (newGrant wanted id executionId now)) = true := by
    rw [List.any_eq_true]
    exact ⟨row, member, grants_conflict proposedGrant isGrantOf rfl rfl⟩
  have only : rows.filter (ApprovalRequest.isGrantOf wanted) = [row] := by
    apply clear_only clear member isGrantOf
    intro other _ otherGrant
    exact grants_conflict otherGrant isGrantOf rfl rfl
  simp [prepareExecution, narrow, insertNew, taken, only, isGrant]

/-- Asking for a new action inserts the grant, which is pending and issues nothing yet. -/
theorem prepare_new (id executionId : String) (now later : Int)
    (free : ∀ other ∈ rows, conflict (newGrant wanted id executionId now) other = false)
    (narrow : (newGrant wanted id executionId now).fitsColumns = true)
    (isGrant : (newGrant wanted id executionId now).grant = some grant) :
    prepareExecution rows wanted id executionId now later =
      (.ok ((newGrant wanted id executionId now).executionDecision grant later),
        rows ++ [newGrant wanted id executionId now]) := by
  have proposedGrant := new_grant_is_grant_of wanted id executionId now
  have untaken : rows.any (conflict (newGrant wanted id executionId now)) = false := by
    rw [List.any_eq_false]
    intro other member
    simp [free other member]
  have none : rows.filter (ApprovalRequest.isGrantOf wanted) = [] := by
    rw [List.filter_eq_nil_iff]
    intro other member otherGrant
    have clash := grants_conflict proposedGrant otherGrant rfl rfl
    rw [free other member] at clash
    cases clash
  have pending : (newGrant wanted id executionId now).issuesAt grant later = false := by
    simp [issuesAt, newGrant]
  simp [prepareExecution, narrow, insertNew, untaken, none, proposedGrant, isGrant, pending]

theorem create_new (conversations : List Conversation) (arguments : CreatePending) (id : String)
    (now : Int) (narrow : (legacyRow arguments id now).fitsColumns = true)
    (free : ∀ other ∈ rows, conflict (legacyRow arguments id now) other = false)
    (known : ∃ conversation ∈ conversations,
      conversation.id = (legacyRow arguments id now).conversationId) :
    createPending conversations rows arguments id now =
      (.ok (legacyRow arguments id now), rows ++ [legacyRow arguments id now]) := by
  have untaken : rows.any (conflict (legacyRow arguments id now)) = false := by
    rw [List.any_eq_false]
    intro other member
    simp [free other member]
  have isKnown : conversations.any (fun conversation =>
      conversation.id = (legacyRow arguments id now).conversationId) = true := by
    simpa using known
  simp [createPending, narrow, untaken, isKnown]

/-- A decision that finds a decidable row changes it and returns it. -/
theorem decide_wins (clear : Clear rows) (member : row ∈ rows) {request : DecideRequest}
    {decision : Decision} (known : Decision.ofText request.decision = some decision)
    (storable : request.storable = true) (now matchedAt rereadAt : Int)
    (decidable : isDecidable request matchedAt row = true) :
    decide rows request now matchedAt rereadAt =
      (.ok (applyDecision decision request.decidedBy now row),
        rows.map fun other => if isDecidable request matchedAt other then
          applyDecision decision request.decidedBy now other else other) := by
  have isId := ((is_decidable_eq_true_iff _ _ _).mp decidable).1
  have found : get rows request.approvalId = some row := by
    rw [← isId]
    exact get_of_mem clear.unique_ids member
  apply Prod.ext
  · rw [decide_answer clear.unique_ids]
    simp [known, storable, found, decidable]
  · rw [decide_rows]
    apply List.map_congr_left
    intro other _
    simp [decideRow, known, storable]

theorem consume_found (clear : Clear rows) (member : row ∈ rows) {approvalId : String}
    (now : Int) (approved : isApprovedLegacy approvalId row = true) :
    consumeApprovedGrant rows approvalId now =
      (some (consume now row),
        rows.map fun other => if isApprovedLegacy approvalId other then consume now other
          else other) := by
  have isId : ∀ {other}, isApprovedLegacy approvalId other = true → other.id = approvalId := by
    intro other isApproved
    simp only [isApprovedLegacy, Bool.and_eq_true, decide_eq_true_eq] at isApproved
    exact isApproved.1.1
  have found : rows.find? (isApprovedLegacy approvalId) = some row := by
    cases first : rows.find? (isApprovedLegacy approvalId) with
    | none =>
        have absent := List.find?_eq_none.mp first row member
        exact absurd approved absent
    | some other =>
        have isApproved := List.find?_some first
        have otherMem := List.mem_of_find?_eq_some first
        have sameId := (isId isApproved).trans (isId approved).symm
        rw [Keyset.Apart.eq clear.unique_ids otherMem member sameId]
  have result : (rows.find? (isApprovedLegacy approvalId)).map (consume now) =
      some (consume now row) := by
    rw [found]
    rfl
  exact Prod.ext result rfl

theorem consume_nothing {approvalId : String} (now : Int)
    (absent : ∀ row ∈ rows, isApprovedLegacy approvalId row = false) :
    consumeApprovedGrant rows approvalId now = (none, rows) := by
  have found : rows.find? (isApprovedLegacy approvalId) = none := by
    rw [List.find?_eq_none]
    intro row member
    simp [absent row member]
  have kept : (rows.map fun other => if isApprovedLegacy approvalId other then consume now other
      else other) = rows := by
    conv_rhs => rw [← List.map_id rows]
    apply List.map_congr_left
    intro row member
    simp [absent row member]
  have result : (rows.find? (isApprovedLegacy approvalId)).map (consume now) = none := by
    rw [found]
    rfl
  exact Prod.ext result kept

end Rows

end ApprovalRepository

end AgentHarness.Approval
