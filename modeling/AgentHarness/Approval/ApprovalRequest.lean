import AgentHarness.Library.JsonText

/-!
# Approval rows

One row of `approval_requests`, the unique indexes over the table, and what the statements of the
repository do to a row. A legacy row has no execution grant. Instants are microseconds.
-/

namespace AgentHarness.Approval

open AgentHarness.Library

set_option autoImplicit false

inductive Status where
  | pending
  | approved
  | rejected
  | consumed
  deriving DecidableEq, Repr

namespace Status

def text : Status → String
  | pending => "PENDING"
  | approved => "APPROVED"
  | rejected => "REJECTED"
  | consumed => "CONSUMED"

/-- The scope of `uq_approval_requests_active_grant`. -/
def active : Status → Bool
  | pending | approved => true
  | rejected | consumed => false

/-- The statuses a row can still get. -/
def leadsTo : Status → Status → Bool
  | pending, _ => true
  | approved, later => later = approved || later = consumed
  | rejected, later => later = rejected
  | consumed, later => later = consumed

theorem leads_to_refl (status : Status) : status.leadsTo status = true := by
  cases status <;> rfl

theorem leads_to_trans {first second third : Status} (early : first.leadsTo second = true)
    (late : second.leadsTo third = true) : first.leadsTo third = true := by
  revert early late
  cases first <;> cases second <;> cases third <;> decide

end Status

inductive Decision where
  | approve
  | reject
  deriving DecidableEq, Repr

namespace Decision

def text : Decision → String
  | approve => "approve"
  | reject => "reject"

def ofText (value : String) : Option Decision :=
  if value = "approve" then some approve else if value = "reject" then some reject else none

def newStatus : Decision → Status
  | approve => .approved
  | reject => .rejected

theorem of_text_eq_some {value : String} {decision : Decision}
    (known : ofText value = some decision) : value = decision.text := by
  unfold ofText at known
  split_ifs at known with isApprove isReject
  · cases known
    exact isApprove
  · cases known
    exact isReject

end Decision

/-- The columns that `ck_execution_grant_complete` leaves null together. -/
structure ExecutionGrant where
  executionId : String
  operation : String
  operationArguments : List (String × Json)
  expiresAt : Int
  deriving DecidableEq, Repr

structure ApprovalRequest where
  id : String
  approvalKey : String
  conversationId : String
  requesterUserId : String
  tenantId : String
  method : String
  threadId : Option String
  turnId : Option String
  serverName : Option String
  params : List (String × Json)
  status : Status
  createdAt : Int
  decidedAt : Option Int
  decision : Option String
  decidedBy : Option String
  consumedAt : Option Int
  grant : Option ExecutionGrant
  deriving DecidableEq, Repr

/-- The exceptions of the repository and of the calls it serves. -/
inductive Raised where
  | keyError (key : String)
  | valueError (message : String)
  | runtimeError (message : String)
  | noResultFound
  | multipleResultsFound
  | dataError
  | integrityError
  deriving DecidableEq, Repr

/-- The arguments of `prepare_execution`. -/
structure PrepareExecution where
  conversationId : String
  userId : String
  tenantId : String
  approvalKey : String
  operation : String
  arguments : List (String × Json)
  ttlSeconds : Int
  deriving DecidableEq, Repr

structure ExecutionDecision where
  status : String
  approvalId : String
  executionId : Option String
  expiresAt : Int
  deriving DecidableEq, Repr

/-- The arguments of `decide`. -/
structure DecideRequest where
  approvalId : String
  decision : String
  decidedBy : String
  tenantId : String
  deriving DecidableEq, Repr

/-- PostgreSQL stores no NUL character. -/
def plain (text : String) : Bool := text.toList.all fun c => c.toNat ≠ 0

/-- The text can be stored in a `VARCHAR` column. PostgreSQL would also take one that is too long by
blanks at its end alone, and cut them off; such a text counts as refused here. -/
def fits (width : Nat) (text : String) : Bool := text.length ≤ width && plain text

/-- The texts of the update are texts the database takes. -/
def DecideRequest.storable (request : DecideRequest) : Bool :=
  fits 128 request.decidedBy && plain request.approvalId && plain request.tenantId

namespace ApprovalRequest

/-! ## The table -/

def structured (row : ApprovalRequest) : Bool := row.grant.isSome

def sameAction (left right : ApprovalRequest) : Bool :=
  left.conversationId = right.conversationId && left.approvalKey = right.approvalKey

/-- The primary key, `uq_approval_requests_active_grant`, `uq_execution_grant_id` and
`uq_execution_grant_action`. -/
def conflict (left right : ApprovalRequest) : Bool :=
  left.id = right.id ||
    (left.status.active && right.status.active && sameAction left right) ||
    match left.grant, right.grant with
    | some mine, some other => mine.executionId = other.executionId || sameAction left right
    | _, _ => false

/-- The `VARCHAR` and `JSONB` columns take the row. -/
def fitsColumns (row : ApprovalRequest) : Bool :=
  fits 36 row.id && fits 64 row.approvalKey && fits 36 row.conversationId &&
    fits 128 row.requesterUserId && fits 128 row.tenantId && fits 128 row.method &&
    row.threadId.all (fits 128) && row.turnId.all (fits 128) && row.serverName.all (fits 128) &&
    Json.allTextsEntries plain row.params &&
    row.grant.all fun grant => fits 36 grant.executionId && fits 128 grant.operation &&
      Json.allTextsEntries plain grant.operationArguments

theorem same_action_comm (left right : ApprovalRequest) :
    sameAction left right = sameAction right left := by
  simp only [sameAction, eq_comm]

theorem conflict_comm (left right : ApprovalRequest) : conflict left right = conflict right left := by
  unfold conflict
  rw [same_action_comm left right, Bool.and_comm left.status.active right.status.active]
  cases left.grant <;> cases right.grant <;> simp only [eq_comm]

theorem conflict_eq_true_iff (left right : ApprovalRequest) :
    conflict left right = true ↔
      left.id = right.id ∨
        (left.status.active = true ∧ right.status.active = true ∧ sameAction left right = true) ∨
        ∃ mine other, left.grant = some mine ∧ right.grant = some other ∧
          (mine.executionId = other.executionId ∨ sameAction left right = true) := by
  unfold conflict
  cases left.grant <;> cases right.grant <;>
    simp only [Bool.or_eq_true, Bool.and_eq_true, decide_eq_true_eq, Bool.or_false, reduceCtorEq,
      Option.some.injEq, false_and, and_false, exists_false, or_false, exists_and_left,
      exists_eq_left', and_assoc, or_assoc]

theorem conflict_of_id {left right : ApprovalRequest} (same : left.id = right.id) :
    conflict left right = true := by
  simp [conflict, same]

theorem conflict_of_action {left right : ApprovalRequest} (leftStructured : left.structured = true)
    (rightStructured : right.structured = true) (same : sameAction left right = true) :
    conflict left right = true := by
  obtain ⟨mine, leftGrant⟩ := Option.isSome_iff_exists.mp leftStructured
  obtain ⟨other, rightGrant⟩ := Option.isSome_iff_exists.mp rightStructured
  simp [conflict, leftGrant, rightGrant, same]

theorem conflict_of_execution_id {left right : ApprovalRequest} {mine other : ExecutionGrant}
    (leftGrant : left.grant = some mine) (rightGrant : right.grant = some other)
    (same : mine.executionId = other.executionId) : conflict left right = true := by
  simp [conflict, leftGrant, rightGrant, same]

/-! ## The life of a row -/

/-- The row without the columns that statements update. -/
def frozen (row : ApprovalRequest) : ApprovalRequest :=
  { row with status := .pending, decidedAt := none, decision := none, decidedBy := none,
             consumedAt := none }

/-- The later row is the same approval, further on; a decision stays as it was made. -/
structure Advances (old new : ApprovalRequest) : Prop where
  frozen : old.frozen = new.frozen
  status : old.status.leadsTo new.status = true
  decided : old.status ≠ .pending →
    new.decision = old.decision ∧ new.decidedBy = old.decidedBy ∧ new.decidedAt = old.decidedAt

namespace Advances

variable {old new : ApprovalRequest}

theorem refl (row : ApprovalRequest) : Advances row row :=
  ⟨rfl, row.status.leads_to_refl, fun _ => ⟨rfl, rfl, rfl⟩⟩

theorem trans {middle : ApprovalRequest} (first : Advances old middle)
    (second : Advances middle new) : Advances old new where
  frozen := first.frozen.trans second.frozen
  status := Status.leads_to_trans first.status second.status
  decided := by
    intro decided
    have middleDecided : middle.status ≠ .pending := by
      intro isPending
      have leads := first.status
      rw [isPending] at leads
      cases status : old.status <;> simp_all [Status.leadsTo]
    obtain ⟨decision, decidedBy, decidedAt⟩ := first.decided decided
    obtain ⟨laterDecision, laterBy, laterAt⟩ := second.decided middleDecided
    exact ⟨laterDecision.trans decision, laterBy.trans decidedBy, laterAt.trans decidedAt⟩

theorem id (advances : Advances old new) : new.id = old.id :=
  (congrArg ApprovalRequest.id advances.frozen).symm

theorem approval_key (advances : Advances old new) : new.approvalKey = old.approvalKey :=
  (congrArg ApprovalRequest.approvalKey advances.frozen).symm

theorem conversation_id (advances : Advances old new) :
    new.conversationId = old.conversationId :=
  (congrArg ApprovalRequest.conversationId advances.frozen).symm

theorem requester_user_id (advances : Advances old new) :
    new.requesterUserId = old.requesterUserId :=
  (congrArg ApprovalRequest.requesterUserId advances.frozen).symm

theorem created_at (advances : Advances old new) : new.createdAt = old.createdAt :=
  (congrArg ApprovalRequest.createdAt advances.frozen).symm

theorem tenant_id (advances : Advances old new) : new.tenantId = old.tenantId :=
  (congrArg ApprovalRequest.tenantId advances.frozen).symm

theorem grant (advances : Advances old new) : new.grant = old.grant :=
  (congrArg ApprovalRequest.grant advances.frozen).symm

theorem active (advances : Advances old new) (isActive : new.status.active = true) :
    old.status.active = true := by
  have leads := advances.status
  revert leads isActive
  cases old.status <;> cases new.status <;> decide

/-- A row further on is in conflict with no more rows. -/
theorem conflict (advances : Advances old new) (other : ApprovalRequest)
    (clash : ApprovalRequest.conflict new other = true) :
    ApprovalRequest.conflict old other = true := by
  unfold ApprovalRequest.conflict sameAction at clash ⊢
  rw [advances.id, advances.approval_key, advances.conversation_id, advances.grant] at clash
  simp only [Bool.or_eq_true, Bool.and_eq_true] at clash ⊢
  rcases clash with (same | ⟨⟨newActive, otherActive⟩, same⟩) | structured
  · exact Or.inl (Or.inl same)
  · exact Or.inl (Or.inr ⟨⟨advances.active newActive, otherActive⟩, same⟩)
  · exact Or.inr structured

end Advances

/-! ## `prepare_execution` -/

/-- The row the insert proposes. -/
def newGrant (wanted : PrepareExecution) (id executionId : String) (now : Int) :
    ApprovalRequest where
  id := id
  approvalKey := wanted.approvalKey
  conversationId := wanted.conversationId
  requesterUserId := wanted.userId
  tenantId := wanted.tenantId
  method := "business/execution"
  threadId := none
  turnId := none
  serverName := none
  params := [("message", .str (wanted.operation ++ ": " ++
    JsonText.dumps .default (.obj wanted.arguments)))]
  status := .pending
  createdAt := now
  decidedAt := none
  decision := none
  decidedBy := none
  consumedAt := none
  grant := some
    { executionId := executionId
      operation := wanted.operation
      operationArguments := wanted.arguments
      expiresAt := now + wanted.ttlSeconds * 1000000 }

/-- The condition of the locking read. -/
def isGrantOf (wanted : PrepareExecution) (row : ApprovalRequest) : Bool :=
  row.conversationId = wanted.conversationId && row.approvalKey = wanted.approvalKey &&
    row.structured && row.tenantId = wanted.tenantId && row.requesterUserId = wanted.userId

/-- The grant is approved and in time, so the execution id is issued now. -/
def issuesAt (row : ApprovalRequest) (grant : ExecutionGrant) (now : Int) : Bool :=
  now < grant.expiresAt && row.status = .approved

def consume (now : Int) (row : ApprovalRequest) : ApprovalRequest :=
  { row with status := .consumed, consumedAt := some now }

def judge (row : ApprovalRequest) (grant : ExecutionGrant) (now : Int) : String :=
  if grant.expiresAt ≤ now then "EXPIRED"
  else if row.status = .approved then "AUTHORIZED"
  else if row.status = .consumed then "AUTHORIZED"
  else row.status.text

def executionDecision (row : ApprovalRequest) (grant : ExecutionGrant) (now : Int) :
    ExecutionDecision where
  status := judge row grant now
  approvalId := row.id
  executionId := if judge row grant now = "AUTHORIZED" then some grant.executionId else none
  expiresAt := grant.expiresAt

/-! ## `decide` -/

/-- The condition of the guarded update; `now` is the database clock. -/
def isDecidable (request : DecideRequest) (now : Int) (row : ApprovalRequest) : Bool :=
  row.id = request.approvalId && row.tenantId = request.tenantId && row.status = .pending &&
    row.grant.all fun grant => now < grant.expiresAt

def applyDecision (decision : Decision) (decidedBy : String) (now : Int) (row : ApprovalRequest) :
    ApprovalRequest :=
  { row with status := decision.newStatus, decision := some decision.text,
             decidedBy := some decidedBy, decidedAt := some now }

/-- The error for a row of the caller's tenant that the update did not change. -/
def refusal (row : ApprovalRequest) (now : Int) : Raised :=
  if row.grant.any fun grant => grant.expiresAt ≤ now then .valueError "审批已过期，不能执行"
  else if row.status ≠ .pending then .valueError "该审批已经处理，不能重复审批"
  else .runtimeError "审批状态更新失败"

theorem is_grant_of_eq_true_iff (wanted : PrepareExecution) (row : ApprovalRequest) :
    isGrantOf wanted row = true ↔
      row.conversationId = wanted.conversationId ∧ row.approvalKey = wanted.approvalKey ∧
        row.structured = true ∧ row.tenantId = wanted.tenantId ∧
        row.requesterUserId = wanted.userId := by
  simp only [isGrantOf, Bool.and_eq_true, decide_eq_true_eq, and_assoc]

theorem is_decidable_eq_true_iff (request : DecideRequest) (now : Int) (row : ApprovalRequest) :
    isDecidable request now row = true ↔
      row.id = request.approvalId ∧ row.tenantId = request.tenantId ∧ row.status = .pending ∧
        ∀ grant, row.grant = some grant → now < grant.expiresAt := by
  simp only [isDecidable, Bool.and_eq_true, decide_eq_true_eq, and_assoc, Option.all_eq_true]

theorem new_grant_is_grant_of (wanted : PrepareExecution) (id executionId : String) (now : Int) :
    isGrantOf wanted (newGrant wanted id executionId now) = true := by
  rw [is_grant_of_eq_true_iff]
  exact ⟨rfl, rfl, rfl, rfl, rfl⟩

theorem is_grant_of_advances {wanted : PrepareExecution} {old new : ApprovalRequest}
    (advances : Advances old new) : isGrantOf wanted new = isGrantOf wanted old := by
  simp only [isGrantOf, structured, advances.conversation_id, advances.approval_key,
    advances.grant, advances.tenant_id, advances.requester_user_id]

/-- Two grants of one call's action are in conflict. -/
theorem grants_conflict {wanted other : PrepareExecution} {left right : ApprovalRequest}
    (leftGrant : isGrantOf wanted left = true) (rightGrant : isGrantOf other right = true)
    (conversation : wanted.conversationId = other.conversationId)
    (key : wanted.approvalKey = other.approvalKey) : conflict left right = true := by
  rw [is_grant_of_eq_true_iff] at leftGrant rightGrant
  apply conflict_of_action leftGrant.2.2.1 rightGrant.2.2.1
  simp [sameAction, leftGrant.1, rightGrant.1, leftGrant.2.1, rightGrant.2.1, conversation, key]

theorem consume_advances {row : ApprovalRequest} (now : Int) (isApproved : row.status = .approved) :
    Advances row (consume now row) where
  frozen := rfl
  status := by rw [isApproved]; rfl
  decided := fun _ => ⟨rfl, rfl, rfl⟩

theorem apply_decision_advances {row : ApprovalRequest} (decision : Decision) (decidedBy : String)
    (now : Int) (isPending : row.status = .pending) :
    Advances row (applyDecision decision decidedBy now row) where
  frozen := rfl
  status := by rw [isPending]; rfl
  decided := fun decided => absurd isPending decided

theorem judge_eq_authorized_iff (row : ApprovalRequest) (grant : ExecutionGrant) (now : Int) :
    judge row grant now = "AUTHORIZED" ↔
      now < grant.expiresAt ∧ (row.status = .approved ∨ row.status = .consumed) := by
  unfold judge
  split_ifs with expired isApproved isConsumed
  · simp [expired]
  · simp [isApproved, not_le.mp expired]
  · simp [isConsumed, not_le.mp expired]
  · cases status : row.status <;> simp_all [Status.text]

/-- Every judgement is one of the four wire statuses. -/
theorem judge_cases (row : ApprovalRequest) (grant : ExecutionGrant) (now : Int) :
    (judge row grant now = "EXPIRED" ∧ grant.expiresAt ≤ now) ∨
      (judge row grant now = "AUTHORIZED" ∧ now < grant.expiresAt ∧
        (row.status = .approved ∨ row.status = .consumed)) ∨
      (judge row grant now = "PENDING" ∧ now < grant.expiresAt ∧ row.status = .pending) ∨
      (judge row grant now = "REJECTED" ∧ now < grant.expiresAt ∧ row.status = .rejected) := by
  unfold judge
  split_ifs with expired isApproved isConsumed
  · exact Or.inl ⟨rfl, expired⟩
  · exact Or.inr (Or.inl ⟨rfl, not_le.mp expired, Or.inl isApproved⟩)
  · exact Or.inr (Or.inl ⟨rfl, not_le.mp expired, Or.inr isConsumed⟩)
  · have inTime := not_le.mp expired
    cases status : row.status with
    | pending => exact Or.inr (Or.inr (Or.inl ⟨rfl, inTime, rfl⟩))
    | rejected => exact Or.inr (Or.inr (Or.inr ⟨rfl, inTime, rfl⟩))
    | approved => exact absurd status isApproved
    | consumed => exact absurd status isConsumed

theorem judge_eq_expired_iff (row : ApprovalRequest) (grant : ExecutionGrant) (now : Int) :
    judge row grant now = "EXPIRED" ↔ grant.expiresAt ≤ now := by
  rcases judge_cases row grant now with ⟨worded, late⟩ | ⟨worded, inTime, _⟩ |
    ⟨worded, inTime, _⟩ | ⟨worded, inTime, _⟩
  · simp [worded, late]
  · simp [worded, inTime]
  · simp [worded, inTime]
  · simp [worded, inTime]

theorem judge_eq_pending_iff (row : ApprovalRequest) (grant : ExecutionGrant) (now : Int) :
    judge row grant now = "PENDING" ↔ row.status = .pending ∧ now < grant.expiresAt := by
  rcases judge_cases row grant now with ⟨worded, late⟩ | ⟨worded, _, isApproved | isConsumed⟩ |
    ⟨worded, inTime, isPending⟩ | ⟨worded, _, isRejected⟩
  · simp [worded, late]
  · simp [worded, isApproved]
  · simp [worded, isConsumed]
  · simp [worded, inTime, isPending]
  · simp [worded, isRejected]

end ApprovalRequest

end AgentHarness.Approval
