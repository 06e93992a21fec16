import AgentHarness.Conversations.ConversationRepository
import AgentHarness.Executions.ExecutionService
import AgentHarness.Library.Keyset
import AgentHarness.Library.Machine
import AgentHarness.Library.Uuid

/-!
# The approval repository, call by call

Here every call runs alone. The legacy calls `create_pending` and `consume_approved_grant` share the
table with the structured grants of `prepare_execution`.
-/

namespace AgentHarness.Approval

open AgentHarness.Library AgentHarness.Conversations AgentHarness.Executions ApprovalRequest

set_option autoImplicit false

/-- The arguments of `create_pending`. -/
structure CreatePending where
  method : String
  params : List (String × Json)
  approvalKey : String
  conversationId : String
  requesterUserId : String
  tenantId : String
  deriving DecidableEq, Repr

namespace ApprovalRepository

/-- The first of the keys that holds a text that is not blank, stripped. -/
def optionalText (params : List (String × Json)) (keys : List String) : Option String :=
  keys.findSome? fun key =>
    match Json.lookup key params with
    | some (.str value) =>
        let stripped := Text.strip Text.pythonSpace value
        if stripped = "" then none else some stripped
    | _ => none

def legacyRow (arguments : CreatePending) (id : String) (now : Int) : ApprovalRequest where
  id := id
  approvalKey := arguments.approvalKey
  conversationId := arguments.conversationId
  requesterUserId := arguments.requesterUserId
  tenantId := arguments.tenantId
  method := arguments.method
  threadId := optionalText arguments.params ["threadId", "thread_id"]
  turnId := optionalText arguments.params ["turnId", "turn_id"]
  serverName := optionalText arguments.params ["serverName", "server_name"]
  params := arguments.params
  status := .pending
  createdAt := now
  decidedAt := none
  decision := none
  decidedBy := none
  consumedAt := none
  grant := none

def isActionable (conversationId approvalKey : String) (row : ApprovalRequest) : Bool :=
  row.conversationId = conversationId && row.approvalKey = approvalKey && row.status.active

/-- The newest row of the action that is not settled, whatever kind of row it is. -/
def findActionable (rows : List ApprovalRequest) (conversationId approvalKey : String) :
    Option ApprovalRequest :=
  ((rows.filter (isActionable conversationId approvalKey)).insertionSort fun left right =>
    right.createdAt ≤ left.createdAt).head?

def get (rows : List ApprovalRequest) (approvalId : String) : Option ApprovalRequest :=
  rows.find? fun row => row.id = approvalId

def createPending (conversations : List Conversation) (rows : List ApprovalRequest)
    (arguments : CreatePending) (id : String) (now : Int) :
    Except Raised ApprovalRequest × List ApprovalRequest :=
  let item := legacyRow arguments id now
  if !item.fitsColumns then (.error .dataError, rows)
  else if rows.any (conflict item) ||
      !conversations.any (fun conversation => conversation.id = item.conversationId) then
    match findActionable rows arguments.conversationId arguments.approvalKey with
    | some existing => (.ok existing, rows)
    | none => (.error .integrityError, rows)
  else (.ok item, rows ++ [item])

/-- The table after `INSERT … ON CONFLICT DO NOTHING`. -/
def insertNew (rows : List ApprovalRequest) (row : ApprovalRequest) : List ApprovalRequest :=
  if rows.any (conflict row) then rows else rows ++ [row]

/-- `prepare_execution`; the clock shows `now` before the insert and `later` after the lock. -/
def prepareExecution (rows : List ApprovalRequest) (wanted : PrepareExecution)
    (id executionId : String) (now later : Int) :
    Except Raised ExecutionDecision × List ApprovalRequest :=
  let proposed := newGrant wanted id executionId now
  if !proposed.fitsColumns then (.error .dataError, rows)
  else
    let inserted := insertNew rows proposed
    match inserted.filter (isGrantOf wanted) with
    | [] => (.error .noResultFound, rows)
    | [row] =>
        match row.grant with
        | none => (.error .noResultFound, rows)
        | some grant =>
            (.ok (row.executionDecision grant later),
              if row.issuesAt grant later then
                inserted.map fun other => if other.id = row.id then consume later other else other
              else inserted)
    | _ => (.error .multipleResultsFound, rows)

def consumeApprovedGrant (rows : List ApprovalRequest) (approvalId : String) (now : Int) :
    Option ApprovalRequest × List ApprovalRequest :=
  let wanted := fun row : ApprovalRequest =>
    decide (row.id = approvalId) && decide (row.status = .approved) && !row.structured
  ((rows.find? wanted).map (consume now),
    rows.map fun row => if wanted row then consume now row else row)

/-- `decide`; the update compares the expiry with the database clock `matchedAt`, and a refusal is
worded by the host clock `rereadAt`. -/
def decide (rows : List ApprovalRequest) (request : DecideRequest) (now matchedAt rereadAt : Int) :
    Except Raised ApprovalRequest × List ApprovalRequest :=
  match Decision.ofText request.decision with
  | none => (.error (.valueError "decision 只能是 approve 或 reject"), rows)
  | some decision =>
      if !request.storable then (.error .dataError, rows)
      else
        let updated := rows.map fun row =>
          if isDecidable request matchedAt row then applyDecision decision request.decidedBy now row
          else row
        match get updated request.approvalId with
        | none => (.error (.keyError request.approvalId), updated)
        | some row =>
            if rows.any (isDecidable request matchedAt) then (.ok row, updated)
            else if row.tenantId ≠ request.tenantId then
              (.error (.keyError request.approvalId), updated)
            else (.error (row.refusal rereadAt), updated)

/-! ### Rows by their id -/

/-- The primary key. -/
def UniqueIds (rows : List ApprovalRequest) : Prop := Keyset.Apart ApprovalRequest.id rows

section Rows

variable {rows : List ApprovalRequest} {row other : ApprovalRequest} {approvalId : String}

theorem mem_of_get (found : get rows approvalId = some row) : row ∈ rows ∧ row.id = approvalId := by
  have isId := List.find?_some found
  simp only [decide_eq_true_eq] at isId
  exact ⟨List.mem_of_find?_eq_some found, isId⟩

theorem get_of_mem (unique : UniqueIds rows) (member : row ∈ rows) :
    get rows row.id = some row := by
  cases found : get rows row.id with
  | none =>
      have absent := List.find?_eq_none.mp found row member
      simp at absent
  | some other =>
      obtain ⟨otherMem, same⟩ := mem_of_get found
      rw [Keyset.Apart.eq unique otherMem member same]

theorem not_mem_of_get_none (absent : get rows approvalId = none) (member : row ∈ rows) :
    row.id ≠ approvalId := by
  have apart := List.find?_eq_none.mp absent row member
  simpa using apart

theorem clear_unique (apart : rows.Pairwise fun row other => conflict row other = false)
    (rowMem : row ∈ rows) (otherMem : other ∈ rows) (clash : conflict row other = true) :
    row = other := by
  by_contra differ
  have symm : Std.Symm fun row other : ApprovalRequest => conflict row other = false := by
    constructor
    intro row other clear
    rw [conflict_comm]
    exact clear
  rw [List.Pairwise.forall apart rowMem otherMem differ] at clash
  cases clash

/-- A row that is in conflict with every row the condition holds of is the only one. -/
theorem clear_only (apart : rows.Pairwise fun row other => conflict row other = false)
    {condition : ApprovalRequest → Bool} (member : row ∈ rows) (holds : condition row = true)
    (clash : ∀ other ∈ rows, condition other = true → conflict other row = true) :
    rows.filter condition = [row] := by
  have same : ∀ other ∈ rows.filter condition, other = row := by
    intro other selected
    rw [List.mem_filter] at selected
    exact clear_unique apart selected.1 member (clash other selected.1 selected.2)
  have filtered := apart.filter condition
  have selected : row ∈ rows.filter condition := List.mem_filter.mpr ⟨member, holds⟩
  cases found : rows.filter condition with
  | nil =>
      rw [found] at selected
      cases selected
  | cons first rest =>
      rw [found] at same filtered
      have isFirst := same first List.mem_cons_self
      cases rest with
      | nil => rw [isFirst]
      | cons second rest =>
          have isSecond := same second (List.mem_cons_of_mem _ List.mem_cons_self)
          have clear := List.rel_of_pairwise_cons filtered List.mem_cons_self
          rw [isFirst, isSecond, conflict_of_id rfl] at clear
          cases clear

/-- A call of `decide` answers from the row with the id alone. -/
theorem decide_answer (unique : UniqueIds rows) (request : DecideRequest)
    (now matchedAt rereadAt : Int) :
    (decide rows request now matchedAt rereadAt).1 =
      match Decision.ofText request.decision with
      | none => .error (.valueError "decision 只能是 approve 或 reject")
      | some decision =>
          if !request.storable then .error .dataError
          else match get rows request.approvalId with
            | none => .error (.keyError request.approvalId)
            | some row =>
                if isDecidable request matchedAt row then
                  .ok (applyDecision decision request.decidedBy now row)
                else if row.tenantId ≠ request.tenantId then
                  .error (.keyError request.approvalId)
                else .error (row.refusal rereadAt) := by
  cases known : Decision.ofText request.decision with
  | none => simp only [decide, known]
  | some decision =>
      -- the update changes no id, so the second read finds the row it changed
      have reread : get (rows.map fun row => if isDecidable request matchedAt row then
            applyDecision decision request.decidedBy now row else row) request.approvalId =
          (get rows request.approvalId).map fun row => if isDecidable request matchedAt row then
            applyDecision decision request.decidedBy now row else row := by
        rw [get, List.find?_map, get]
        congr 2
        funext row
        simp only [Function.comp_apply]
        split_ifs <;> rfl
      simp only [decide, known, reread]
      cases found : get rows request.approvalId with
      | none => split_ifs <;> rfl
      | some row =>
          obtain ⟨member, isId⟩ := mem_of_get found
          have anyMatched : rows.any (isDecidable request matchedAt) =
              isDecidable request matchedAt row := by
            rw [Bool.eq_iff_iff, List.any_eq_true]
            constructor
            · rintro ⟨other, otherMem, decidable⟩
              have same := ((is_decidable_eq_true_iff _ _ _).mp decidable).1.trans isId.symm
              rw [← Keyset.Apart.eq unique otherMem member same]
              exact decidable
            · intro decidable
              exact ⟨row, member, decidable⟩
          simp only [Option.map_some, anyMatched]
          split_ifs <;> rfl

/-- What a call of `decide` makes of a row. -/
def decideRow (request : DecideRequest) (now matchedAt : Int) (row : ApprovalRequest) :
    ApprovalRequest :=
  match Decision.ofText request.decision with
  | some decision =>
      if request.storable && isDecidable request matchedAt row then
        applyDecision decision request.decidedBy now row
      else row
  | none => row

theorem decide_rows (request : DecideRequest) (now matchedAt rereadAt : Int) :
    (decide rows request now matchedAt rereadAt).2 =
      rows.map (decideRow request now matchedAt) := by
  unfold decide decideRow
  split
  · rename_i unknown
    simp only [unknown, List.map_id']
  · rename_i decision known
    simp only [known]
    cases storable : request.storable with
    | false => simp
    | true =>
        simp only [Bool.not_true, Bool.false_eq_true, if_false, Bool.true_and]
        split
        · rfl
        · split
          · rfl
          · split <;> rfl

theorem decide_row_id (request : DecideRequest) (now matchedAt : Int) (row : ApprovalRequest) :
    (decideRow request now matchedAt row).id = row.id := by
  unfold decideRow
  split
  · split_ifs <;> rfl
  · rfl

theorem decide_row_tenant_id (request : DecideRequest) (now matchedAt : Int)
    (row : ApprovalRequest) :
    (decideRow request now matchedAt row).tenantId = row.tenantId := by
  unfold decideRow
  split
  · split_ifs <;> rfl
  · rfl

/-- A row of another tenant stays as it is. -/
theorem decide_row_of_other_tenant (request : DecideRequest) (now matchedAt : Int)
    {row : ApprovalRequest} (other : row.tenantId ≠ request.tenantId) :
    decideRow request now matchedAt row = row := by
  have notDecidable : isDecidable request matchedAt row = false := by
    simp [isDecidable, other]
  unfold decideRow
  split
  · simp [notDecidable]
  · rfl

end Rows

end ApprovalRepository

/-! ## A store under calls -/

structure Store where
  conversations : List Conversation
  rows : List ApprovalRequest
  deriving DecidableEq, Repr

/-- A call with what it takes from outside: the identifiers it draws and the clocks it reads. -/
inductive StoreCall where
  | createPending (arguments : CreatePending) (id : Uuid) (now : Int)
  | prepare (request : PrepareRequest) (id executionId : Uuid) (now later : Int)
  | decide (request : DecideRequest) (now matchedAt rereadAt : Int)
  | consumeApprovedGrant (approvalId : String) (now : Int)
  deriving DecidableEq, Repr

/-- What a call answers. -/
inductive Answer where
  | row (result : Except Raised ApprovalRequest)
  | decision (result : Except Raised ExecutionDecision)
  | consumed (result : Option ApprovalRequest)

namespace Store

def put (store : Store) (rows : List ApprovalRequest) : Store := { store with rows := rows }

/-- The request of a `prepare` call that gets through to the repository. -/
def wantedBy (store : Store) (service : ExecutionService) (request : PrepareRequest) :
    Except Raised PrepareExecution :=
  match ConversationRepository.getOwned store.conversations request.conversationId
      request.tenantId request.userId with
  | none => .error (.keyError request.conversationId)
  | some _ => service.authorize request

def prepare (store : Store) (service : ExecutionService) (request : PrepareRequest)
    (id executionId : String) (now later : Int) :
    Except Raised ExecutionDecision × List ApprovalRequest :=
  match store.wantedBy service request with
  | .error error => (.error error, store.rows)
  | .ok wanted =>
      ApprovalRepository.prepareExecution store.rows wanted id executionId now later

def answer (store : Store) (service : ExecutionService) : StoreCall → Answer × List ApprovalRequest
  | .createPending arguments drawn now =>
      let (result, rows) :=
        ApprovalRepository.createPending store.conversations store.rows arguments drawn.text now
      (.row result, rows)
  | .prepare request drawn executionId now later =>
      let (result, rows) := store.prepare service request drawn.text executionId.text now later
      (.decision result, rows)
  | .decide request now matchedAt rereadAt =>
      let (result, rows) :=
        ApprovalRepository.decide store.rows request now matchedAt rereadAt
      (.row result, rows)
  | .consumeApprovedGrant approvalId now =>
      let (result, rows) := ApprovalRepository.consumeApprovedGrant store.rows approvalId now
      (.consumed result, rows)

/-- No row has the drawn identifier. -/
def fresh (store : Store) (id : Uuid) : Bool :=
  store.rows.all fun row => row.id ≠ id.text &&
    row.grant.all fun grant => grant.executionId ≠ id.text

def drawsFresh (store : Store) : StoreCall → Bool
  | .createPending _ drawn _ => store.fresh drawn
  | .prepare _ drawn executionId _ _ => store.fresh drawn && store.fresh executionId
  | _ => true

end Store

/-- Calls in any order, with identifiers that no row has yet. -/
def callByCall (service : ExecutionService) : Machine Store StoreCall where
  step store call :=
    if store.drawsFresh call then some (store.put (store.answer service call).2) else none

end AgentHarness.Approval
