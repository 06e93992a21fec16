import AgentHarness.Approval.ApprovalRequest
import AgentHarness.Library.Uuid

/-!
# The authorization response on the wire

The execution endpoint validates a decision into its response model, and the adapter reads the body
into its own record, whose constructor refuses a decision that carries an execution id without being
authorized, or the other way round.
-/

namespace AgentHarness.Adapter

open AgentHarness.Library

set_option autoImplicit false

/-- The enumeration of the adapter; the response model spells the same names. -/
inductive Status where
  | pending
  | authorized
  | rejected
  | expired
  deriving DecidableEq, Repr

namespace Status

def name : Status → String
  | pending => "PENDING"
  | authorized => "AUTHORIZED"
  | rejected => "REJECTED"
  | expired => "EXPIRED"

def valueOf (text : String) : Option Status :=
  [pending, authorized, rejected, expired].find? fun status => status.name = text

theorem value_of_name (status : Status) : valueOf status.name = some status := by
  cases status <;> decide

end Status

structure ExecutionResponse where
  status : Status
  approvalId : Uuid
  executionId : Option Uuid
  expiresAt : Int
  deriving DecidableEq, Repr

/-- The members of the JSON body; a missing execution id is written as null. -/
structure ResponseBody where
  status : String
  approvalId : String
  executionId : Option String
  expiresAt : Int
  deriving DecidableEq, Repr

namespace ExecutionResponse

/-- The response model over the decision of the service, or nothing when it does not validate. -/
def ofDecision (decision : Approval.ExecutionDecision) : Option ExecutionResponse :=
  match Status.valueOf decision.status, Uuid.parse decision.approvalId, decision.executionId with
  | some status, some approvalId, none => some ⟨status, approvalId, none, decision.expiresAt⟩
  | some status, some approvalId, some text =>
      (Uuid.parse text).map fun executionId =>
        ⟨status, approvalId, some executionId, decision.expiresAt⟩
  | _, _, _ => none

def body (response : ExecutionResponse) : ResponseBody where
  status := response.status.name
  approvalId := response.approvalId.text
  executionId := response.executionId.map Uuid.text
  expiresAt := response.expiresAt

end ExecutionResponse

/-- The record of the adapter with what its constructor checks. -/
structure ExecutionDecision where
  status : Status
  approvalId : Uuid
  executionId : Option Uuid
  expiresAt : Int
  complete : status = .authorized ↔ executionId.isSome = true
  deriving DecidableEq, Repr

namespace ExecutionDecision

/-- The canonical constructor; `none` arguments are nulls. -/
def new (status : Option Status) (approvalId executionId : Option Uuid) (expiresAt : Option Int) :
    Option ExecutionDecision :=
  match status, approvalId, expiresAt with
  | some status, some approvalId, some expiresAt =>
      if complete : status = .authorized ↔ executionId.isSome = true then
        some ⟨status, approvalId, executionId, expiresAt, complete⟩
      else none
  | _, _, _ => none

/-- What the adapter makes of a response body. -/
def read (body : ResponseBody) : Option ExecutionDecision :=
  match body.executionId with
  | none => new (Status.valueOf body.status) (Uuid.fromString body.approvalId) none body.expiresAt
  | some text =>
      (Uuid.fromString text).bind fun executionId =>
        new (Status.valueOf body.status) (Uuid.fromString body.approvalId) executionId
          body.expiresAt

/-- `requireExecutionId` at an instant of the adapter's clock. -/
def requireExecutionId (decision : ExecutionDecision) (now : Int) : Option Uuid :=
  if decision.status ≠ .authorized ∨ ¬ now < decision.expiresAt then none
  else decision.executionId

end ExecutionDecision

/-- A decision with identifiers of the right form and an execution id exactly when it is
authorized is accepted at both ends of the wire. -/
theorem read_of_decision {decision : Approval.ExecutionDecision} {status : Status}
    {approvalId : Uuid} {executionId : Option Uuid} (isStatus : decision.status = status.name)
    (isApproval : decision.approvalId = approvalId.text)
    (isExecution : decision.executionId = executionId.map Uuid.text)
    (complete : status = .authorized ↔ executionId.isSome = true) :
    ∃ response, ExecutionResponse.ofDecision decision = some response ∧
      ExecutionDecision.read response.body =
        some ⟨status, approvalId, executionId, decision.expiresAt, complete⟩ := by
  refine ⟨⟨status, approvalId, executionId, decision.expiresAt⟩, ?_, ?_⟩
  · cases executionId with
    | none =>
        simp only [ExecutionResponse.ofDecision, isStatus, isApproval, isExecution,
          Status.value_of_name, Uuid.parse_text, Option.map_none]
    | some key =>
        simp only [ExecutionResponse.ofDecision, isStatus, isApproval, isExecution,
          Status.value_of_name, Uuid.parse_text, Option.map_some]
  · cases executionId with
    | none =>
        simp only [ExecutionDecision.read, ExecutionResponse.body, Option.map_none,
          Status.value_of_name, Uuid.from_string_text, ExecutionDecision.new, dif_pos complete]
    | some key =>
        simp only [ExecutionDecision.read, ExecutionResponse.body, Option.map_some,
          Option.bind_some, Status.value_of_name, Uuid.from_string_text, ExecutionDecision.new,
          dif_pos complete]

end AgentHarness.Adapter
