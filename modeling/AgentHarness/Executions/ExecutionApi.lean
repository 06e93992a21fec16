import AgentHarness.Adapter.ExecutionDecision
import AgentHarness.Executions.ExecutionService
import AgentHarness.Services.ServiceAuth

/-!
# The execution endpoint

`POST /internal/executions/prepare`: who calls comes from two headers behind a credential of its
own, and the decision of the service is validated into the response model.
-/

namespace AgentHarness.Executions

open AgentHarness.Library AgentHarness.Approval AgentHarness.Services
open AgentHarness.Adapter (ResponseBody ExecutionResponse)

set_option autoImplicit false

/-- The request as the endpoint receives it. -/
structure HttpRequest where
  credentials : Option String
  userId : Option String
  tenantId : Option String
  conversationId : String
  operation : String
  arguments : Arguments
  deriving DecidableEq, Repr

inductive HttpReply where
  | ok (body : ResponseBody)
  | refused (statusCode : Nat)
  deriving DecidableEq, Repr

/-- The caller, or the status code of the refusal. -/
def requireExecutionPrincipal (secret : String) (request : HttpRequest) :
    Except Nat ServicePrincipal :=
  if request.userId.any (fun value => 128 < value.length) ||
      request.tenantId.any (fun value => 128 < value.length) then .error 422
  else
    let known : Except Nat Bool :=
      match request.credentials with
      | none => .ok false
      | some credentials => compareDigest credentials secret
    match known, request.userId, request.tenantId with
    | .error statusCode, _, _ => .error statusCode
    | .ok false, _, _ => .error 401
    | .ok true, some userId, some tenantId =>
        if Text.strip Text.pythonSpace userId = "" || Text.strip Text.pythonSpace tenantId = "" then
          .error 400
        else .ok ⟨Text.strip Text.pythonSpace userId, Text.strip Text.pythonSpace tenantId, ∅⟩
    | .ok true, _, _ => .error 400

/-- The endpoint up to its call of the service, for a body with the conversation id in the dashed
form, as the adapter writes it. The other forms of a UUID that the endpoint takes are left out. -/
def receive (secret : String) (request : HttpRequest) : Except Nat PrepareRequest :=
  match requireExecutionPrincipal secret request, Uuid.parse request.conversationId with
  | .error statusCode, _ => .error statusCode
  | .ok _, none => .error 422
  | .ok principal, some conversationId =>
      if request.operation.length < 1 || 128 < request.operation.length then .error 422
      else .ok
        { conversationId := conversationId.text
          userId := principal.userId
          tenantId := principal.tenantId
          operation := request.operation
          arguments := request.arguments }

theorem require_execution_principal_ok {secret : String} {request : HttpRequest}
    {principal : ServicePrincipal}
    (accepted : requireExecutionPrincipal secret request = .ok principal) :
    (∃ userId, request.userId = some userId ∧
        principal.userId = Text.strip Text.pythonSpace userId) ∧
      ∃ tenantId, request.tenantId = some tenantId ∧
        principal.tenantId = Text.strip Text.pythonSpace tenantId := by
  unfold requireExecutionPrincipal at accepted
  split_ifs at accepted
  dsimp only at accepted
  split at accepted
  · cases accepted
  · cases accepted
  · rename_i userId tenantId _ isUser isTenant
    split_ifs at accepted
    cases accepted
    exact ⟨⟨userId, isUser, rfl⟩, tenantId, isTenant, rfl⟩
  · cases accepted

/-- What the service is asked is what the request says, with the names stripped. -/
theorem receive_ok {secret : String} {request : HttpRequest} {asked : PrepareRequest}
    (received : receive secret request = .ok asked) :
    ∃ conversationId userId tenantId, Uuid.parse request.conversationId = some conversationId ∧
      request.userId = some userId ∧ request.tenantId = some tenantId ∧
      asked = ⟨conversationId.text, Text.strip Text.pythonSpace userId,
        Text.strip Text.pythonSpace tenantId, request.operation, request.arguments⟩ := by
  unfold receive at received
  split at received
  · cases received
  · cases received
  · rename_i principal conversationId accepted parsed
    split_ifs at received
    cases received
    obtain ⟨⟨userId, isUser, sameUser⟩, tenantId, isTenant, sameTenant⟩ :=
      require_execution_principal_ok accepted
    exact ⟨conversationId, userId, tenantId, parsed, isUser, isTenant, by rw [sameUser, sameTenant]⟩

/-- The reply for the result of the service. -/
def respond : Except Raised ExecutionDecision → HttpReply
  | .ok decision =>
      match ExecutionResponse.ofDecision decision with
      | some response => .ok response.body
      | none => .refused 500
  | .error (.keyError _) => .refused 404
  | .error (.valueError _) => .refused 422
  | .error (.runtimeError _) => .refused 500
  | .error _ => .refused 503

end AgentHarness.Executions
