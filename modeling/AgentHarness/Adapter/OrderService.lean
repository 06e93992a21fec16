import AgentHarness.Adapter.ExecutionDecision
import AgentHarness.Adapter.TrustedRequest
import AgentHarness.Executions.ExecutionApi
import Mathlib.Algebra.GroupWithZero.Nat

/-!
# Cancelling an order

`OrderService.cancelOrder` in two parts: what it asks the execution endpoint, and what it does with
the reply. Only an authorized decision leads to a POST to the order system.
-/

namespace AgentHarness.Adapter

open AgentHarness.Library AgentHarness.Executions

set_option autoImplicit false

/-- `String.length` of Java, in UTF-16 units. -/
def utf16Length (text : String) : Nat :=
  (text.toList.map fun c => if c.toNat < 0x10000 then 1 else 2).sum

def invalidOrderId (orderId : String) : Bool :=
  Text.isBlank Text.javaWhitespace orderId || 128 < utf16Length orderId ||
    orderId ≠ Text.strip Text.javaWhitespace orderId || orderId.toList.any fun c => c.toNat < 32

/-- A tool call that has passed the checks of the adapter. -/
structure Cancel where
  orderId : String
  identity : BusinessIdentity
  conversationId : Uuid
  deriving DecidableEq

/-- The tool `cancel_order` up to its request for authorization. -/
def cancelOrder (request : McpRequest) (orderId : Option String) : Except String Cancel := do
  let identity ← request.currentIdentity
  let conversationId ← request.currentConversationId
  match orderId with
  | none => .error "无效订单 ID"
  | some orderId =>
      if invalidOrderId orderId then .error "无效订单 ID"
      else .ok ⟨orderId, identity, conversationId⟩

theorem cancel_order_ok {request : McpRequest} {orderId : Option String} {cancel : Cancel}
    (accepted : cancelOrder request orderId = .ok cancel) :
    request.currentIdentity = .ok cancel.identity ∧
      request.currentConversationId = .ok cancel.conversationId ∧
      orderId = some cancel.orderId ∧ invalidOrderId cancel.orderId = false := by
  obtain ⟨identity, isIdentity, accepted⟩ := bind_ok accepted
  obtain ⟨conversationId, isConversation, accepted⟩ := bind_ok accepted
  cases orderId with
  | none => cases accepted
  | some orderId =>
      simp only at accepted
      split_ifs at accepted with invalid
      cases accepted
      exact ⟨isIdentity, isConversation, rfl, by simpa using invalid⟩

/-- What `HttpExecutionAuthorizer.prepare` makes of a reply. -/
def authorizerResult : HttpReply → Except String ExecutionDecision
  | .ok body =>
      match ExecutionDecision.read body with
      | some decision => .ok decision
      | none => .error "执行授权服务不可用，订单操作未发送"
  | .refused _ => .error "执行授权服务不可用，订单操作未发送"

/-- The POST to the cancel path of the order, with the headers the order system checks. The
conversation is not sent. -/
structure CancelPost where
  orderId : String
  userId : String
  tenantId : String
  conversationId : String
  idempotencyKey : String
  deriving DecidableEq, Repr

inductive CancelOutcome where
  | posted (post : CancelPost)
  | notAuthorized (status approvalId : String) (expiresAt : Int)
  | failed (message : String)
  deriving DecidableEq, Repr

namespace Cancel

def arguments (cancel : Cancel) : Arguments := [("orderId", .str cancel.orderId)]

/-- The request of `HttpExecutionAuthorizer.prepare` as it arrives, unless the client refuses a
header. -/
def httpRequest (cancel : Cancel) (toService : String → Option String) (serviceToken : String) :
    Option HttpRequest :=
  match toService cancel.identity.userId, toService cancel.identity.tenantId with
  | some userId, some tenantId => some
      { credentials := some serviceToken
        userId := some userId
        tenantId := some tenantId
        conversationId := cancel.conversationId.text
        operation := "order.cancel"
        arguments := cancel.arguments }
  | _, _ => none

/-- The end of `cancelOrder` at an instant of the adapter's clock. -/
def conclude (cancel : Cancel) (reply : HttpReply) (now : Int) : CancelOutcome :=
  match authorizerResult reply with
  | .error message => .failed message
  | .ok decision =>
      if decision.status ≠ .authorized then
        .notAuthorized decision.status.name decision.approvalId.text decision.expiresAt
      else match decision.requireExecutionId now with
        | none => .failed "执行尚未获准或授权已过期"
        | some executionId => .posted
            { orderId := cancel.orderId
              userId := cancel.identity.userId
              tenantId := cancel.identity.tenantId
              conversationId := cancel.conversationId.text
              idempotencyKey := executionId.text }

/-- A POST has an authorized decision behind it, in time by the adapter's clock. -/
theorem conclude_posted {cancel : Cancel} {reply : HttpReply} {now : Int} {post : CancelPost}
    (posted : cancel.conclude reply now = .posted post) :
    ∃ body decision executionId, reply = .ok body ∧ ExecutionDecision.read body = some decision ∧
      decision.status = .authorized ∧ decision.executionId = some executionId ∧
      now < decision.expiresAt ∧
      post = ⟨cancel.orderId, cancel.identity.userId, cancel.identity.tenantId,
        cancel.conversationId.text, executionId.text⟩ := by
  cases reply with
  | refused statusCode => cases posted
  | ok body =>
      cases read : ExecutionDecision.read body with
      | none =>
          simp only [conclude, authorizerResult, read] at posted
          cases posted
      | some decision =>
          simp only [conclude, authorizerResult, read] at posted
          split_ifs at posted with other
          rw [not_not] at other
          cases required : decision.requireExecutionId now with
          | none =>
              rw [required] at posted
              cases posted
          | some executionId =>
              rw [required] at posted
              simp only [ExecutionDecision.requireExecutionId] at required
              split_ifs at required with late
              cases posted
              rw [not_or, not_not] at late
              exact ⟨body, decision, executionId, rfl, read, other, required,
                not_not.mp late.2, rfl⟩

end Cancel

end AgentHarness.Adapter
