import AgentHarness.Adapter.OrderService
import AgentHarness.Approval.DecidingCalls
import AgentHarness.Approval.DecisionOrder

/-!
# The authorization gate

Agent runtime, adapter, execution endpoint and approval store together. A cancel request of the
adapter may reach the endpoint late, never or more than once, and so may the reply; any other calls
of the store run in between.
-/

namespace AgentHarness.Gate

open AgentHarness.Library AgentHarness.Conversations AgentHarness.Executions
open AgentHarness.Approval AgentHarness.Approval.ApprovalRequest
open AgentHarness.Adapter (Cancel CancelPost CancelOutcome McpHeaders)

set_option autoImplicit false

/-- The HTTP clients and servers between the processes: what the receiver reads for a header value,
unless the client refuses to send it. -/
structure Network where
  toAdapter : String → Option String
  toService : String → Option String

/-- Visible ASCII, space and tab. -/
def fieldChar (c : Char) : Bool := c.toNat = 9 || (32 ≤ c.toNat && c.toNat < 127)

/-- The blanks around a header value, which are no part of it. -/
def fieldBlank (c : Char) : Bool := c.toNat = 9 || c.toNat = 32

/-- The client of the agent runtime sends visible ASCII only, and such a value arrives at the
endpoint without the blanks around it. -/
structure Network.Documented (network : Network) : Prop where
  ascii : ∀ value read, network.toAdapter value = some read → read.toList.all fieldChar = true
  trimmed : ∀ value read, value.toList.all fieldChar = true →
    network.toService value = some read → read = Text.strip fieldBlank value

structure Deployment where
  service : ExecutionService
  network : Network
  mcpServiceToken : String
  executionServiceToken : String
  executionServiceSecret : String

/-- A cancel request with the calls of `prepare` it has led to. -/
structure Waiting where
  cancel : Cancel
  calls : List Nat
  deriving DecidableEq

structure System where
  world : World
  waiting : List Waiting
  posts : List CancelPost
  deriving DecidableEq

inductive SystemLabel where
  | store (label : Label)
  | cancelOrder (headers : McpHeaders) (orderId : Option String)
  | deliver (cancel : Nat)
  | reply (cancel call : Nat) (now : Int)

/-- The result of a `prepare` call that has ended. -/
def result : Call → Option (Except Raised Approval.ExecutionDecision)
  | .prepare _ (.returned judgement) => some (.ok judgement.decision)
  | .prepare _ (.raised error) => some (.error error)
  | _ => none

namespace Deployment

variable (deployment : Deployment)

/-- The headers as the adapter reads them. -/
def arrived (headers : McpHeaders) : McpHeaders where
  authorization := headers.authorization.bind deployment.network.toAdapter
  userId := headers.userId.bind deployment.network.toAdapter
  tenantId := headers.tenantId.bind deployment.network.toAdapter
  roles := headers.roles.bind deployment.network.toAdapter
  conversationId := headers.conversationId.bind deployment.network.toAdapter

/-- The cancel request a tool call comes to, or nothing when the adapter refuses it. -/
def accept (headers : McpHeaders) (orderId : Option String) : Option Cancel :=
  (Adapter.doFilter deployment.mcpServiceToken (deployment.arrived headers)).bind fun request =>
    (Adapter.cancelOrder request orderId).toOption

/-- The call of the service that a delivered request leads to. -/
def prepareRequest (cancel : Cancel) : Option PrepareRequest :=
  (cancel.httpRequest deployment.network.toService deployment.executionServiceToken).bind
    fun request => (receive deployment.executionServiceSecret request).toOption

def step (system : System) : SystemLabel → Option System
  | .store label =>
      ((approvals deployment.service).step system.world label).map fun world =>
        { system with world := world }
  | .cancelOrder headers orderId =>
      match deployment.accept headers orderId with
      | none => some system
      | some cancel => some { system with waiting := system.waiting ++ [⟨cancel, []⟩] }
  | .deliver index =>
      (system.waiting[index]?).bind fun waiting =>
        match deployment.prepareRequest waiting.cancel with
        | none => some system
        | some request =>
            ((approvals deployment.service).step system.world (.prepare request)).map fun world =>
              { system with
                world := world
                waiting := system.waiting.set index
                  { waiting with calls := waiting.calls ++ [system.world.calls.length] } }
  | .reply index caller now =>
      match system.waiting[index]?, (system.world.calls[caller]?).bind result with
      | some waiting, some result =>
          if caller ∈ waiting.calls then
            match waiting.cancel.conclude (respond result) now with
            | .posted post => some { system with posts := system.posts ++ [post] }
            | _ => some system
          else none
      | _, _ => none

end Deployment

def gate (deployment : Deployment) : Machine System SystemLabel where
  step := deployment.step

namespace System

def start (conversations : List Conversation) (legacy : List ApprovalRequest) (clock : Int) :
    System where
  world := World.start conversations legacy clock
  waiting := []
  posts := []

end System

end AgentHarness.Gate
