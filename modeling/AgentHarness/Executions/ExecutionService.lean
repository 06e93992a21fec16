import AgentHarness.Executions.OrderPolicy

/-!
# The execution service

`prepare` checks the operation and its arguments, and names the action by a digest of its canonical
text. The registry and the digest are parameters of the service.
-/

namespace AgentHarness.Executions

open AgentHarness.Library AgentHarness.Approval

set_option autoImplicit false

structure Action where
  conversationId : String
  userId : String
  tenantId : String
  operation : String
  arguments : Arguments
  deriving DecidableEq, Repr

namespace Action

def document (action : Action) : List (String × Json) :=
  [("version", .int 1),
   ("conversation_id", .str action.conversationId),
   ("user_id", .str action.userId),
   ("tenant_id", .str action.tenantId),
   ("operation", .str action.operation),
   ("arguments", .obj action.arguments)]

def canonical (action : Action) : String :=
  JsonText.dumps .compact (JsonText.sortKeys (.obj action.document))

/-- Equality of the tuples; dictionaries do not depend on the order of their entries. -/
structure Same (left right : Action) : Prop where
  conversationId : left.conversationId = right.conversationId
  userId : left.userId = right.userId
  tenantId : left.tenantId = right.tenantId
  operation : left.operation = right.operation
  arguments : JsonText.sortKeys (.obj left.arguments) = JsonText.sortKeys (.obj right.arguments)

theorem Same.refl (action : Action) : Same action action := ⟨rfl, rfl, rfl, rfl, rfl⟩

theorem Same.symm {left right : Action} (same : Same left right) : Same right left :=
  ⟨same.conversationId.symm, same.userId.symm, same.tenantId.symm, same.operation.symm,
    same.arguments.symm⟩

theorem Same.trans {first second third : Action} (left : Same first second)
    (right : Same second third) : Same first third :=
  ⟨left.conversationId.trans right.conversationId, left.userId.trans right.userId,
    left.tenantId.trans right.tenantId, left.operation.trans right.operation,
    left.arguments.trans right.arguments⟩

theorem sorted_document (action : Action) :
    JsonText.sortKeys (.obj action.document) = .obj
      [("arguments", JsonText.sortKeys (.obj action.arguments)),
       ("conversation_id", .str action.conversationId),
       ("operation", .str action.operation),
       ("tenant_id", .str action.tenantId),
       ("user_id", .str action.userId),
       ("version", .int 1)] := by
  simp +decide only [document, JsonText.sortKeys, JsonText.sortKeysEntries, JsonText.sortEntries,
    List.insertionSort_cons, List.insertionSort_nil, List.orderedInsert, if_true, if_false]

theorem canonical_head (action : Action) :
    ∃ rest, action.canonical.toList = '{' :: rest := by
  rw [canonical, JsonText.dumps, sorted_document, String.toList_ofList, JsonText.render]
  exact ⟨_, rfl⟩

/-- The canonical text names the action and nothing else. -/
theorem canonical_eq_iff (left right : Action) :
    left.canonical = right.canonical ↔ Same left right := by
  constructor
  · intro same
    have documents := JsonText.dumps_injective .compact same
    rw [sorted_document, sorted_document] at documents
    simp only [Json.obj.injEq, List.cons.injEq, Prod.mk.injEq, true_and, Json.str.injEq,
      and_true] at documents
    obtain ⟨arguments, conversationId, operation, tenantId, userId⟩ := documents
    exact ⟨conversationId, userId, tenantId, operation, arguments⟩
  · intro same
    rw [canonical, canonical, sorted_document, sorted_document, same.conversationId, same.userId,
      same.tenantId, same.operation, same.arguments]

instance (left right : Action) : Decidable (Same left right) :=
  decidable_of_iff _ (canonical_eq_iff left right)

end Action

/-- The arguments of `prepare`. -/
structure PrepareRequest where
  conversationId : String
  userId : String
  tenantId : String
  operation : String
  arguments : Arguments
  deriving DecidableEq, Repr

structure ExecutionService where
  operations : String → Option (Arguments → Except Raised Arguments)
  digest : String → String
  ttlSeconds : Int
  ttlPositive : 0 < ttlSeconds

namespace ExecutionService

/-- The digest keeps canonical texts apart. -/
def CollisionFree (service : ExecutionService) : Prop :=
  ∀ left right : Action, service.digest left.canonical = service.digest right.canonical →
    left.canonical = right.canonical

/-- `prepare` between its two calls of the repositories. -/
def authorize (service : ExecutionService) (request : PrepareRequest) :
    Except Raised PrepareExecution :=
  match service.operations request.operation with
  | none => .error (.valueError "UNSUPPORTED_OPERATION")
  | some validator =>
      match validator request.arguments with
      | .error raised => .error raised
      | .ok validated =>
          let action : Action :=
            { conversationId := request.conversationId, userId := request.userId,
              tenantId := request.tenantId, operation := request.operation,
              arguments := validated }
          .ok
            { conversationId := request.conversationId
              userId := request.userId
              tenantId := request.tenantId
              approvalKey := service.digest action.canonical
              operation := request.operation
              arguments := validated
              ttlSeconds := service.ttlSeconds }

end ExecutionService

/-- The registry the application starts the service with. -/
def orderOperations (operation : String) : Option (Arguments → Except Raised Arguments) :=
  if operation = "order.cancel" then some validateCancelOrder else none

/-- A digest that knows the SHA-256 value of one text. -/
def recordedDigest (text value : String) (input : String) : String :=
  if input = text then value else input

theorem recorded_collision_free (operations : String → Option (Arguments → Except Raised Arguments))
    (ttlSeconds : Int) (positive : 0 < ttlSeconds) (text value : String)
    (hex : value.toList.head? ≠ some '{') :
    (ExecutionService.mk operations (recordedDigest text value) ttlSeconds positive).CollisionFree := by
  have apart : ∀ action : Action, value ≠ action.canonical := by
    intro action same
    obtain ⟨rest, head⟩ := action.canonical_head
    rw [same, head] at hex
    exact hex rfl
  intro left right same
  simp only [recordedDigest] at same
  split_ifs at same with leftText rightText rightText
  · rw [leftText, rightText]
  · exact absurd same (apart right)
  · exact absurd same.symm (apart left)
  · exact same

/-- The action a call of `prepare_execution` is for. -/
def actionOf (wanted : PrepareExecution) : Action where
  conversationId := wanted.conversationId
  userId := wanted.userId
  tenantId := wanted.tenantId
  operation := wanted.operation
  arguments := wanted.arguments

namespace ExecutionService

variable {service : ExecutionService} {request : PrepareRequest} {wanted : PrepareExecution}

/-- What the service asks of the repository. -/
structure Asks (service : ExecutionService) (request : PrepareRequest)
    (wanted : PrepareExecution) : Prop where
  conversationId : wanted.conversationId = request.conversationId
  userId : wanted.userId = request.userId
  tenantId : wanted.tenantId = request.tenantId
  operation : wanted.operation = request.operation
  validated : ∃ validator, service.operations request.operation = some validator ∧
    validator request.arguments = .ok wanted.arguments
  approvalKey : wanted.approvalKey = service.digest (actionOf wanted).canonical
  ttlSeconds : wanted.ttlSeconds = service.ttlSeconds

theorem authorize_asks (authorized : service.authorize request = .ok wanted) :
    service.Asks request wanted := by
  unfold authorize at authorized
  cases registered : service.operations request.operation with
  | none =>
      rw [registered] at authorized
      cases authorized
  | some validator =>
      rw [registered] at authorized
      cases accepted : validator request.arguments with
      | error raised =>
          simp only [accepted] at authorized
          cases authorized
      | ok validated =>
          simp only [accepted] at authorized
          cases authorized
          exact ⟨rfl, rfl, rfl, rfl, ⟨validator, registered, accepted⟩, rfl, rfl⟩

/-- Under one approval key there is one action. -/
theorem key_eq_iff (collisionFree : service.CollisionFree) {other : PrepareRequest}
    {otherWanted : PrepareExecution} (asks : service.Asks request wanted)
    (otherAsks : service.Asks other otherWanted) :
    wanted.approvalKey = otherWanted.approvalKey ↔
      (actionOf wanted).Same (actionOf otherWanted) := by
  rw [asks.approvalKey, otherAsks.approvalKey, ← Action.canonical_eq_iff]
  constructor
  · intro same
    exact collisionFree _ _ same
  · intro same
    rw [same]

end ExecutionService

end AgentHarness.Executions
