import AgentHarness.Executions.ExecutionService
import AgentHarness.Library.JsonValue

/-!
# The text of an action

The text that `prepare` hashes names the conversation, the user, the tenant, the operation and the
arguments as a JSON value, and nothing else: not the order in which the keys were given.
-/

namespace AgentHarness.Executions

open AgentHarness.Library AgentHarness.Approval

set_option autoImplicit false

namespace Action

/-- The arguments as a JSON value. -/
def argumentsValue (action : Action) : JsonValue := Json.denote (.obj action.arguments)

/-- The arguments are dictionaries at every depth. -/
def isDict (action : Action) : Prop := Json.distinctKeys (.obj action.arguments) = true

theorem same_iff {left right : Action} (leftDict : left.isDict) (rightDict : right.isDict) :
    Same left right ↔ left.conversationId = right.conversationId ∧ left.userId = right.userId ∧
      left.tenantId = right.tenantId ∧ left.operation = right.operation ∧
      left.argumentsValue = right.argumentsValue := by
  unfold argumentsValue
  rw [← JsonText.sort_keys_eq_iff leftDict rightDict]
  constructor
  · intro same
    exact ⟨same.conversationId, same.userId, same.tenantId, same.operation, same.arguments⟩
  · intro same
    obtain ⟨conversationId, userId, tenantId, operation, arguments⟩ := same
    exact ⟨conversationId, userId, tenantId, operation, arguments⟩

/-- Unique readability of the hashed text. -/
theorem canonical_text_eq_iff (left right : Action) (leftDict : left.isDict)
    (rightDict : right.isDict) :
    left.canonical = right.canonical ↔ left.conversationId = right.conversationId ∧
      left.userId = right.userId ∧ left.tenantId = right.tenantId ∧
      left.operation = right.operation ∧ left.argumentsValue = right.argumentsValue := by
  rw [canonical_eq_iff]
  exact same_iff leftDict rightDict

namespace Recorded

def written : Action :=
  ⟨"c-1", "u-1", "t-1", "order.cancel", [("b", .int 1), ("a", .obj [("y", .null), ("x", .arr [])])]⟩

/-- The keys are in another order, at the top and further down. -/
def reordered : Action :=
  ⟨"c-1", "u-1", "t-1", "order.cancel", [("a", .obj [("x", .arr []), ("y", .null)]), ("b", .int 1)]⟩

end Recorded

theorem canonical_text_eq_iff_reordered :
    Recorded.written.canonical = Recorded.reordered.canonical := by
  have writtenDict : Recorded.written.isDict := by
    unfold isDict
    decide +kernel
  have reorderedDict : Recorded.reordered.isDict := by
    unfold isDict
    decide +kernel
  apply (canonical_text_eq_iff Recorded.written Recorded.reordered writtenDict
    reorderedDict).mpr
  exact ⟨rfl, rfl, rfl, rfl,
    (JsonText.sort_keys_eq_iff writtenDict reorderedDict).mp (by decide +kernel)⟩

end Action

end AgentHarness.Executions
