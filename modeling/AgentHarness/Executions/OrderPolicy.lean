import AgentHarness.Approval.ApprovalRequest
import AgentHarness.Library.Text

/-!
# The policy of `order.cancel`
-/

namespace AgentHarness.Executions

open AgentHarness.Library AgentHarness.Approval

set_option autoImplicit false

abbrev Arguments := List (String × Json)

/-- `set(arguments) == {"orderId"}`. -/
def onlyOrderId (arguments : Arguments) : Bool :=
  !arguments.isEmpty && arguments.all fun entry => entry.1 = "orderId"

/-- The order identifiers the policy accepts. -/
def validOrderId (value : String) : Bool :=
  value ≠ "" && value.length ≤ 128 && value = Text.strip Text.pythonSpace value &&
    value.toList.all fun c => 32 ≤ c.toNat

/-- Exact business payload binding: the identifier is never normalized. -/
def validateCancelOrder (arguments : Arguments) : Except Raised Arguments :=
  if !onlyOrderId arguments then .error (.valueError "INVALID_OPERATION_ARGUMENTS")
  else match Json.lookup "orderId" arguments with
    | some (.str value) =>
        if validOrderId value then .ok [("orderId", .str value)]
        else .error (.valueError "INVALID_ORDER_ID")
    | _ => .error (.valueError "INVALID_ORDER_ID")

/-- What the policy accepts is bound as it was sent. -/
theorem validate_cancel_order_ok {arguments validated : Arguments}
    (accepted : validateCancelOrder arguments = .ok validated) :
    ∃ value, Json.lookup "orderId" arguments = some (.str value) ∧ validOrderId value = true ∧
      validated = [("orderId", .str value)] := by
  unfold validateCancelOrder at accepted
  split_ifs at accepted
  split at accepted
  · rename_i value found
    split_ifs at accepted with valid
    cases accepted
    exact ⟨value, found, valid, rfl⟩
  · cases accepted

end AgentHarness.Executions
