import AgentHarness.Approval.ApprovalRepository
import AgentHarness.Library.Keyset
import Mathlib.Data.Prod.Lex
import Mathlib.Data.String.Basic

/-!
# Reading approvals for a tenant

The reads of the approval page. The database compares identifiers in its own collation.
-/

namespace AgentHarness.Approval

open AgentHarness.Library ApprovalRequest

set_option autoImplicit false

/-- The order of a text column: a total order, by a sort key that tells all texts apart. -/
structure Collation where
  Rank : Type
  order : LinearOrder Rank
  sortKey : String → Rank
  injective : Function.Injective sortKey

attribute [instance] Collation.order

namespace Collation

/-- The row value `(created_at, id)`. -/
def position (collation : Collation) (createdAt : Int) (id : String) : Int ×ₗ collation.Rank :=
  toLex (createdAt, collation.sortKey id)

def positionOf (collation : Collation) (row : ApprovalRequest) : Int ×ₗ collation.Rank :=
  collation.position row.createdAt row.id

theorem position_eq_iff (collation : Collation) (createdAt otherAt : Int) (id other : String) :
    collation.position createdAt id = collation.position otherAt other ↔
      createdAt = otherAt ∧ id = other := by
  unfold position
  rw [toLex_inj, Prod.mk.injEq, collation.injective.eq_iff]

/-- The collation `C`. -/
def byCodePoint : Collation where
  Rank := String
  order := inferInstance
  sortKey := id
  injective := Function.injective_id

end Collation

/-- The optional arguments of `list_for_tenant`. -/
structure ListQuery where
  status : Option String
  conversationId : Option String
  before : Option (Int × String)
  deriving DecidableEq, Repr

namespace ListQuery

def storable (query : ListQuery) : Bool :=
  query.status.all plain && query.conversationId.all plain &&
    query.before.all fun cursor => plain cursor.2

/-- The conditions on status, expiry and conversation; `now` is the database clock. -/
def selects (query : ListQuery) (now : Int) (row : ApprovalRequest) : Bool :=
  (query.status.all fun status => row.status.text = status &&
      (status ≠ "PENDING" || row.grant.all fun grant => now < grant.expiresAt)) &&
    query.conversationId.all fun conversationId => row.conversationId = conversationId

end ListQuery

namespace ApprovalRepository

variable (collation : Collation) (rows : List ApprovalRequest)

def listForTenant (tenantId : String) (limit : Int) (query : ListQuery) (now : Int) :
    Except Raised (List ApprovalRequest) :=
  if !(1 ≤ limit && limit ≤ 201) then .error (.valueError "Invalid page size")
  else if !(plain tenantId && query.storable) then .error .dataError
  else
    .ok (Keyset.select collation.positionOf limit.toNat
      (query.before.map fun cursor => collation.position cursor.1 cursor.2)
      (rows.filter fun row => row.tenantId = tenantId && query.selects now row))

def getForTenant (approvalId tenantId : String) : Except Raised ApprovalRequest :=
  if !(plain approvalId && plain tenantId) then .error .dataError
  else match rows.find? fun row => row.id = approvalId && row.tenantId = tenantId with
    | none => .error (.keyError approvalId)
    | some row => .ok row

end ApprovalRepository

end AgentHarness.Approval
