import AgentHarness.Approval.ApprovalListing
import AgentHarness.Approval.CallRuns

/-!
# Tenant isolation

A tenant's calls read and write as if the table held no rows of other tenants: the table with those
rows erased gives the same answers, and erasing is all that two tables can differ in.
-/

namespace AgentHarness.Approval

open AgentHarness.Library ApprovalRequest ApprovalRepository

set_option autoImplicit false

/-- A call made for a tenant, with the clocks it reads. -/
inductive TenantCall where
  | decide (approvalId decision decidedBy : String) (now matchedAt rereadAt : Int)
  | getForTenant (approvalId : String)
  | listForTenant (limit : Int) (query : ListQuery) (now : Int)
  deriving DecidableEq, Repr

inductive TenantAnswer where
  | approval (result : Except Raised ApprovalRequest)
  | page (result : Except Raised (List ApprovalRequest))

namespace TenantCall

variable (collation : Collation) (tenantId : String)

def answer (rows : List ApprovalRequest) : TenantCall → TenantAnswer × List ApprovalRequest
  | decide approvalId decision decidedBy now matchedAt rereadAt =>
      let (result, rows) := ApprovalRepository.decide rows
        ⟨approvalId, decision, decidedBy, tenantId⟩ now matchedAt rereadAt
      (.approval result, rows)
  | getForTenant approvalId =>
      (.approval (ApprovalRepository.getForTenant rows approvalId tenantId), rows)
  | listForTenant limit query now =>
      (.page (ApprovalRepository.listForTenant collation rows tenantId limit query now), rows)

/-- The answers of calls one after the other, and the table they leave. -/
def answers : List ApprovalRequest → List TenantCall → List TenantAnswer × List ApprovalRequest
  | rows, [] => ([], rows)
  | rows, call :: calls =>
      let (first, next) := call.answer collation tenantId rows
      let (rest, final) := answers next calls
      (first :: rest, final)

end TenantCall

def ownedBy (tenantId : String) (row : ApprovalRequest) : Bool := row.tenantId = tenantId

def foreignTo (tenantId : String) (row : ApprovalRequest) : Bool := row.tenantId ≠ tenantId

variable {collation : Collation} {tenantId : String} {rows left right : List ApprovalRequest}

/-! ## The reads -/

theorem positions_apart (unique : UniqueIds rows) : Keyset.Apart collation.positionOf rows := by
  apply List.Pairwise.imp _ unique
  intro row other apart same
  exact apart ((collation.position_eq_iff _ _ _ _).mp same).2

theorem list_erased (limit : Int) (query : ListQuery) (now : Int) :
    listForTenant collation (rows.filter (ownedBy tenantId)) tenantId limit query now =
      listForTenant collation rows tenantId limit query now := by
  have selected : (rows.filter (ownedBy tenantId)).filter
        (fun row => row.tenantId = tenantId && query.selects now row) =
      rows.filter fun row => row.tenantId = tenantId && query.selects now row := by
    rw [List.filter_filter]
    apply List.filter_congr
    intro row _
    by_cases own : row.tenantId = tenantId <;> simp [ownedBy, own]
  simp only [listForTenant, selected]

theorem list_perm (unique : UniqueIds left) (same : left.Perm right) (limit : Int)
    (query : ListQuery) (now : Int) :
    listForTenant collation left tenantId limit query now =
      listForTenant collation right tenantId limit query now := by
  unfold listForTenant
  rw [Keyset.select_congr _ _ ((positions_apart unique).filter _) (same.filter _)]

theorem get_for_tenant_erased (approvalId : String) :
    getForTenant (rows.filter (ownedBy tenantId)) approvalId tenantId =
      getForTenant rows approvalId tenantId := by
  have found : (rows.filter (ownedBy tenantId)).find?
        (fun row => row.id = approvalId && row.tenantId = tenantId) =
      rows.find? fun row => row.id = approvalId && row.tenantId = tenantId := by
    rw [List.find?_filter]
    congr 1
    funext row
    by_cases own : row.tenantId = tenantId <;> simp [ownedBy, own]
  simp only [getForTenant, found]

/-- A condition on the id finds the same row however the table is kept. -/
theorem find_perm (unique : UniqueIds left) (same : left.Perm right) (approvalId : String)
    (condition : ApprovalRequest → Bool) :
    left.find? (fun row => row.id = approvalId && condition row) =
      right.find? fun row => row.id = approvalId && condition row := by
  rw [← List.head?_filter, ← List.head?_filter]
  have selected := same.filter fun row => decide (row.id = approvalId) && condition row
  have single : ∀ row ∈ left.filter (fun row => decide (row.id = approvalId) && condition row),
      ∀ other ∈ left.filter (fun row => decide (row.id = approvalId) && condition row),
        row = other := by
    intro row rowMem other otherMem
    simp only [List.mem_filter, Bool.and_eq_true, decide_eq_true_eq] at rowMem otherMem
    exact Keyset.Apart.eq unique rowMem.1 otherMem.1 (rowMem.2.1.trans otherMem.2.1.symm)
  rw [List.Perm.eq_of_pairwise (fun row other rowMem otherMem _ _ =>
      single row rowMem other (selected.mem_iff.mpr otherMem))
    (List.pairwise_of_forall fun _ _ => trivial) (List.pairwise_of_forall fun _ _ => trivial)
    selected]


/-! ## The decision -/

theorem get_erased (unique : UniqueIds rows) (approvalId : String) :
    ApprovalRepository.get (rows.filter (ownedBy tenantId)) approvalId =
      (ApprovalRepository.get rows approvalId).filter (ownedBy tenantId) := by
  cases found : ApprovalRepository.get rows approvalId with
  | none =>
      cases inside : ApprovalRepository.get (rows.filter (ownedBy tenantId)) approvalId with
      | none => rfl
      | some row =>
          obtain ⟨member, isId⟩ := mem_of_get inside
          exact absurd isId (not_mem_of_get_none found (List.mem_filter.mp member).1)
  | some row =>
      obtain ⟨member, isId⟩ := mem_of_get found
      cases own : ownedBy tenantId row with
      | true =>
          have kept : row ∈ rows.filter (ownedBy tenantId) := List.mem_filter.mpr ⟨member, own⟩
          rw [← isId, get_of_mem (unique.filter _) kept, Option.filter_some, own]
          rfl
      | false =>
          cases inside : ApprovalRepository.get (rows.filter (ownedBy tenantId)) approvalId with
          | none =>
              rw [Option.filter_some, own]
              rfl
          | some other =>
              obtain ⟨otherMem, otherId⟩ := mem_of_get inside
              obtain ⟨otherMem, otherOwn⟩ := List.mem_filter.mp otherMem
              have same := Keyset.Apart.eq unique otherMem member (otherId.trans isId.symm)
              rw [same, own] at otherOwn
              cases otherOwn

/-- The refusal of an approval of another tenant is the refusal of an unknown id. -/
theorem decide_erased (unique : UniqueIds rows) (request : DecideRequest)
    (now matchedAt rereadAt : Int) :
    (ApprovalRepository.decide (rows.filter (ownedBy request.tenantId)) request now matchedAt
        rereadAt).1 =
      (ApprovalRepository.decide rows request now matchedAt rereadAt).1 := by
  rw [decide_answer (unique.filter _), decide_answer unique, get_erased unique]
  cases ApprovalRepository.get rows request.approvalId with
  | none => rfl
  | some row =>
      rw [Option.filter_some]
      by_cases own : row.tenantId = request.tenantId
      · simp [ownedBy, own]
      · simp [ownedBy, own, isDecidable]

theorem decide_perm (unique : UniqueIds left) (same : left.Perm right) (request : DecideRequest)
    (now matchedAt rereadAt : Int) :
    (ApprovalRepository.decide left request now matchedAt rereadAt).1 =
      (ApprovalRepository.decide right request now matchedAt rereadAt).1 := by
  have found := find_perm unique same request.approvalId fun _ => true
  simp only [Bool.and_true] at found
  have uniqueRight : UniqueIds right := same.pairwise unique fun apart => apart.symm
  rw [decide_answer unique, decide_answer uniqueRight, ApprovalRepository.get,
    ApprovalRepository.get, found]

/-! ## One call -/

section Call

variable (collation : Collation) (tenantId : String) (call : TenantCall)

/-- What a call makes of each row. -/
theorem answer_rows : ∃ change : ApprovalRequest → ApprovalRequest,
    (∀ rows, (call.answer collation tenantId rows).2 = rows.map change) ∧
      (∀ row, (change row).id = row.id) ∧ (∀ row, (change row).tenantId = row.tenantId) ∧
      ∀ row, row.tenantId ≠ tenantId → change row = row := by
  cases call with
  | decide approvalId decision decidedBy now matchedAt rereadAt =>
      refine ⟨decideRow ⟨approvalId, decision, decidedBy, tenantId⟩ now matchedAt, ?_, ?_, ?_, ?_⟩
      · intro rows
        exact decide_rows _ now matchedAt rereadAt
      · exact decide_row_id _ now matchedAt
      · exact decide_row_tenant_id _ now matchedAt
      · intro row other
        exact decide_row_of_other_tenant _ now matchedAt other
  | getForTenant approvalId =>
      exact ⟨id, fun rows => (List.map_id rows).symm, fun _ => rfl, fun _ => rfl, fun _ _ => rfl⟩
  | listForTenant limit query now =>
      exact ⟨id, fun rows => (List.map_id rows).symm, fun _ => rfl, fun _ => rfl, fun _ _ => rfl⟩

theorem answer_unique (unique : UniqueIds rows) :
    UniqueIds (call.answer collation tenantId rows).2 := by
  obtain ⟨change, rows_eq, keepsId, _, _⟩ := answer_rows collation tenantId call
  rw [rows_eq, UniqueIds, Keyset.Apart, List.pairwise_map]
  simp only [keepsId]
  exact unique

theorem answer_foreign (rows : List ApprovalRequest) :
    (call.answer collation tenantId rows).2.filter (foreignTo tenantId) =
      rows.filter (foreignTo tenantId) := by
  obtain ⟨change, rows_eq, _, keepsTenant, keepsForeign⟩ :=
    answer_rows collation tenantId call
  rw [rows_eq, List.filter_map]
  have sameTest : foreignTo tenantId ∘ change = foreignTo tenantId := by
    funext row
    simp only [Function.comp_apply, foreignTo, keepsTenant]
  rw [sameTest]
  conv_rhs => rw [← List.map_id (rows.filter (foreignTo tenantId))]
  apply List.map_congr_left
  intro row member
  exact keepsForeign row (by simpa [foreignTo] using (List.mem_filter.mp member).2)

theorem answer_erased (unique : UniqueIds rows) :
    (call.answer collation tenantId (rows.filter (ownedBy tenantId))).1 =
        (call.answer collation tenantId rows).1 ∧
      (call.answer collation tenantId (rows.filter (ownedBy tenantId))).2 =
        (call.answer collation tenantId rows).2.filter (ownedBy tenantId) := by
  constructor
  · cases call with
    | decide approvalId decision decidedBy now matchedAt rereadAt =>
        exact congrArg TenantAnswer.approval (decide_erased unique
          ⟨approvalId, decision, decidedBy, tenantId⟩ now matchedAt rereadAt)
    | getForTenant approvalId => exact congrArg TenantAnswer.approval (get_for_tenant_erased _)
    | listForTenant limit query now =>
        exact congrArg TenantAnswer.page (list_erased limit query now)
  · obtain ⟨change, rows_eq, _, keepsTenant, _⟩ :=
      answer_rows collation tenantId call
    have sameTest : ownedBy tenantId ∘ change = ownedBy tenantId := by
      funext row
      simp only [Function.comp_apply, ownedBy, keepsTenant]
    rw [rows_eq, rows_eq, List.filter_map, sameTest]

theorem answer_perm (unique : UniqueIds left) (same : left.Perm right) :
    (call.answer collation tenantId left).1 = (call.answer collation tenantId right).1 ∧
      (call.answer collation tenantId left).2.Perm (call.answer collation tenantId right).2 := by
  constructor
  · cases call with
    | decide approvalId decision decidedBy now matchedAt rereadAt =>
        exact congrArg TenantAnswer.approval (decide_perm unique same _ now matchedAt rereadAt)
    | getForTenant approvalId =>
        have found := find_perm unique same approvalId fun row => row.tenantId = tenantId
        simp only [TenantCall.answer, getForTenant, found]
    | listForTenant limit query now =>
        exact congrArg TenantAnswer.page (list_perm unique same limit query now)
  · obtain ⟨change, rows_eq, _⟩ :=
      answer_rows collation tenantId call
    rw [rows_eq, rows_eq]
    exact same.map change

end Call

/-! ## Sequences of calls -/

section Calls

variable (collation : Collation) (tenantId : String) (calls : List TenantCall)

theorem answers_foreign (rows : List ApprovalRequest) :
    (TenantCall.answers collation tenantId rows calls).2.filter (foreignTo tenantId) =
      rows.filter (foreignTo tenantId) := by
  induction calls generalizing rows with
  | nil => rfl
  | cons call calls ih => exact (ih _).trans (answer_foreign collation tenantId call rows)

theorem answers_erased (unique : UniqueIds rows) :
    (TenantCall.answers collation tenantId (rows.filter (ownedBy tenantId)) calls).1 =
        (TenantCall.answers collation tenantId rows calls).1 ∧
      (TenantCall.answers collation tenantId (rows.filter (ownedBy tenantId)) calls).2 =
        (TenantCall.answers collation tenantId rows calls).2.filter (ownedBy tenantId) := by
  induction calls generalizing rows with
  | nil => exact ⟨rfl, rfl⟩
  | cons call calls ih =>
      obtain ⟨sameAnswer, sameRows⟩ := answer_erased collation tenantId call unique
      obtain ⟨sameRest, sameFinal⟩ := ih (answer_unique collation tenantId call unique)
      simp only [TenantCall.answers, sameAnswer, sameRows]
      exact ⟨congrArg _ sameRest, sameFinal⟩

theorem answers_perm (unique : UniqueIds left) (same : left.Perm right) :
    (TenantCall.answers collation tenantId left calls).1 =
        (TenantCall.answers collation tenantId right calls).1 ∧
      (TenantCall.answers collation tenantId left calls).2.Perm
        (TenantCall.answers collation tenantId right calls).2 := by
  induction calls generalizing left right with
  | nil => exact ⟨rfl, same⟩
  | cons call calls ih =>
      obtain ⟨sameAnswer, sameRows⟩ := answer_perm collation tenantId call unique same
      obtain ⟨sameRest, sameFinal⟩ :=
        ih (answer_unique collation tenantId call unique) sameRows
      simp only [TenantCall.answers, sameAnswer]
      exact ⟨congrArg _ sameRest, sameFinal⟩

end Calls

/-- Two tables with the same rows of the tenant give the same answers and keep the same rows of the
tenant. The rows of other tenants stay, and no answer depends on whether they exist. -/
theorem tenant_isolation (collation : Collation) (tenantId : String)
    (left right : List ApprovalRequest) (leftUnique : UniqueIds left)
    (rightUnique : UniqueIds right)
    (same : (left.filter (ownedBy tenantId)).Perm (right.filter (ownedBy tenantId)))
    (calls : List TenantCall) :
    (TenantCall.answers collation tenantId left calls).1 =
        (TenantCall.answers collation tenantId right calls).1 ∧
      ((TenantCall.answers collation tenantId left calls).2.filter (ownedBy tenantId)).Perm
        ((TenantCall.answers collation tenantId right calls).2.filter (ownedBy tenantId)) ∧
      (TenantCall.answers collation tenantId left calls).2.filter (foreignTo tenantId) =
        left.filter (foreignTo tenantId) ∧
      (TenantCall.answers collation tenantId right calls).2.filter (foreignTo tenantId) =
        right.filter (foreignTo tenantId) ∧
      (TenantCall.answers collation tenantId left calls).1 =
        (TenantCall.answers collation tenantId (left.filter (ownedBy tenantId)) calls).1 := by
  obtain ⟨leftAnswers, leftRows⟩ := answers_erased collation tenantId calls leftUnique
  obtain ⟨rightAnswers, rightRows⟩ := answers_erased collation tenantId calls rightUnique
  obtain ⟨sameAnswers, sameRows⟩ :=
    answers_perm collation tenantId calls (leftUnique.filter (ownedBy tenantId)) same
  refine ⟨?_, ?_, answers_foreign collation tenantId calls left,
    answers_foreign collation tenantId calls right, leftAnswers.symm⟩
  · rw [← leftAnswers, sameAnswers, rightAnswers]
  · rw [← leftRows, ← rightRows]
    exact sameRows

namespace Recorded

/-- A row of another tenant that has been decided. -/
def foreignRow : ApprovalRequest :=
  { approvedRow with id := (uuid 7).text, tenantId := "t-2", grant := none }

/-- The calls name a row of the tenant, a row of another tenant and no row at all. -/
def tenantCalls : List TenantCall :=
  [.decide (uuid 7).text "approve" "approver-1" 0 0 0, .getForTenant (uuid 7).text,
    .getForTenant (uuid 9).text, .decide (uuid 1).text "approve" "approver-1" 0 0 0,
    .listForTenant 100 ⟨none, none, none⟩ 0]

end Recorded

theorem tenant_isolation_foreign_row :
    (TenantCall.answers .byCodePoint "t-1" [Recorded.grantRow, Recorded.foreignRow]
        Recorded.tenantCalls).1 =
      (TenantCall.answers .byCodePoint "t-1" [Recorded.grantRow] Recorded.tenantCalls).1 := by
  have unique : UniqueIds [Recorded.grantRow, Recorded.foreignRow] := by
    unfold UniqueIds Keyset.Apart
    decide +kernel
  have uniqueAlone : UniqueIds [Recorded.grantRow] := List.pairwise_singleton _ _
  exact (tenant_isolation .byCodePoint "t-1" [Recorded.grantRow, Recorded.foreignRow]
    [Recorded.grantRow] unique uniqueAlone (by decide +kernel) Recorded.tenantCalls).1

end AgentHarness.Approval
