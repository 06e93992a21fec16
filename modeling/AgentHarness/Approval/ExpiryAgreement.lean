import AgentHarness.Approval.ApprovalPages
import AgentHarness.Approval.StoredRows

/-!
# Three tests of one expiry

`decide`, the pending page and `prepare_execution` each compare the expiry of a grant with the
database clock, the first two by `>`, the last by `<=`. Here they look at one row at one instant.
-/

namespace AgentHarness.Approval

open AgentHarness.Library AgentHarness.Conversations AgentHarness.Executions ApprovalRequest

set_option autoImplicit false

/-- The arguments with which `prepare` asks for the action of the row once more. -/
def askedAgain (service : ExecutionService) (row : ApprovalRequest) (grant : ExecutionGrant)
    (ttlSeconds : Int) : PrepareExecution where
  conversationId := row.conversationId
  userId := row.requesterUserId
  tenantId := row.tenantId
  approvalKey := service.digest (row.boundAction grant).canonical
  operation := grant.operation
  arguments := grant.operationArguments
  ttlSeconds := ttlSeconds

/-- The decision of an approver of the tenant. -/
def decideRequest (row : ApprovalRequest) (decision : Decision) (decidedBy : String) :
    DecideRequest :=
  ⟨row.id, decision.text, decidedBy, row.tenantId⟩

namespace ApprovalRepository

/-- `list_for_tenant` without its limit. -/
def unboundedListing (collation : Collation) (rows : List ApprovalRequest) (tenantId : String)
    (query : ListQuery) (now : Int) : List ApprovalRequest :=
  Keyset.newestFirst collation.positionOf
    ((rows.filter fun row => row.tenantId = tenantId && query.selects now row).filter fun row =>
      (query.before.map fun cursor => collation.position cursor.1 cursor.2).all fun cursor =>
        collation.positionOf row < cursor)

/-- A page is the beginning of the listing. -/
theorem list_for_tenant_page (collation : Collation) (rows : List ApprovalRequest)
    {tenantId : String} {limit : Int} {query : ListQuery} (positive : 1 ≤ limit)
    (fits : limit ≤ 201) (storable : plain tenantId = true) (queryStorable : query.storable = true)
    (now : Int) :
    listForTenant collation rows tenantId limit query now =
      .ok ((unboundedListing collation rows tenantId query now).take limit.toNat) := by
  simp only [listForTenant, positive, fits, storable, queryStorable]
  rfl

end ApprovalRepository

/-- Pending and not filtered any further. -/
def pendingQuery : ListQuery := ⟨some "PENDING", none, none⟩

theorem mem_pending_listing (collation : Collation) {rows : List ApprovalRequest}
    {row : ApprovalRequest} (member : row ∈ rows) {grant : ExecutionGrant}
    (isGrant : row.grant = some grant) (now : Int) :
    row ∈ ApprovalRepository.unboundedListing collation rows row.tenantId pendingQuery now ↔
      row.status = .pending ∧ now < grant.expiresAt := by
  have isPending : row.status.text = "PENDING" ↔ row.status = .pending := by
    cases row.status <;> decide
  rw [ApprovalRepository.unboundedListing, (Keyset.newest_first_perm _).mem_iff]
  simp [pendingQuery, ListQuery.selects, member, isGrant, isPending]

/-! ## `prepare_execution` for the action of a row -/

section Again

variable {service : ExecutionService} {store : GrantStore} {row : ApprovalRequest}
  {grant : ExecutionGrant}

theorem asked_again_is_grant_of (lawful : GrantRow service store.conversations store.clock row)
    (isGrant : row.grant = some grant) (ttlSeconds : Int) :
    isGrantOf (askedAgain service row grant ttlSeconds) row = true := by
  rw [is_grant_of_eq_true_iff]
  exact ⟨rfl, (lawful.bound grant isGrant).approvalKey, by simp [structured, isGrant], rfl, rfl⟩

theorem fits_uuid_text (uuid : Uuid) : fits 36 uuid.text = true := by
  simp [fits, uuid.length_text, plain_uuid_text]

/-- The insert of the action would be taken by the columns, as it was the first time. -/
theorem asked_again_fits (lawful : GrantRow service store.conversations store.clock row)
    (filed : Filed row) (isGrant : row.grant = some grant) (ttlSeconds : Int)
    (id executionId : Uuid) (now : Int) :
    (newGrant (askedAgain service row grant ttlSeconds) id.text executionId.text
      now).fitsColumns = true := by
  have columns := filed.fits
  have message := filed.message grant isGrant
  have key := (lawful.bound grant isGrant).approvalKey
  have method : fits 128 "business/execution" = true := by decide
  simp only [fitsColumns, isGrant, message, key, Option.all_some, Bool.and_eq_true] at columns
  simp only [fitsColumns, newGrant, askedAgain, fits_uuid_text, method, Option.all_none,
    Option.all_some, columns, Bool.and_self]

/-- The action is on file, so nothing is inserted and the row answers. -/
theorem prepare_again (consistent : store.table.Consistent conflict)
    (lawful : GrantRow service store.conversations store.clock row) (filed : Filed row)
    (member : row ∈ store.rows) (isGrant : row.grant = some grant) (ttlSeconds : Int)
    (id executionId : Uuid) (now later : Int) :
    (ApprovalRepository.prepareExecution store.rows (askedAgain service row grant ttlSeconds)
        id.text executionId.text now later).1 = .ok (row.executionDecision grant later) := by
  have own := asked_again_is_grant_of lawful isGrant ttlSeconds
  have fitting := asked_again_fits lawful filed isGrant ttlSeconds id executionId now
  have clash : conflict (newGrant (askedAgain service row grant ttlSeconds) id.text
      executionId.text now) row = true :=
    grants_conflict (new_grant_is_grant_of _ _ _ _) own rfl rfl
  have kept : ApprovalRepository.insertNew store.rows (newGrant
      (askedAgain service row grant ttlSeconds) id.text executionId.text now) = store.rows := by
    rw [ApprovalRepository.insertNew, if_pos (List.any_eq_true.mpr ⟨row, member, clash⟩)]
  have one : store.rows.filter (isGrantOf (askedAgain service row grant ttlSeconds)) = [row] := by
    apply ApprovalRepository.clear_only (RowStore.committed_apart consistent) member own
    intro other _ isOther
    exact grants_conflict isOther own rfl rfl
  simp only [ApprovalRepository.prepareExecution, fitting, Bool.not_true, Bool.false_eq_true,
    if_false, kept, one, isGrant]

end Again

/-! ## The three tests -/

theorem Filed.storable {row : ApprovalRequest} (filed : Filed row) :
    plain row.id = true ∧ plain row.tenantId = true := by
  have columns := filed.fits
  simp only [fitsColumns, Approval.fits, Bool.and_eq_true] at columns
  tauto

/-- `decide` by an approver of the tenant succeeds on a pending row that is in time. -/
theorem decide_ok_iff {rows : List ApprovalRequest} {row : ApprovalRequest}
    {grant : ExecutionGrant} (unique : ApprovalRepository.UniqueIds rows) (filed : Filed row)
    (member : row ∈ rows) (isGrant : row.grant = some grant) (decision : Decision)
    {decidedBy : String} (known : fits 128 decidedBy = true) (now matchedAt rereadAt : Int) :
    (ApprovalRepository.decide rows (decideRequest row decision decidedBy) now matchedAt
        rereadAt).1.isOk = true ↔ row.status = .pending ∧ matchedAt < grant.expiresAt := by
  obtain ⟨plainId, plainTenant⟩ := filed.storable
  have isKnown : Decision.ofText decision.text = some decision := by cases decision <;> rfl
  have storable : (decideRequest row decision decidedBy).storable = true := by
    simp [DecideRequest.storable, decideRequest, known, plainId, plainTenant]
  have found : ApprovalRepository.get rows (decideRequest row decision decidedBy).approvalId =
      some row := ApprovalRepository.get_of_mem unique member
  have decidable : isDecidable (decideRequest row decision decidedBy) matchedAt row = true ↔
      row.status = .pending ∧ matchedAt < grant.expiresAt := by
    simp [is_decidable_eq_true_iff, decideRequest, isGrant]
  rw [ApprovalRepository.decide_answer unique, ← decidable]
  simp only [show (decideRequest row decision decidedBy).decision = decision.text from rfl, isKnown,
    storable, found, Bool.not_true, Bool.false_eq_true, if_false]
  split_ifs with isDecided <;> simp [Except.isOk, Except.toBool, isDecided]

/-- For one row at one instant: the call that decides it, the page that lists it and the call that
asks for its action again agree on the expiry, at the very instant of it as well. The approver's
name is one the column takes; with another one `decide` fails whatever the time. -/
theorem expiry_tests_agree (service : ExecutionService) (collation : Collation)
    (conversations : List Conversation) (clock : Int) (labels : List GrantLabel)
    (final : GrantStore)
    (reached : (grantStore service).run (.start conversations clock) labels = some final)
    (row : ApprovalRequest) (member : row ∈ final.rows) (grant : ExecutionGrant)
    (isGrant : row.grant = some grant) (ttlSeconds : Int) (id executionId : Uuid)
    (began now : Int) :
    let listing := ApprovalRepository.unboundedListing collation final.rows row.tenantId
      pendingQuery now
    let answered := (ApprovalRepository.prepareExecution final.rows
      (askedAgain service row grant ttlSeconds) id.text executionId.text began now).1.map
        ExecutionDecision.status
    (∀ limit, 1 ≤ limit → limit ≤ 201 →
      ApprovalRepository.listForTenant collation final.rows row.tenantId limit pendingQuery now =
        .ok (listing.take limit.toNat)) ∧
    (∀ decision decidedBy hostNow hostReread, fits 128 decidedBy = true →
      ((ApprovalRepository.decide final.rows (decideRequest row decision decidedBy) hostNow now
        hostReread).1.isOk = true ↔ row ∈ listing)) ∧
    (row ∈ listing ↔ answered = .ok "PENDING") ∧
    (answered = .ok "EXPIRED" ↔ grant.expiresAt ≤ now) ∧
    ¬ (row ∈ listing ∧ answered = .ok "EXPIRED") ∧
    (row ∈ listing ∨ row.status ≠ .pending ∨ answered = .ok "EXPIRED") := by
  intro listing answered
  have lawful := (grantStore service).run_invariant (Lawful service)
    (fun store label next lawful stepped => lawful_step lawful stepped)
    (lawful_start service conversations clock) reached
  obtain ⟨slot, slotMem, isCommitted⟩ := (RowStore.mem_committed_iff ..).mp member
  have isVersion := Slot.committed_mem_versions isCommitted
  have filed := stored_run filed_fixed reached slot slotMem row isVersion
  have listed : row ∈ listing ↔ row.status = .pending ∧ now < grant.expiresAt :=
    mem_pending_listing collation member isGrant now
  have judged : answered = .ok (judge row grant now) := by
    change ((ApprovalRepository.prepareExecution final.rows _ _ _ _ _).1.map _) = _
    rw [prepare_again lawful.consistent (lawful.rows slot slotMem row isVersion) filed member
      isGrant]
    rfl
  have pending : answered = .ok "PENDING" ↔ row.status = .pending ∧ now < grant.expiresAt := by
    rw [judged, Except.ok.injEq, judge_eq_pending_iff]
  have expired : answered = .ok "EXPIRED" ↔ grant.expiresAt ≤ now := by
    rw [judged, Except.ok.injEq, judge_eq_expired_iff]
  refine ⟨?_, ?_, listed.trans pending.symm, expired, ?_, ?_⟩
  · intro limit positive fits
    exact ApprovalRepository.list_for_tenant_page collation final.rows positive fits filed.storable.2
      (by decide) now
  · intro decision decidedBy hostNow hostReread known
    rw [listed]
    exact decide_ok_iff lawful.unique_ids filed member isGrant decision known _ _ _
  · rintro ⟨isListed, isExpired⟩
    exact absurd (expired.mp isExpired) (not_le.mpr (listed.mp isListed).2)
  · by_cases isPending : row.status = .pending
    · rcases lt_or_ge now grant.expiresAt with inTime | late
      · exact .inl (listed.mpr ⟨isPending, inTime⟩)
      · exact .inr (.inr (expired.mpr late))
    · exact .inr (.inl isPending)

namespace Recorded

/-- A grant is asked for and stays pending. -/
def grantAsked : List GrantLabel :=
  [.createConversation conversation, .call (.prepare cancel), .statement 0 .nothing,
    .statement 0 .nothing, .statement 0 (.drawn (uuid 1) (uuid 2)), .statement 0 .nothing,
    .statement 0 .nothing, .statement 0 .nothing]

theorem grant_asked_rows :
    ((grantStore orderService).run (.start [] 0) grantAsked).map GrantStore.rows =
      some [grantRow] := by
  decide +kernel

end Recorded

/-- At the instant of its expiry the grant is expired, and not approvable. -/
theorem expiry_tests_agree_at_expiry :
    ∃ final, (grantStore Recorded.orderService).run (.start [] 0) Recorded.grantAsked = some final ∧
      (ApprovalRepository.prepareExecution final.rows
        (askedAgain Recorded.orderService Recorded.grantRow Recorded.grant 86400)
        (Recorded.uuid 3).text (Recorded.uuid 4).text 86400000000 86400000000).1.map
          ExecutionDecision.status = .ok "EXPIRED" ∧
      (ApprovalRepository.decide final.rows (decideRequest Recorded.grantRow .approve "approver-1")
        0 86400000000 0).1.isOk ≠ true := by
  obtain ⟨final, reached, rows⟩ := Option.map_eq_some_iff.mp Recorded.grant_asked_rows
  have member : Recorded.grantRow ∈ final.rows := by
    rw [rows]
    exact List.mem_singleton_self _
  have facts := expiry_tests_agree Recorded.orderService .byCodePoint [] 0 Recorded.grantAsked
    final reached Recorded.grantRow member Recorded.grant rfl 86400 (Recorded.uuid 3)
    (Recorded.uuid 4) 86400000000 86400000000
  obtain ⟨_, decides, _, expires, apart, _⟩ := facts
  have expired := expires.mpr (by decide)
  refine ⟨final, reached, expired, ?_⟩
  intro succeeded
  exact apart ⟨(decides .approve "approver-1" 0 0 (by decide)).mp succeeded, expired⟩

end AgentHarness.Approval
