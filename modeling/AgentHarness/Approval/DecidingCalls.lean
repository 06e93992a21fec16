import AgentHarness.Approval.OneDecision

/-!
# The call behind a decided row

No structured row leaves `PENDING` but by the update of a `decide` call that has won, so an issued
execution id has one approval behind it.
-/

namespace AgentHarness.Approval

open AgentHarness.Library AgentHarness.Conversations AgentHarness.Executions ApprovalRequest

set_option autoImplicit false

/-- The call has won, and the row keeps its decision. -/
def DecidedBy (world : World) (row : ApprovalRequest) (caller : Nat) : Prop :=
  ∃ call applied, Decides world caller call ∧ call.applied = some applied ∧
    DecidedAs call.request applied row

/-- Every decided grant has a deciding call. -/
def Explained (world : World) : Prop :=
  ∀ row ∈ world.rows, row.structured = true → row.status ≠ .pending →
    ∃ caller, DecidedBy world row caller

variable {service : ExecutionService} {world next : World}

/-- A call of `prepare` stays a call for the same request. -/
theorem prepares_later {label : Label} {index : Nat} {request : PrepareRequest}
    {phase : PreparePhase} (stepped : (approvals service).step world label = some next)
    (here : world.calls[index]? = some (.prepare request phase)) :
    ∃ later, next.calls[index]? = some (.prepare request later) := by
  rcases call_later stepped here with kept | ⟨call, present, moved⟩
  · exact ⟨phase, kept⟩
  · cases moved with
    | prepare input request phase after table locks ran => exact ⟨after, present⟩
    | crash before after table stops rolledBack =>
        rcases crashed_cases stops with ⟨_, _, isCall, rfl⟩ | ⟨_, isDecide, _⟩
        · cases isCall
          exact ⟨.crashed, present⟩
        · cases isDecide

/-- A winner stays one. -/
theorem DecidedBy.later {label : Label} {old new : ApprovalRequest} {caller : Nat}
    (sound : Sound service world) (stepped : (approvals service).step world label = some next)
    (decided : DecidedBy world old caller) (advances : Advances old new) :
    DecidedBy next new caller := by
  obtain ⟨call, applied, here, isApplied, decidedAs⟩ := decided
  rcases call_later stepped here with kept | ⟨after, present, moved⟩
  · exact ⟨call, applied, kept, isApplied, decidedAs.advances advances⟩
  · cases moved with
    | decide input call after table ran =>
        obtain ⟨sameRequest, sameApplied | ⟨decision, now, matchedAt, rowcount, phase, _⟩⟩ :=
          applied_by_step ran
        · refine ⟨after, applied, present, sameApplied.trans isApplied, ?_⟩
          rw [sameRequest]
          exact decidedAs.advances advances
        · -- an update that is not committed yet has not won
          have ok := (sound.calls caller _ here).1
          simp only [DecidePhaseOk, phase] at ok
          rw [ok.1] at isApplied
          cases isApplied
    | crash before after table stops rolledBack =>
        rcases crashed_cases stops with ⟨_, _, isPrepare, _⟩ | ⟨_, isCall, rfl⟩
        · cases isPrepare
        · cases isCall
          exact ⟨_, applied, present, isApplied, decidedAs.advances advances⟩

/-- A row that a `prepare` call commits was there with the same decision, or is pending. -/
theorem prepared_row_origin (sound : Sound service world) {caller : Nat} {request : PrepareRequest}
    {phase : PreparePhase} (here : world.calls[caller]? = some (.prepare request phase))
    {slot : Slot Nat ApprovalRequest} (member : slot ∈ world.table.slots) {row : ApprovalRequest}
    (written : slot.writer = some (caller, row)) (decided : row.status ≠ .pending) :
    ∃ old ∈ world.rows, Advances old row ∧ old.status ≠ .pending := by
  have holds := sound.holds here member written
  have committed : ∀ {old : ApprovalRequest}, slot.committed = some old → old ∈ world.rows :=
    fun isCommitted => (world.table.mem_committed_iff _).mpr ⟨slot, member, isCommitted⟩
  cases phase with
  | inserted wanted => exact absurd holds.2.2 decided
  | locked wanted locked grant =>
      obtain ⟨rfl, isCommitted | ⟨_, isPending⟩⟩ := holds
      · exact ⟨row, committed isCommitted, Advances.refl row, decided⟩
      · exact absurd isPending decided
  | judged judgement =>
      obtain ⟨rfl, isCommitted | ⟨_, isPending⟩⟩ := holds
      · exact ⟨_, committed isCommitted, Advances.refl _, decided⟩
      · exact absurd isPending decided
  | issued judgement =>
      obtain ⟨isCommitted, isApproved, rfl⟩ := holds
      refine ⟨judgement.row, committed isCommitted, consume_advances _ isApproved, ?_⟩
      rw [isApproved]
      exact nofun
  | _ => exact holds.elim

theorem explained_step {label : Label} (sound : Sound service world) (explained : Explained world)
    (stepped : (approvals service).step world label = some next) : Explained next := by
  intro row member isStructured decided
  have kept : ∀ old ∈ world.rows, Advances old row → old.status ≠ .pending →
      ∃ caller, DecidedBy next row caller := by
    intro old oldMem advances oldDecided
    have oldStructured : old.structured = true := by
      rw [structured, ← advances.grant]
      exact isStructured
    obtain ⟨caller, decidedBy⟩ := explained old oldMem oldStructured oldDecided
    exact ⟨caller, decidedBy.later sound stepped advances⟩
  have stays : row ∈ world.rows → ∃ caller, DecidedBy next row caller :=
    fun present => kept row present (Advances.refl row) decided
  cases world_step_of_step service world next label stepped with
  | prepareStatement caller input request phase after table locks here ran =>
      rcases prepare_step_rows ran with same | isCommit
      · exact stays (same ▸ member)
      · subst isCommit
        rcases RowStore.mem_committed_commit member with present | ⟨slot, slotMem, written⟩
        · exact stays present
        · obtain ⟨old, oldMem, advances, oldDecided⟩ :=
            prepared_row_origin sound here slotMem written decided
          exact kept old oldMem advances oldDecided
  | decideStatement caller input call after table here ran =>
      obtain ⟨request, phase, applied, missing⟩ := call
      cases ran with
      | update decision now rows table storable updated =>
          have same : table.committed = world.rows := RowStore.update_committed updated
          exact stays (same ▸ member)
      | lose decision now matchedAt =>
          rcases RowStore.mem_committed_commit member with present | ⟨slot, slotMem, written⟩
          · exact stays present
          · exact absurd rfl (sound.holds here slotMem written).1
      | win decision now matchedAt rowcount changed =>
          rcases RowStore.mem_committed_commit member with present | ⟨slot, slotMem, written⟩
          · exact stays present
          · have inRange := (List.getElem?_eq_some_iff.mp here).1
            exact ⟨caller, _, _, List.getElem?_set_self inRange, rfl,
              won_row sound here slotMem written⟩
      | _ => exact stays member
  | crash caller call after here stops =>
      have same : (world.table.rollback caller).committed = world.rows :=
        RowStore.rollback_committed world.table caller
      exact stays (same ▸ member)
  | _ => exact stays member

/-! ## Approved grants -/

theorem explained_start (conversations : List Conversation) {legacy : List ApprovalRequest}
    (isLegacy : Legacy legacy) (clock : Int) :
    Explained (World.start conversations legacy clock) := by
  intro row member isStructured
  have committed : (RowStore.ofRows legacy : ApprovalTable).committed = legacy := by
    simp [RowStore.committed, RowStore.ofRows]
  rw [World.rows, World.start, committed] at member
  rw [structured, isLegacy.unstructured row member] at isStructured
  cases isStructured

/-- What holds of the deciding calls in every reachable state. -/
structure Governed (service : ExecutionService) (world : World) : Prop where
  sound : Sound service world
  one : OneWinner world
  explained : Explained world

theorem governed_start (conversations : List Conversation) {legacy : List ApprovalRequest}
    (isLegacy : Legacy legacy) (clock : Int) :
    Governed service (World.start conversations legacy clock) where
  sound := sound_start conversations isLegacy clock
  one := by
    intro caller other call otherCall present
    simp [Decides, World.start] at present
  explained := explained_start conversations isLegacy clock

theorem governed_step {label : Label} (governed : Governed service world)
    (stepped : (approvals service).step world label = some next) : Governed service next where
  sound := sound_step governed.sound stepped
  one := one_winner_step governed.sound governed.one stepped
  explained := explained_step governed.sound governed.explained stepped

/-- The call has approved the row, for its tenant and before it expired, and no other call has
decided it. -/
structure OnlyApproval (world : World) (row : ApprovalRequest) (grant : ExecutionGrant)
    (caller : Nat) (call : DecideCall) (applied : Applied) : Prop where
  here : Decides world caller call
  won : call.applied = some applied
  approvalId : call.request.approvalId = row.id
  approves : applied.decision = .approve
  decision : call.request.decision = "approve"
  tenantId : call.request.tenantId = row.tenantId
  inTime : applied.matchedAt < grant.expiresAt
  only : ∀ other otherCall, Decides world other otherCall → otherCall.applied.isSome = true →
    otherCall.request.approvalId = row.id → other = caller

theorem Governed.approval (governed : Governed service world) {row : ApprovalRequest}
    {grant : ExecutionGrant} (member : row ∈ world.rows) (isGrant : row.grant = some grant)
    (isApproved : row.status = .approved ∨ row.status = .consumed) :
    ∃ caller call applied, OnlyApproval world row grant caller call applied := by
  have decided : row.status ≠ .pending := by
    rcases isApproved with status | status <;> rw [status] <;> exact nofun
  have isStructured : row.structured = true := Option.isSome_iff_exists.mpr ⟨grant, isGrant⟩
  obtain ⟨caller, call, applied, here, isApplied, decidedAs⟩ :=
    governed.explained row member isStructured decided
  have approves : applied.decision = .approve := by
    have leads := decidedAs.status
    cases decision : applied.decision with
    | approve => rfl
    | reject =>
        rw [decision] at leads
        rcases isApproved with status | status <;> rw [status] at leads <;> cases leads
  refine ⟨caller, call, applied, here, isApplied, decidedAs.id.symm, approves, ?_,
    decidedAs.tenantId.symm, decidedAs.inTime grant isGrant, ?_⟩
  · have known := Decision.of_text_eq_some decidedAs.known
    rw [approves] at known
    exact known
  · intro other otherCall present won same
    exact governed.one other caller otherCall call present here won
      (Option.isSome_iff_exists.mpr ⟨applied, isApplied⟩) (same.trans decidedAs.id)

end AgentHarness.Approval
