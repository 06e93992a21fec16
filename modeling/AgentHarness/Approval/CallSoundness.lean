import AgentHarness.Approval.CallSteps

/-!
# What every call knows about the table

A version that is not committed is explained by the phase of the call that wrote it, and what a
call has seen or written stays true while other calls go on.
-/

namespace AgentHarness.Approval

open AgentHarness.Library AgentHarness.Conversations AgentHarness.Executions ApprovalRequest

set_option autoImplicit false

theorem discipline : RowStore.Discipline conflict Advances where
  symmetric := conflict_comm
  refl := Advances.refl
  narrows := fun _ _ other advances clash => advances.conflict other clash

/-! ## The parts of the invariant -/

def World.Owned (world : World) (conversationId tenantId userId : String) : Prop :=
  ∃ row, ConversationRepository.getOwned world.conversations conversationId tenantId userId =
    some row

structure Prepared (service : ExecutionService) (world : World) (request : PrepareRequest)
    (wanted : PrepareExecution) : Prop where
  authorized : service.authorize request = .ok wanted
  owned : world.Owned request.conversationId request.tenantId request.userId

theorem Prepared.asks {service : ExecutionService} {world : World} {request : PrepareRequest}
    {wanted : PrepareExecution} (prepared : Prepared service world request wanted) :
    service.Asks request wanted :=
  ExecutionService.authorize_asks prepared.authorized

/-- A structured row is the insert of a `prepare` call for a conversation of its requester. -/
def Minted (service : ExecutionService) (world : World) (row : ApprovalRequest) : Prop :=
  ∀ grant, row.grant = some grant → ∃ request wanted, ∃ id executionId : Uuid, ∃ now,
    Prepared service world request wanted ∧
      row.frozen = newGrant wanted id.text executionId.text now

structure Located (wanted : PrepareExecution) (row : ApprovalRequest) (grant : ExecutionGrant) :
    Prop where
  isGrantOf : isGrantOf wanted row = true
  grant : row.grant = some grant

/-- A winner's decision, as its row keeps it. -/
structure DecidedAs (request : DecideRequest) (applied : Applied) (row : ApprovalRequest) :
    Prop where
  id : row.id = request.approvalId
  tenantId : row.tenantId = request.tenantId
  known : Decision.ofText request.decision = some applied.decision
  decision : row.decision = some applied.decision.text
  decidedBy : row.decidedBy = some request.decidedBy
  decidedAt : row.decidedAt = some applied.decidedAt
  status : applied.decision.newStatus.leadsTo row.status = true
  inTime : ∀ grant, row.grant = some grant → applied.matchedAt < grant.expiresAt

theorem DecidedAs.not_pending {request : DecideRequest} {applied : Applied}
    {row : ApprovalRequest} (decided : DecidedAs request applied row) : row.status ≠ .pending := by
  intro isPending
  have leads := decided.status
  rw [isPending] at leads
  cases decision : applied.decision <;> rw [decision] at leads <;> cases leads

theorem DecidedAs.advances {request : DecideRequest} {applied : Applied}
    {old new : ApprovalRequest} (decided : DecidedAs request applied old)
    (advances : Advances old new) : DecidedAs request applied new := by
  obtain ⟨sameDecision, sameBy, sameAt⟩ := advances.decided decided.not_pending
  constructor
  · exact advances.id.trans decided.id
  · exact advances.tenant_id.trans decided.tenantId
  · exact decided.known
  · exact sameDecision.trans decided.decision
  · exact sameBy.trans decided.decidedBy
  · exact sameAt.trans decided.decidedAt
  · exact Status.leads_to_trans decided.status advances.status
  · intro grant isGrant
    exact decided.inTime grant (advances.grant.symm.trans isGrant)

/-- Why the call may hold a version of a row over the committed one. -/
def Holds : Call → Option ApprovalRequest → ApprovalRequest → Prop
  | .prepare _ (.inserted wanted), committed, version =>
      committed = none ∧ isGrantOf wanted version = true ∧ version.status = .pending
  | .prepare _ (.locked _ row _), committed, version
  | .prepare _ (.judged ⟨_, row, _, _⟩), committed, version =>
      version = row ∧ (committed = some row ∨ (committed = none ∧ row.status = .pending))
  | .prepare _ (.issued judgement), committed, version =>
      committed = some judgement.row ∧ judgement.row.status = .approved ∧
        version = consume judgement.now judgement.row
  | .decide ⟨request, .updated decision now matchedAt rowcount, _, _⟩, committed, version =>
      rowcount ≠ 0 ∧ Decision.ofText request.decision = some decision ∧
        ∃ old, committed = some old ∧ isDecidable request matchedAt old = true ∧
          version = applyDecision decision request.decidedBy now old
  | _, _, _ => False

def Writes (world : World) (caller : Nat) (row : ApprovalRequest) : Prop :=
  ∃ slot ∈ world.table.slots, slot.writer = some (caller, row)

def PrepareOk (service : ExecutionService) (world : World) (caller : Nat)
    (request : PrepareRequest) : PreparePhase → Prop
  | .called | .raised _ | .crashed => True
  | .authorized wanted | .began wanted _ | .inserted wanted =>
      Prepared service world request wanted
  | .locked wanted row grant =>
      Prepared service world request wanted ∧ Located wanted row grant ∧ Writes world caller row
  | .judged judgement =>
      Prepared service world request judgement.wanted ∧
        Located judgement.wanted judgement.row judgement.grant ∧ judgement.now ≤ world.clock ∧
        Writes world caller judgement.row
  | .issued judgement =>
      Prepared service world request judgement.wanted ∧
        Located judgement.wanted judgement.row judgement.grant ∧ judgement.now ≤ world.clock ∧
        judgement.issues = true ∧ Writes world caller (consume judgement.now judgement.row)
  | .returned judgement =>
      Prepared service world request judgement.wanted ∧
        Located judgement.wanted judgement.row judgement.grant ∧ judgement.now ≤ world.clock ∧
        ∃ current ∈ world.rows, Advances judgement.row current ∧
          (judgement.issues = true → current.status = .consumed)

def DecidePhaseOk (world : World) (caller : Nat) (call : DecideCall) : Prop :=
  match call.phase with
  | .called | .lost | .reread _ | .raised _ => call.applied = none
  | .started decision _ =>
      call.applied = none ∧ Decision.ofText call.request.decision = some decision
  | .updated _ _ matchedAt rowcount =>
      call.applied = none ∧ matchedAt ≤ world.clock ∧
        (rowcount ≠ 0 → ∃ row, Writes world caller row)
  | .won => call.applied.isSome = true
  | .returned row => ∃ applied, call.applied = some applied ∧ DecidedAs call.request applied row
  | .crashed => True

def CallOk (service : ExecutionService) (world : World) (caller : Nat) : Call → Prop
  | .prepare request phase => PrepareOk service world caller request phase
  | .decide call =>
      DecidePhaseOk world caller call ∧
        ∀ applied, call.applied = some applied →
          applied.matchedAt ≤ world.clock ∧
            ∃ row ∈ world.rows, DecidedAs call.request applied row

structure Sound (service : ExecutionService) (world : World) : Prop where
  consistent : world.table.Consistent conflict
  minted : ∀ slot ∈ world.table.slots, ∀ row ∈ slot.versions, Minted service world row
  held : ∀ slot ∈ world.table.slots, ∀ caller row, slot.writer = some (caller, row) →
    ∃ call, world.calls[caller]? = some call ∧ Holds call slot.committed row
  calls : ∀ caller call, world.calls[caller]? = some call → CallOk service world caller call

/-! ## What stays true while others go on -/

/-- What a step leaves of the facts a call may rely on. -/
structure Later (caller : Nat) (world next : World) : Prop where
  owned : ∀ conversationId tenantId userId, world.Owned conversationId tenantId userId →
    next.Owned conversationId tenantId userId
  clock : world.clock ≤ next.clock
  rows : ∀ row ∈ world.rows, ∃ version ∈ next.rows, Advances row version
  writes : ∀ row, Writes world caller row → Writes next caller row

theorem Prepared.later {service : ExecutionService} {world next : World}
    {request : PrepareRequest} {wanted : PrepareExecution}
    (owned : ∀ conversationId tenantId userId, world.Owned conversationId tenantId userId →
      next.Owned conversationId tenantId userId)
    (prepared : Prepared service world request wanted) : Prepared service next request wanted :=
  ⟨prepared.authorized, owned _ _ _ prepared.owned⟩

theorem Minted.later {service : ExecutionService} {world next : World} {old new : ApprovalRequest}
    (owned : ∀ conversationId tenantId userId, world.Owned conversationId tenantId userId →
      next.Owned conversationId tenantId userId)
    (minted : Minted service world old) (advances : Advances old new) :
    Minted service next new := by
  intro grant isGrant
  obtain ⟨request, wanted, id, executionId, now, prepared, same⟩ :=
    minted grant (advances.grant.symm.trans isGrant)
  exact ⟨request, wanted, id, executionId, now, prepared.later owned,
    advances.frozen.symm.trans same⟩

theorem prepare_ok_later {service : ExecutionService} {world next : World} {caller : Nat}
    {request : PrepareRequest} {phase : PreparePhase} (later : Later caller world next)
    (ok : PrepareOk service world caller request phase) :
    PrepareOk service next caller request phase := by
  cases phase with
  | called => trivial
  | raised error => trivial
  | crashed => trivial
  | authorized wanted => exact Prepared.later later.owned ok
  | began wanted now => exact Prepared.later later.owned ok
  | inserted wanted => exact Prepared.later later.owned ok
  | locked wanted row grant =>
      obtain ⟨prepared, located, writes⟩ := ok
      exact ⟨prepared.later later.owned, located, later.writes _ writes⟩
  | judged judgement =>
      obtain ⟨prepared, located, read, writes⟩ := ok
      exact ⟨prepared.later later.owned, located, read.trans later.clock, later.writes _ writes⟩
  | issued judgement =>
      obtain ⟨prepared, located, read, issues, writes⟩ := ok
      exact ⟨prepared.later later.owned, located, read.trans later.clock, issues,
        later.writes _ writes⟩
  | returned judgement =>
      obtain ⟨prepared, located, read, current, member, advances, consumed⟩ := ok
      obtain ⟨version, versionMem, further⟩ := later.rows current member
      refine ⟨prepared.later later.owned, located, read.trans later.clock, version, versionMem,
        advances.trans further, ?_⟩
      intro issues
      have status := further.status
      rw [consumed issues] at status
      simpa [Status.leadsTo] using status

theorem call_ok_later {service : ExecutionService} {world next : World} {caller : Nat}
    {call : Call} (later : Later caller world next) (ok : CallOk service world caller call) :
    CallOk service next caller call := by
  cases call with
  | prepare request phase => exact prepare_ok_later later ok
  | decide call =>
      obtain ⟨phaseOk, appliedOk⟩ := ok
      constructor
      · unfold DecidePhaseOk at phaseOk ⊢
        cases phase : call.phase <;> simp only [phase] at phaseOk ⊢
        case updated decision now matchedAt rowcount =>
          obtain ⟨unapplied, read, writes⟩ := phaseOk
          refine ⟨unapplied, read.trans later.clock, ?_⟩
          intro changed
          obtain ⟨row, written⟩ := writes changed
          exact ⟨row, later.writes row written⟩
        all_goals exact phaseOk
      · intro applied isApplied
        obtain ⟨read, row, member, decided⟩ := appliedOk applied isApplied
        obtain ⟨version, versionMem, advances⟩ := later.rows row member
        exact ⟨read.trans later.clock, version, versionMem, decided.advances advances⟩

/-! ## One step -/

section Put

variable {service : ExecutionService} {world next : World} {caller : Nat}

theorem holds_advances {call : Call} {old version : ApprovalRequest}
    (holds : Holds call (some old) version) : Advances old version := by
  unfold Holds at holds
  split at holds
  · cases holds.1
  · obtain ⟨rfl, same | ⟨absent, _⟩⟩ := holds
    · cases same
      exact Advances.refl _
    · cases absent
  · obtain ⟨rfl, same | ⟨absent, _⟩⟩ := holds
    · cases same
      exact Advances.refl _
    · cases absent
  · obtain ⟨same, isApproved, rfl⟩ := holds
    cases same
    exact consume_advances _ isApproved
  · obtain ⟨_, _, row, same, decidable, rfl⟩ := holds
    cases same
    exact apply_decision_advances _ _ _ ((is_decidable_eq_true_iff _ _ _).mp decidable).2.2.1
  · exact holds.elim

theorem Sound.grows (sound : Sound service world) : world.table.Grows Advances := by
  intro slot member old isCommitted entry isWriter
  obtain ⟨caller, version⟩ := entry
  obtain ⟨call, _, holds⟩ := sound.held slot member caller version isWriter
  rw [Option.mem_def.mp isCommitted] at holds
  exact holds_advances holds

/-- A call that can hold nothing has written nothing. -/
theorem Sound.writes_nothing (sound : Sound service world) {call : Call}
    (here : world.calls[caller]? = some call) (idle : ∀ committed row, ¬ Holds call committed row)
    (row : ApprovalRequest) : ¬ Writes world caller row := by
  rintro ⟨slot, member, written⟩
  obtain ⟨holder, same, holds⟩ := sound.held slot member caller row written
  rw [here] at same
  cases same
  exact idle _ _ holds

theorem Sound.holds (sound : Sound service world) {call : Call}
    (here : world.calls[caller]? = some call) {slot : Slot Nat ApprovalRequest}
    (member : slot ∈ world.table.slots) {row : ApprovalRequest}
    (written : slot.writer = some (caller, row)) : Holds call slot.committed row := by
  obtain ⟨holder, same, holds⟩ := sound.held slot member caller row written
  rw [here] at same
  cases same
  exact holds

theorem later_of_transition {other : Nat} (apart : other ≠ caller)
    (conversations : next.conversations = world.conversations) (clock : next.clock = world.clock)
    (transition : RowStore.Transition conflict Advances (Minted service world) caller world.table
      next.table) : Later other world next where
  owned := by
    intro conversationId tenantId userId owned
    simpa only [World.Owned, conversations] using owned
  clock := clock.ge
  rows := transition.advanced
  writes := by
    rintro row ⟨slot, member, written⟩
    exact ⟨slot, transition.kept slot member other row apart written, written⟩

/-- A step of one call keeps the invariant when its own new phase explains what it has written. -/
theorem sound_put (sound : Sound service world) {before after : Call}
    (here : world.calls[caller]? = some before)
    (calls : next.calls = world.calls.set caller after)
    (conversations : next.conversations = world.conversations) (clock : next.clock = world.clock)
    (transition : RowStore.Transition conflict Advances (Minted service world) caller world.table
      next.table)
    (held : ∀ slot ∈ next.table.slots, ∀ row, slot.writer = some (caller, row) →
      Holds after slot.committed row)
    (ok : CallOk service next caller after) : Sound service next where
  consistent := transition.consistent
  minted := by
    have owned : ∀ conversationId tenantId userId, world.Owned conversationId tenantId userId →
        next.Owned conversationId tenantId userId := by
      intro conversationId tenantId userId isOwned
      simpa only [World.Owned, conversations] using isOwned
    intro slot member row isVersion
    rcases transition.versions slot member row isVersion with fresh | ⟨old, oldMem, version, isOld,
      advances⟩
    · exact fresh.later owned (Advances.refl row)
    · exact (sound.minted old oldMem version isOld).later owned advances
  held := by
    intro slot member other row written
    by_cases same : other = caller
    · subst same
      have inRange := (List.getElem?_eq_some_iff.mp here).1
      exact ⟨after, by rw [calls, List.getElem?_set_self inRange], held slot member row written⟩
    · obtain ⟨call, present, holds⟩ := sound.held slot
        (transition.others slot member other row same written) other row written
      exact ⟨call, by rw [calls, List.getElem?_set_ne (Ne.symm same)]; exact present, holds⟩
  calls := by
    intro other call present
    rw [calls] at present
    by_cases same : other = caller
    · subst same
      have inRange := (List.getElem?_eq_some_iff.mp here).1
      rw [List.getElem?_set_self inRange] at present
      cases present
      exact ok
    · rw [List.getElem?_set_ne (Ne.symm same)] at present
      exact call_ok_later (later_of_transition same conversations clock transition)
        (sound.calls other call present)

/-- A step that leaves the table alone, of a call that has written nothing. -/
theorem sound_idle (sound : Sound service world) {before after : Call}
    (here : world.calls[caller]? = some before)
    (idle : ∀ committed row, ¬ Holds before committed row)
    (calls : next.calls = world.calls.set caller after)
    (conversations : next.conversations = world.conversations) (clock : next.clock = world.clock)
    (table : next.table = world.table) (ok : CallOk service next caller after) :
    Sound service next := by
  have transition : RowStore.Transition conflict Advances (Minted service world) caller
      world.table next.table := by
    rw [table]
    exact RowStore.transition_none discipline sound.consistent
  apply sound_put sound here calls conversations clock transition _ ok
  intro slot member row written
  rw [table] at member
  exact absurd ⟨slot, member, written⟩ (sound.writes_nothing here idle row)

/-- A rollback explains itself: the call has written nothing any more. -/
theorem sound_rollback (sound : Sound service world) {before after : Call}
    (here : world.calls[caller]? = some before)
    (calls : next.calls = world.calls.set caller after)
    (conversations : next.conversations = world.conversations) (clock : next.clock = world.clock)
    (table : next.table = world.table.rollback caller) (ok : CallOk service next caller after) :
    Sound service next := by
  have transition : RowStore.Transition conflict Advances (Minted service world) caller
      world.table next.table := by
    rw [table]
    exact RowStore.transition_rollback discipline sound.consistent
  apply sound_put sound here calls conversations clock transition _ ok
  intro slot member row written
  rw [table] at member
  exact absurd written (RowStore.rollback_free member row)

theorem sound_commit (sound : Sound service world) {before after : Call}
    (here : world.calls[caller]? = some before)
    (calls : next.calls = world.calls.set caller after)
    (conversations : next.conversations = world.conversations) (clock : next.clock = world.clock)
    (table : next.table = world.table.commit caller) (ok : CallOk service next caller after) :
    Sound service next := by
  have transition : RowStore.Transition conflict Advances (Minted service world) caller
      world.table next.table := by
    rw [table]
    exact RowStore.transition_commit discipline sound.consistent sound.grows
  apply sound_put sound here calls conversations clock transition _ ok
  intro slot member row written
  rw [table] at member
  exact absurd written (RowStore.commit_free member row)

end Put

end AgentHarness.Approval
