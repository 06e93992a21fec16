import AgentHarness.Approval.CallRuns

/-!
# One human decision for one approval

Host and database share one clock here. A `decide` call whose update has changed the row is the
winner for good; every other call leaves the rows alone and is refused.
-/

namespace AgentHarness.Approval

open AgentHarness.Library AgentHarness.Conversations AgentHarness.Executions ApprovalRequest

set_option autoImplicit false

def sharedClock (world : World) : Label → Bool
  | .statement _ (.host now) => now = world.clock
  | _ => true

def sharedApprovals (service : ExecutionService) : Machine World Label :=
  (approvals service).restrict sharedClock

/-- The call at an index is this call of `decide`. -/
abbrev Decides (world : World) (caller : Nat) (call : DecideCall) : Prop :=
  world.calls[caller]? = some (.decide call)

/-! ## Why a call is refused -/

/-- The row does not admit a decision of the call's tenant any more. -/
def Settled (world : World) (row : ApprovalRequest) : Prop :=
  row.status ≠ .pending ∨ ∃ grant, row.grant = some grant ∧ grant.expiresAt ≤ world.clock

/-- What a lost update has met, unless no row had the id. -/
def Met (world : World) (call : DecideCall) : Prop :=
  call.missing = false → ∃ row ∈ world.rows, row.id = call.request.approvalId ∧
    (row.tenantId = call.request.tenantId → Settled world row)

/-- The errors of a call that has not won. -/
inductive RefusedAs (call : DecideCall) : Raised → Prop
  | keyError (key : String) : RefusedAs call (.keyError key)
  | valueError (message : String) : RefusedAs call (.valueError message)
  | unstorable (refused : call.request.storable = false) : RefusedAs call .dataError
  | insertedSince (message : String) (missing : call.missing = true) :
      RefusedAs call (.runtimeError message)

def RefusalOk (world : World) (call : DecideCall) : Prop :=
  match call.phase with
  | .updated _ _ _ rowcount => rowcount = 0 → Met world call
  | .lost => Met world call
  | .reread row => call.missing = false → Settled world row
  | .raised error => RefusedAs call error
  | _ => True

def Refused (world : World) : Prop :=
  ∀ caller call, Decides world caller call → RefusalOk world call

def OneWinner (world : World) : Prop :=
  ∀ caller other call otherCall, Decides world caller call → Decides world other otherCall →
    call.applied.isSome = true → otherCall.applied.isSome = true →
    call.request.approvalId = otherCall.request.approvalId → caller = other

variable {service : ExecutionService} {world next : World} {caller : Nat}

theorem Settled.later {old new : ApprovalRequest} (settled : Settled world old)
    (advances : Advances old new) (clock : world.clock ≤ next.clock) : Settled next new := by
  rcases settled with decided | ⟨grant, isGrant, expired⟩
  · left
    intro isPending
    apply decided
    have leads := advances.status
    rw [isPending] at leads
    cases status : old.status <;> rw [status] at leads <;> first | rfl | cases leads
  · exact Or.inr ⟨grant, advances.grant.trans isGrant, expired.trans clock⟩

theorem Met.later {call : DecideCall} (met : Met world call)
    (rows : ∀ row ∈ world.rows, ∃ version ∈ next.rows, Advances row version)
    (clock : world.clock ≤ next.clock) : Met next call := by
  intro present
  obtain ⟨row, member, isId, settled⟩ := met present
  obtain ⟨version, versionMem, advances⟩ := rows row member
  refine ⟨version, versionMem, advances.id.trans isId, ?_⟩
  intro own
  exact (settled (advances.tenant_id.symm.trans own)).later advances clock

theorem refusal_ok_later {call : DecideCall} (ok : RefusalOk world call)
    (rows : ∀ row ∈ world.rows, ∃ version ∈ next.rows, Advances row version)
    (clock : world.clock ≤ next.clock) : RefusalOk next call := by
  unfold RefusalOk at ok ⊢
  cases phase : call.phase <;> simp only [phase] at ok ⊢
  case updated decision now matchedAt rowcount =>
    intro unchanged
    exact (ok unchanged).later rows clock
  case lost => exact ok.later rows clock
  case reread row =>
    intro present
    exact (ok present).later (Advances.refl row) clock
  case raised error => exact ok

/-- An update that changes no row has met none that admits the decision. -/
theorem met_of_lost_update (sound : Sound service world) {call : DecideCall} {decision : Decision}
    {now : Int} {rows : List ApprovalRequest} {table : ApprovalTable}
    (here : world.calls[caller]? = some (.decide call))
    (phase : call.phase = .started decision now)
    (updated : world.table.updateWhere caller (isDecidable call.request world.clock)
      (applyDecision decision call.request.decidedBy now) = some (rows, table))
    (unchanged : rows.length = 0)
    (present : (world.rows.all fun row => row.id ≠ call.request.approvalId) = false) :
    ∃ row ∈ world.rows, row.id = call.request.approvalId ∧
      (row.tenantId = call.request.tenantId → Settled world row) := by
  obtain ⟨request, _, applied, missing⟩ := call
  cases phase
  obtain ⟨row, member, isId⟩ := List.all_eq_false.mp present
  have named : row.id = request.approvalId := by simpa using isId
  refine ⟨row, member, named, ?_⟩
  intro own
  by_contra open_
  have isPending : row.status = .pending := by
    by_contra decided
    exact open_ (Or.inl decided)
  have inTime : ∀ grant, row.grant = some grant → world.clock < grant.expiresAt := by
    intro grant isGrant
    by_contra expired
    exact open_ (Or.inr ⟨grant, isGrant, not_lt.mp expired⟩)
  have decidable : isDecidable request world.clock row = true :=
    (is_decidable_eq_true_iff ..).mpr ⟨named, own, isPending, inTime⟩
  obtain ⟨slot, slotMem, isCommitted⟩ := (world.table.mem_committed_iff row).mp member
  have unwritten : slot.writtenBy caller = none := by
    cases written : slot.writtenBy caller with
    | none => rfl
    | some version =>
        exact (sound.holds here slotMem
          ((slot.written_by_eq_some_iff caller version).mp written)).elim
  have seen : slot.visible caller = some row := by
    simp only [Slot.visible, unwritten, isCommitted]
  have selected : row ∈ world.table.select caller (isDecidable request world.clock) :=
    (world.table.mem_select_iff _ _ _).mpr ⟨slot, slotMem, seen, decidable⟩
  rw [(RowStore.update_inversion updated).2.1, List.length_map] at unchanged
  exact absurd unchanged (List.length_pos_of_mem selected).ne'

/-! ## One step -/

/-- What one statement of `decide` does for the refusals, on one clock. -/
theorem refused_decide_statement (sound : Sound service world) {call after : DecideCall}
    {input : Input} {table : ApprovalTable} (here : Decides world caller call)
    (ok : RefusalOk world call) (shared : sharedClock world (.statement caller input) = true)
    (ran : DecideStep world caller call call.phase input after table)
    (rows : ∀ row ∈ world.rows, ∃ version ∈ next.rows, Advances row version)
    (clock : next.clock = world.clock) : RefusalOk next after := by
  obtain ⟨request, phase, applied, missing⟩ := call
  cases ran with
  | unknown now other => exact .valueError _
  | start decision now known => trivial
  | unstorable decision now refused => exact .unstorable refused
  | update decision now changed table storable updated =>
      intro unchanged present
      obtain ⟨row, member, isId, settled⟩ :=
        met_of_lost_update sound here rfl updated unchanged present
      obtain ⟨version, versionMem, advances⟩ := rows row member
      refine ⟨version, versionMem, advances.id.trans isId, ?_⟩
      intro own
      exact (settled (advances.tenant_id.symm.trans own)).later advances clock.ge
  | lose decision now matchedAt => exact Met.later (ok rfl) rows clock.ge
  | win decision now matchedAt rowcount changed => trivial
  | gone absent => exact .keyError _
  | answer row found => trivial
  | notFound absent => exact .keyError _
  | otherTenant row found other => exact .keyError _
  | reread row found own =>
      intro present
      obtain ⟨met, member, isId, settled⟩ := ok present
      obtain ⟨rowMem, rowId⟩ := get_eq_some found
      have same := sound.row_unique member rowMem (isId.trans rowId.symm)
      subst same
      exact (settled own).later (Advances.refl met) clock.ge
  | refuse row now =>
      have isNow : now = world.clock := by simpa [sharedClock] using shared
      subst isNow
      simp only [RefusalOk, refusal]
      split_ifs with expired decided
      · exact .valueError _
      · exact .valueError _
      · apply RefusedAs.insertedSince
        by_contra present
        rcases ok (by simpa using present) with notPending | ⟨grant, isGrant, passed⟩
        · exact decided notPending
        · apply expired
          rw [isGrant]
          simpa using passed

/-- A call that changes a row is the only one to do so: the row was pending. -/
theorem first_winner (sound : Sound service world) {call : DecideCall} {decision : Decision}
    {now matchedAt : Int} {rowcount : Nat} (here : Decides world caller call)
    (phase : call.phase = .updated decision now matchedAt rowcount) (changed : rowcount ≠ 0)
    {other : Nat} {otherCall : DecideCall} (present : Decides world other otherCall)
    (won : otherCall.applied.isSome = true) :
    call.request.approvalId ≠ otherCall.request.approvalId := by
  intro same
  obtain ⟨request, _, applied, missing⟩ := call
  cases phase
  obtain ⟨⟨_, _, writes⟩, _⟩ := sound.calls caller _ here
  obtain ⟨row, slot, member, written⟩ := writes changed
  obtain ⟨_, _, old, isCommitted, decidable, _⟩ := sound.holds here member written
  rw [is_decidable_eq_true_iff] at decidable
  obtain ⟨isId, _, isPending, _⟩ := decidable
  obtain ⟨some, isApplied⟩ := Option.isSome_iff_exists.mp won
  obtain ⟨decidedRow, decidedMem, _, decided⟩ := winner_reads sound present isApplied
  have oldMem := (world.table.mem_committed_iff old).mpr ⟨slot, member, isCommitted⟩
  have one := sound.row_unique oldMem decidedMem (isId.trans (same.trans decided.id.symm))
  subst one
  exact decided.not_pending isPending

/-- Where a call of `decide` in the next state comes from. -/
theorem decides_step {label : Label} {index : Nat} {after : DecideCall}
    (stepped : (approvals service).step world label = some next)
    (present : Decides next index after) :
    Decides world index after ∨ (after.phase = .called ∧ after.applied = none) ∨
      (∃ call input table, Decides world index call ∧ label = .statement index input ∧
        DecideStep world index call call.phase input after table ∧ next.table = table) ∨
      ∃ call, Decides world index call ∧ label = .crash index ∧
        after = { call with phase := .crashed } := by
  rcases call_origin stepped present with old | begun | ⟨before, here, moved⟩
  · exact Or.inl old
  · cases begun
    exact Or.inr (Or.inl ⟨rfl, rfl⟩)
  · cases moved with
    | decide input call after table ran =>
        exact Or.inr (Or.inr (Or.inl ⟨call, input, _, here, rfl, ran, rfl⟩))
    | crash before after table stops rolledBack =>
        rcases crashed_cases stops with ⟨_, _, _, isPrepare⟩ | ⟨call, rfl, isCrashed⟩
        · cases isPrepare
        · cases isCrashed
          exact Or.inr (Or.inr (Or.inr ⟨call, here, rfl, rfl⟩))

theorem applied_by_step {call after : DecideCall} {phase : DecidePhase} {input : Input}
    {table : ApprovalTable} (ran : DecideStep world caller call phase input after table) :
    after.request = call.request ∧
      (after.applied = call.applied ∨ ∃ decision now matchedAt rowcount,
        phase = .updated decision now matchedAt rowcount ∧ rowcount ≠ 0) := by
  cases ran with
  | win decision now matchedAt rowcount changed =>
      exact ⟨rfl, Or.inr ⟨decision, now, matchedAt, rowcount, rfl, changed⟩⟩
  | _ => exact ⟨rfl, Or.inl rfl⟩

/-- A winner of the next state has won before, or wins by this very step. -/
theorem winner_origin {label : Label} {index : Nat} {after : DecideCall}
    (stepped : (approvals service).step world label = some next)
    (present : Decides next index after) (won : after.applied.isSome = true) :
    ∃ call, Decides world index call ∧ call.request = after.request ∧
      (call.applied.isSome = true ∨ ∃ input decision now matchedAt rowcount,
        label = .statement index input ∧
          call.phase = .updated decision now matchedAt rowcount ∧ rowcount ≠ 0) := by
  rcases decides_step stepped present with old | ⟨_, unapplied⟩ |
    ⟨call, input, table, here, isLabel, ran, _⟩ | ⟨call, here, _, rfl⟩
  · exact ⟨after, old, rfl, Or.inl won⟩
  · rw [unapplied] at won
    cases won
  · obtain ⟨sameRequest, sameApplied | ⟨decision, now, matchedAt, rowcount, phase, changed⟩⟩ :=
      applied_by_step ran
    · exact ⟨call, here, sameRequest.symm, Or.inl (sameApplied ▸ won)⟩
    · exact ⟨call, here, sameRequest.symm,
        Or.inr ⟨input, decision, now, matchedAt, rowcount, isLabel, phase, changed⟩⟩
  · exact ⟨call, here, rfl, Or.inl won⟩

theorem one_winner_step {label : Label} (sound : Sound service world) (one : OneWinner world)
    (stepped : (approvals service).step world label = some next) : OneWinner next := by
  intro index other after otherAfter present otherPresent won otherWon same
  obtain ⟨call, here, isRequest, before | ⟨input, decision, now, matchedAt, rowcount, isLabel,
    phase, changed⟩⟩ := winner_origin stepped present won
  all_goals obtain ⟨otherCall, otherHere, isOther, otherBefore | ⟨otherInput, otherDecision,
    otherNow, otherMatchedAt, otherRowcount, otherLabel, otherPhase, otherChanged⟩⟩ :=
      winner_origin stepped otherPresent otherWon
  · exact one index other call otherCall here otherHere before otherBefore
      (by rw [isRequest, isOther]; exact same)
  · have apart := first_winner sound otherHere otherPhase otherChanged here before
    rw [isRequest, isOther] at apart
    exact absurd same.symm apart
  · have apart := first_winner sound here phase changed otherHere otherBefore
    rw [isRequest, isOther] at apart
    exact absurd same apart
  · rw [isLabel] at otherLabel
    cases otherLabel
    rfl

theorem refused_step {label : Label} (sound : Sound service world) (refused : Refused world)
    (stepped : (approvals service).step world label = some next)
    (shared : sharedClock world label = true) : Refused next := by
  have rows : ∀ row ∈ world.rows, ∃ version ∈ next.rows, Advances row version :=
    fun row member => rows_step sound stepped member
  have clock : world.clock ≤ next.clock := by
    cases world_step_of_step service world next label stepped with
    | tick duration =>
        have later : world.clock ≤ world.clock + (duration : Int) := by omega
        exact later
    | _ => exact le_rfl
  intro index after present
  rcases decides_step stepped present with old | ⟨isCalled, _⟩ |
    ⟨call, input, table, here, rfl, ran, _⟩ | ⟨call, here, _, rfl⟩
  · exact refusal_ok_later (refused index after old) rows clock
  · simp only [RefusalOk, isCalled]
  · have sameClock : next.clock = world.clock := by
      cases world_step_of_step service world next _ stepped <;> rfl
    exact refused_decide_statement sound here (refused index call here) shared ran rows sameClock
  · trivial

/-- A call that has not won by a step has left the rows alone. -/
theorem loser_is_quiet {label : Label} {index : Nat} {after : DecideCall}
    (sound : Sound service world)
    (stepped : (approvals service).step world label = some next)
    (acts : (∃ input, label = .statement index input) ∨ label = .crash index)
    (present : Decides next index after) (unapplied : after.applied = none) :
    next.rows = world.rows := by
  cases world_step_of_step service world next label stepped with
  | prepareStatement caller input request phase later table locks here ran =>
      have isCaller : index = caller := by
        rcases acts with ⟨_, same⟩ | same
        · cases same
          rfl
        · cases same
      subst isCaller
      have changed : (world.calls.set index (.prepare request later))[index]? =
          some (.decide after) := present
      rw [List.getElem?_set_self (List.getElem?_eq_some_iff.mp here).1] at changed
      cases changed
  | decideStatement caller input call later table here ran =>
      have isCaller : index = caller := by
        rcases acts with ⟨_, same⟩ | same
        · cases same
          rfl
        · cases same
      subst isCaller
      have changed : (world.calls.set index (.decide later))[index]? =
          some (.decide after) := present
      rw [List.getElem?_set_self (List.getElem?_eq_some_iff.mp here).1] at changed
      cases changed
      obtain ⟨request, phase, applied, missing⟩ := call
      cases ran with
      | update decision now rows table storable updated => exact RowStore.update_committed updated
      | lose decision now matchedAt =>
          have unwritten : ∀ slot ∈ world.table.slots, slot.writtenBy index = none := by
            intro slot member
            cases written : slot.writtenBy index with
            | none => rfl
            | some version =>
                exact absurd rfl (sound.holds here member
                  ((slot.written_by_eq_some_iff index version).mp written)).1
          exact congrArg RowStore.committed (RowStore.commit_unwritten unwritten)
      | win decision now matchedAt rowcount changed => cases unapplied
      | _ => rfl
  | crash caller call later here stops => exact RowStore.rollback_committed _ _
  | _ => rfl

/-! ## Whole runs -/

theorem decided_status {request : DecideRequest} {applied : Applied} {row : ApprovalRequest}
    (decided : DecidedAs request applied row) :
    row.status = applied.decision.newStatus ∨
      (applied.decision = .approve ∧ row.status = .consumed) := by
  have leads := decided.status
  cases decision : applied.decision with
  | approve =>
      rw [decision] at leads
      simpa [Decision.newStatus, Status.leadsTo] using leads
  | reject =>
      rw [decision] at leads
      exact Or.inl (by simpa [Decision.newStatus, Status.leadsTo] using leads)

/-- What holds of the calls of `decide` in every state on one clock. -/
structure Fair (service : ExecutionService) (world : World) : Prop where
  sound : Sound service world
  one : OneWinner world
  refused : Refused world

theorem fair_run {conversations : List Conversation} {legacy : List ApprovalRequest}
    (isLegacy : Legacy legacy) {clock : Int} {labels : List Label} {final : World}
    (reached : (sharedApprovals service).run (World.start conversations legacy clock) labels =
      some final) : Fair service final := by
  apply (sharedApprovals service).run_invariant (Fair service) _ _ reached
  · intro state label next fair stepped
    obtain ⟨shared, base⟩ := ((approvals service).restrict_step_eq_some ..).mp stepped
    exact ⟨sound_step fair.sound base, one_winner_step fair.sound fair.one base,
      refused_step fair.sound fair.refused base shared⟩
  · refine ⟨sound_start conversations isLegacy clock, ?_, ?_⟩
    · intro caller other call otherCall present
      simp [Decides, World.start] at present
    · intro caller call present
      simp [Decides, World.start] at present

/-- At most one call of `decide` wins an approval, and its decision stays. Every other call leaves
the rows alone and raises `KeyError` or `ValueError`, unless the database refuses its texts or the
approval was inserted after the call's update. -/
theorem one_decision_per_approval (conversations : List Conversation)
    (legacy : List ApprovalRequest) (isLegacy : Legacy legacy) (clock : Int)
    (early late : List Label) (middle final : World)
    (reached : (sharedApprovals service).run (World.start conversations legacy clock) early =
      some middle)
    (continued : (sharedApprovals service).run middle late = some final) :
    OneWinner final ∧
      (∀ caller call applied, Decides middle caller call → call.applied = some applied →
        ∃ row ∈ final.rows, DecidedAs call.request applied row) ∧
      (∀ caller call row, Decides final caller call → call.phase = .returned row →
        ∃ applied, call.applied = some applied ∧ DecidedAs call.request applied row ∧
          (row.status = applied.decision.newStatus ∨
            (applied.decision = .approve ∧ row.status = .consumed))) ∧
      (∀ caller call error, Decides final caller call → call.phase = .raised error →
        call.applied = none ∧ RefusedAs call error) ∧
      (∀ label caller call next, (sharedApprovals service).step middle label = some next →
        ((∃ input, label = .statement caller input) ∨ label = .crash caller) →
        Decides next caller call → call.applied = none → next.rows = middle.rows) := by
  have fair := fair_run isLegacy reached
  have whole : (sharedApprovals service).run (World.start conversations legacy clock)
      (early ++ late) = some final :=
    ((sharedApprovals service).run_append ..).mpr ⟨middle, reached, continued⟩
  have finalFair := fair_run isLegacy whole
  refine ⟨finalFair.one, ?_, ?_, ?_, ?_⟩
  · intro caller call applied present isApplied
    obtain ⟨_, row, member, decided⟩ := (fair.sound.calls caller _ present).2 applied isApplied
    obtain ⟨later, laterMem, advances⟩ :=
      rows_run fair.sound ((approvals service).run_of_restrict _ continued) member
    exact ⟨later, laterMem, decided.advances advances⟩
  · intro caller call row present returned
    have ok := (finalFair.sound.calls caller _ present).1
    simp only [DecidePhaseOk, returned] at ok
    obtain ⟨applied, isApplied, decided⟩ := ok
    exact ⟨applied, isApplied, decided, decided_status decided⟩
  · intro caller call error present raised
    have ok := (finalFair.sound.calls caller _ present).1
    have refused := finalFair.refused caller call present
    simp only [DecidePhaseOk, raised] at ok
    simp only [RefusalOk, raised] at refused
    exact ⟨ok, refused⟩
  · intro label caller call next stepped acts present unapplied
    obtain ⟨_, base⟩ := ((approvals service).restrict_step_eq_some ..).mp stepped
    exact loser_is_quiet fair.sound base acts present unapplied

/-- Two approvers take up the same grant; the update of the first has run. -/
def Recorded.contended : List Label :=
  Recorded.prepare 0 1 2 3 ++
    [.decide ⟨(Recorded.uuid 1).text, "approve", "approver-1", "t-1"⟩,
      .decide ⟨(Recorded.uuid 1).text, "reject", "approver-2", "t-1"⟩,
      .statement 1 (.host 0), .statement 2 (.host 0), .statement 1 .nothing]

/-- The first commits, the update of the second finds nothing, and both read the row again. -/
def Recorded.contendedRest : List Label :=
  [.statement 1 .nothing, .statement 2 .nothing, .statement 2 .nothing, .statement 2 .nothing,
    .statement 1 .nothing, .statement 2 (.host 0)]

/-- The call of the second approver at its end. -/
def Recorded.lateRejection : DecideCall :=
  ⟨⟨(Recorded.uuid 1).text, "reject", "approver-2", "t-1"⟩,
    .raised (.valueError "该审批已经处理，不能重复审批"), none, false⟩

theorem contended_runs :
    ((sharedApprovals Recorded.orderService).run (World.start [Recorded.conversation] [] 0)
      Recorded.contended).isSome = true := by
  decide +kernel

theorem contended_ends :
    ((sharedApprovals Recorded.orderService).run (World.start [Recorded.conversation] [] 0)
      (Recorded.contended ++ Recorded.contendedRest)).map
        (fun final => (final.calls[1]?, final.calls[2]?)) =
      some (some (.decide ⟨⟨(Recorded.uuid 1).text, "approve", "approver-1", "t-1"⟩,
        .returned Recorded.approvedRow, some ⟨.approve, 0, 0⟩, false⟩),
        some (.decide Recorded.lateRejection)) := by
  decide +kernel

theorem one_decision_per_approval_contended :
    ∃ middle final, (sharedApprovals Recorded.orderService).run
        (World.start [Recorded.conversation] [] 0) Recorded.contended = some middle ∧
      (sharedApprovals Recorded.orderService).run middle Recorded.contendedRest = some final ∧
      OneWinner final ∧ Recorded.approvedRow.status = .approved ∧
      (∃ call applied, Decides final 1 call ∧ call.applied = some applied ∧
        DecidedAs call.request applied Recorded.approvedRow) ∧
      Decides final 2 Recorded.lateRejection ∧
      RefusedAs Recorded.lateRejection (.valueError "该审批已经处理，不能重复审批") := by
  obtain ⟨middle, reached⟩ := Option.isSome_iff_exists.mp contended_runs
  obtain ⟨final, whole, ends⟩ := Option.map_eq_some_iff.mp contended_ends
  obtain ⟨other, early, late⟩ := ((sharedApprovals Recorded.orderService).run_append ..).mp whole
  have same : other = middle := Option.some.inj (early.symm.trans reached)
  rw [same] at late
  obtain ⟨winner, loser⟩ := Prod.mk.inj ends
  obtain ⟨one, _, returns, refusals, _⟩ := one_decision_per_approval [Recorded.conversation] []
    legacy_nil 0 Recorded.contended Recorded.contendedRest middle final reached late
  obtain ⟨applied, isApplied, decided, _⟩ := returns 1 _ _ winner rfl
  exact ⟨middle, final, reached, late, one, rfl, ⟨_, applied, winner, isApplied, decided⟩, loser,
    (refusals 2 _ _ loser rfl).2⟩

/-! ## Other errors -/

/-- Every call that ends with an exception ends with one of these two. -/
def OnlyKeyOrValueErrors (world : World) : Prop :=
  ∀ caller call error, Decides world caller call → call.phase = .raised error →
    (∃ key, error = .keyError key) ∨ ∃ message, error = .valueError message

/-- An approval by an approver whose name has 129 characters. -/
def Recorded.wideApprover : DecideRequest :=
  ⟨(Recorded.uuid 1).text, "approve", String.ofList (List.replicate 129 'a'), "t-1"⟩

def Recorded.approvedByWide : List Label :=
  Recorded.prepare 0 1 2 3 ++
    [.decide Recorded.wideApprover, .statement 1 (.host 0), .statement 1 .nothing]

/-- An approval that is inserted between the update of a call for it and the call's next read. -/
def Recorded.approvedEarly : List Label :=
  [.decide ⟨(Recorded.uuid 1).text, "approve", "approver-1", "t-1"⟩, .statement 0 (.host 0)] ++
    Recorded.statements 0 2 ++ Recorded.prepare 1 1 2 3 ++
    [.statement 0 .nothing, .statement 0 (.host 0)]

theorem approved_by_wide_refused :
    ((sharedApprovals Recorded.orderService).run (World.start [Recorded.conversation] [] 0)
      Recorded.approvedByWide).map (fun final => final.calls[1]?) =
      some (some (.decide ⟨Recorded.wideApprover, .raised .dataError, none, false⟩)) := by
  decide +kernel

theorem approved_early_refused :
    ((sharedApprovals Recorded.orderService).run (World.start [Recorded.conversation] [] 0)
      Recorded.approvedEarly).map (fun final => final.calls[0]?) =
      some (some (.decide ⟨⟨(Recorded.uuid 1).text, "approve", "approver-1", "t-1"⟩,
        .raised (.runtimeError "审批状态更新失败"), none, true⟩)) := by
  decide +kernel

theorem other_errors_are_raised :
    (∃ final, (sharedApprovals Recorded.orderService).run
        (World.start [Recorded.conversation] [] 0) Recorded.approvedByWide = some final ∧
      ¬ OnlyKeyOrValueErrors final) ∧
    (∃ final, (sharedApprovals Recorded.orderService).run
        (World.start [Recorded.conversation] [] 0) Recorded.approvedEarly = some final ∧
      ¬ OnlyKeyOrValueErrors final) := by
  constructor
  · obtain ⟨final, reached, raised⟩ := Option.map_eq_some_iff.mp approved_by_wide_refused
    refine ⟨final, reached, ?_⟩
    intro only
    rcases only 1 _ .dataError raised rfl with ⟨key, same⟩ | ⟨message, same⟩ <;> cases same
  · obtain ⟨final, reached, raised⟩ := Option.map_eq_some_iff.mp approved_early_refused
    refine ⟨final, reached, ?_⟩
    intro only
    rcases only 0 _ _ raised rfl with ⟨key, same⟩ | ⟨message, same⟩ <;> cases same

end AgentHarness.Approval
