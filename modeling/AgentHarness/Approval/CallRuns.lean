import AgentHarness.Approval.CallSoundness

/-!
# Runs of the store

Every statement keeps what the calls know about the table, so every run does.
-/

namespace AgentHarness.Approval

open AgentHarness.Library AgentHarness.Conversations AgentHarness.Executions ApprovalRequest

set_option autoImplicit false

variable {service : ExecutionService} {world : World} {caller : Nat}

/-- The slot a call has written is the only one with its row's id. -/
theorem Sound.slot_unique (sound : Sound service world) {left right : Slot Nat ApprovalRequest}
    {row other : ApprovalRequest} (leftMem : left ∈ world.table.slots)
    (rightMem : right ∈ world.table.slots) (rowMem : row ∈ left.versions)
    (otherMem : other ∈ right.versions) (same : row.id = other.id) : left = right :=
  RowStore.same_slot conflict_comm sound.consistent leftMem rightMem rowMem otherMem
    (conflict_of_id same)

theorem Sound.row_unique (sound : Sound service world) {row other : ApprovalRequest}
    (rowMem : row ∈ world.rows) (otherMem : other ∈ world.rows) (same : row.id = other.id) :
    row = other :=
  RowStore.same_committed conflict_comm sound.consistent rowMem otherMem (conflict_of_id same)

theorem get_eq_some {approvalId : String} {row : ApprovalRequest}
    (found : world.get approvalId = some row) : row ∈ world.rows ∧ row.id = approvalId := by
  exact ⟨List.mem_of_find?_eq_some found, by simpa using List.find?_some found⟩

theorem Sound.get_of_mem (sound : Sound service world) {row : ApprovalRequest}
    (member : row ∈ world.rows) : world.get row.id = some row := by
  cases found : world.get row.id with
  | none =>
      have absent := List.find?_eq_none.mp found row member
      simp at absent
  | some other =>
      obtain ⟨otherMem, same⟩ := get_eq_some found
      rw [sound.row_unique otherMem member same]

/-! ## `prepare` -/

theorem sound_lock (sound : Sound service world) {request : PrepareRequest}
    {wanted : PrepareExecution} {row : ApprovalRequest} {grant : ExecutionGrant}
    {table : ApprovalTable} {next : World}
    (here : world.calls[caller]? = some (.prepare request (.inserted wanted)))
    (isGrant : row.grant = some grant)
    (locked : world.table.lockWhere caller (isGrantOf wanted) = some ([row], table))
    (calls : next.calls = world.calls.set caller (.prepare request (.locked wanted row grant)))
    (conversations : next.conversations = world.conversations) (clock : next.clock = world.clock)
    (isTable : next.table = table) : Sound service next := by
  subst isTable
  have prepared : Prepared service world request wanted := sound.calls caller _ here
  obtain ⟨free, rows, _⟩ := RowStore.update_inversion locked
  rw [List.map_id] at rows
  have only : ∀ version ∈ world.table.select caller (isGrantOf wanted), version = row := by
    intro version isSelected
    rw [← rows] at isSelected
    exact List.mem_singleton.mp isSelected
  have transition : RowStore.Transition conflict Advances (Minted service world) caller
      world.table next.table :=
    RowStore.transition_update discipline sound.consistent
      (fun _ _ version _ _ => Advances.refl version) locked
  apply sound_put sound here calls conversations clock transition
  · intro slot member version written
    rcases RowStore.update_cases locked member with ⟨old, unmatched⟩ | ⟨old, oldMem, seenRow, seen,
      matched, rfl⟩
    · -- the call's own insert matches, so it has been locked
      obtain ⟨_, isGrantVersion, _⟩ := sound.holds here old written
      rw [unmatched version (Slot.visible_of_written written)] at isGrantVersion
      cases isGrantVersion
    · cases written
      have isRow := only seenRow ((world.table.mem_select_iff _ _ _).mpr
        ⟨old, oldMem, seen, matched⟩)
      subst isRow
      refine ⟨rfl, ?_⟩
      rcases Slot.visible_cases seen (free old oldMem seenRow seen matched) with own | ⟨_, same⟩
      · obtain ⟨uncommitted, _, isPending⟩ := sound.holds here oldMem own
        exact Or.inr ⟨uncommitted, isPending⟩
      · exact Or.inl same
  · have selected : row ∈ world.table.select caller (isGrantOf wanted) := by
      rw [← rows]
      exact List.mem_singleton_self row
    obtain ⟨slot, member, seen, matched⟩ := (world.table.mem_select_iff _ _ _).mp selected
    have owned : Prepared service next request wanted := by
      apply prepared.later
      intro conversationId tenantId userId isOwned
      simpa only [World.Owned, conversations] using isOwned
    exact ⟨owned, ⟨matched, isGrant⟩, _, RowStore.update_writes locked member seen matched, rfl⟩

theorem World.Owned.of_same {next : World}
    (conversations : next.conversations = world.conversations)
    {conversationId tenantId userId : String} (owned : world.Owned conversationId tenantId userId) :
    next.Owned conversationId tenantId userId := by
  simpa only [World.Owned, conversations] using owned

/-- The locked row is the only one the issuing update can change. -/
theorem judged_row (sound : Sound service world) {request : PrepareRequest}
    {judgement : Judgement}
    (here : world.calls[caller]? = some (.prepare request (.judged judgement)))
    {slot : Slot Nat ApprovalRequest} (member : slot ∈ world.table.slots) {row : ApprovalRequest}
    (seen : slot.visible caller = some row) (same : row.id = judgement.row.id) :
    slot.writer = some (caller, judgement.row) ∧ row = judgement.row := by
  obtain ⟨_, _, _, held, heldMem, written⟩ := sound.calls caller _ here
  have one := sound.slot_unique member heldMem (Slot.visible_mem_versions seen)
    (Slot.written_mem_versions written) same
  subst one
  rw [Slot.visible_of_written written] at seen
  cases seen
  exact ⟨written, rfl⟩

theorem sound_issue (sound : Sound service world) {request : PrepareRequest}
    {judgement : Judgement} {rows : List ApprovalRequest} {table : ApprovalTable} {next : World}
    (here : world.calls[caller]? = some (.prepare request (.judged judgement)))
    (issues : judgement.issues = true)
    (updated : world.table.updateWhere caller (fun row => row.id = judgement.row.id)
      (consume judgement.now) = some (rows, table))
    (calls : next.calls = world.calls.set caller (.prepare request (.issued judgement)))
    (conversations : next.conversations = world.conversations) (clock : next.clock = world.clock)
    (isTable : next.table = table) : Sound service next := by
  subst isTable
  obtain ⟨prepared, located, read, writes⟩ := sound.calls caller _ here
  have isApproved : judgement.row.status = .approved := by
    simp only [Judgement.issues, issuesAt, Bool.and_eq_true, decide_eq_true_eq] at issues
    exact issues.2
  have transition : RowStore.Transition conflict Advances (Minted service world) caller
      world.table next.table := by
    apply RowStore.transition_update discipline sound.consistent _ updated
    intro slot member row seen matched
    obtain ⟨_, rfl⟩ := judged_row sound here member seen (by simpa using matched)
    exact consume_advances judgement.now isApproved
  apply sound_put sound here calls conversations clock transition
  · intro slot member version written
    rcases RowStore.update_cases updated member with ⟨old, unmatched⟩ | ⟨old, oldMem, row, seen,
      matched, rfl⟩
    · -- the locked row matches, so it has been changed
      obtain ⟨rfl, _⟩ := sound.holds here old written
      have notMatched := unmatched _ (Slot.visible_of_written written)
      simp at notMatched
    · cases written
      obtain ⟨written, rfl⟩ := judged_row sound here oldMem seen (by simpa using matched)
      obtain ⟨_, same | ⟨_, isPending⟩⟩ := sound.holds here oldMem written
      · exact ⟨same, isApproved, rfl⟩
      · rw [isApproved] at isPending
        cases isPending
  · obtain ⟨slot, member, written⟩ := writes
    refine ⟨prepared.later fun _ _ _ => World.Owned.of_same conversations, located, ?_, issues,
      _, RowStore.update_writes updated member (Slot.visible_of_written written) (by simp), rfl⟩
    rw [clock]
    exact read

theorem sound_prepare_statement (sound : Sound service world) {request : PrepareRequest}
    {phase after : PreparePhase} {table : ApprovalTable} {locks : Bool} {next : World}
    (here : world.calls[caller]? = some (.prepare request phase))
    (ran : PrepareStep service world caller request phase after table locks)
    (calls : next.calls = world.calls.set caller (.prepare request after))
    (conversations : next.conversations = world.conversations) (clock : next.clock = world.clock)
    (isTable : next.table = table) : Sound service next := by
  have owned : ∀ conversationId tenantId userId, world.Owned conversationId tenantId userId →
      next.Owned conversationId tenantId userId := by
    intro conversationId tenantId userId isOwned
    exact isOwned.of_same conversations
  have ok := sound.calls caller _ here
  cases ran with
  | refused error =>
      exact sound_idle sound here (fun _ _ holds => holds) calls conversations clock isTable trivial
  | authorize row wanted isOwned authorized =>
      apply sound_idle sound here (fun _ _ holds => holds) calls conversations clock isTable
      exact ⟨authorized, owned _ _ _ ⟨row, isOwned⟩⟩
  | begin wanted =>
      exact sound_idle sound here (fun _ _ holds => holds) calls conversations clock isTable
        (Prepared.later owned ok)
  | tooWide wanted now => exact sound_rollback sound here calls conversations clock isTable trivial
  | conflicted wanted now =>
      exact sound_idle sound here (fun _ _ holds => holds) calls conversations clock isTable
        (Prepared.later owned ok)
  | insert wanted now id executionId table inserted =>
      subst isTable
      have minted : Minted service world
          (newGrant wanted id.text executionId.text now) := by
        intro grant _
        exact ⟨request, wanted, id, executionId, now, ok, rfl⟩
      apply sound_put sound here calls conversations clock
        (RowStore.transition_insert discipline sound.consistent minted inserted)
      · intro slot member row written
        rw [RowStore.insert_slots inserted, List.mem_append, List.mem_singleton] at member
        rcases member with old | rfl
        · exact (sound.holds here old written).elim
        · cases written
          exact ⟨rfl, new_grant_is_grant_of _ _ _ _, rfl⟩
      · exact Prepared.later owned ok
  | notOne wanted error => exact sound_rollback sound here calls conversations clock isTable trivial
  | lock wanted row grant table isGrant locked =>
      exact sound_lock sound here isGrant locked calls conversations clock isTable
  | readClock wanted row grant =>
      obtain ⟨prepared, located, writes⟩ := ok
      have transition : RowStore.Transition conflict Advances (Minted service world) caller
          world.table next.table := by
        rw [isTable]
        exact RowStore.transition_none discipline sound.consistent
      apply sound_put sound here calls conversations clock transition
      · intro slot member version written
        rw [isTable] at member
        exact sound.holds here member written
      · refine ⟨prepared.later owned, located, clock.ge, ?_⟩
        simpa only [Writes, isTable] using writes
  | issue judgement rows table issues updated =>
      exact sound_issue sound here issues updated calls conversations clock isTable
  | answer judgement keeps =>
      apply sound_commit sound here calls conversations clock isTable
      obtain ⟨prepared, located, read, slot, member, written⟩ := ok
      refine ⟨prepared.later owned, located, by rw [clock]; exact read, judgement.row, ?_,
        Advances.refl _, ?_⟩
      · rw [World.rows, isTable, RowStore.mem_committed_iff]
        exact ⟨_, RowStore.commit_writes member written, rfl⟩
      · intro issues
        rw [keeps] at issues
        cases issues
  | finish judgement =>
      apply sound_commit sound here calls conversations clock isTable
      obtain ⟨prepared, located, read, issues, slot, member, written⟩ := ok
      have isApproved : judgement.row.status = .approved := by
        simp only [Judgement.issues, issuesAt, Bool.and_eq_true, decide_eq_true_eq] at issues
        exact issues.2
      refine ⟨prepared.later owned, located, by rw [clock]; exact read,
        consume judgement.now judgement.row, ?_, consume_advances _ isApproved, fun _ => rfl⟩
      rw [World.rows, isTable, RowStore.mem_committed_iff]
      exact ⟨_, RowStore.commit_writes member written, rfl⟩

/-! ## `decide` -/

theorem sound_decide_update (sound : Sound service world) {call after : DecideCall}
    {decision : Decision} {now : Int} {rows : List ApprovalRequest} {table : ApprovalTable}
    {next : World} (here : world.calls[caller]? = some (.decide call))
    (phase : call.phase = .started decision now)
    (updated : world.table.updateWhere caller (isDecidable call.request world.clock)
      (applyDecision decision call.request.decidedBy now) = some (rows, table))
    (isAfter : after = { call with
      phase := .updated decision now world.clock rows.length
      missing := world.rows.all fun row => row.id ≠ call.request.approvalId })
    (calls : next.calls = world.calls.set caller (.decide after))
    (conversations : next.conversations = world.conversations) (clock : next.clock = world.clock)
    (isTable : next.table = table) : Sound service next := by
  subst isTable
  obtain ⟨request, _, applied, missing⟩ := call
  cases phase
  obtain ⟨⟨unapplied, known⟩, _⟩ := sound.calls caller _ here
  obtain ⟨free, isRows, _⟩ := RowStore.update_inversion updated
  have transition : RowStore.Transition conflict Advances (Minted service world) caller
      world.table next.table := by
    apply RowStore.transition_update discipline sound.consistent _ updated
    intro slot member row seen matched
    rw [is_decidable_eq_true_iff] at matched
    exact apply_decision_advances decision _ now matched.2.2.1
  apply sound_put sound here calls conversations clock transition
  · intro slot member version written
    rcases RowStore.update_cases updated member with ⟨old, _⟩ | ⟨old, oldMem, row, seen, matched,
      rfl⟩
    · exact (sound.holds here old written).elim
    · cases written
      have selected : row ∈ world.table.select caller (isDecidable request world.clock) :=
        (world.table.mem_select_iff _ _ _).mpr ⟨old, oldMem, seen, matched⟩
      rcases Slot.visible_cases seen (free old oldMem row seen matched) with own | ⟨_, same⟩
      · exact (sound.holds here oldMem own).elim
      · subst isAfter
        refine ⟨?_, known, row, same, matched, rfl⟩
        rw [isRows, List.length_map]
        exact (List.length_pos_of_mem selected).ne'
  · subst isAfter
    have noneApplied : applied = none := unapplied
    refine ⟨⟨unapplied, clock.ge, ?_⟩, ?_⟩
    · intro changed
      rw [isRows, List.length_map] at changed
      obtain ⟨row, selected⟩ := List.exists_mem_of_length_pos (Nat.pos_of_ne_zero changed)
      obtain ⟨slot, member, seen, matched⟩ := (world.table.mem_select_iff _ _ _).mp selected
      exact ⟨_, _, RowStore.update_writes updated member seen matched, rfl⟩
    · intro some isApplied
      rw [noneApplied] at isApplied
      cases isApplied

/-- The row that a winning call commits keeps its decision. -/
theorem won_row (sound : Sound service world) {request : DecideRequest} {applied : Option Applied}
    {missing : Bool} {decision : Decision} {now matchedAt : Int} {rowcount : Nat}
    (here : world.calls[caller]? = some
      (.decide ⟨request, .updated decision now matchedAt rowcount, applied, missing⟩))
    {slot : Slot Nat ApprovalRequest} (member : slot ∈ world.table.slots) {row : ApprovalRequest}
    (written : slot.writer = some (caller, row)) :
    DecidedAs request ⟨decision, now, matchedAt⟩ row := by
  obtain ⟨_, known, old, _, decidable, rfl⟩ := sound.holds here member written
  rw [is_decidable_eq_true_iff] at decidable
  obtain ⟨sameId, sameTenant, _, inTime⟩ := decidable
  exact ⟨sameId, sameTenant, known, rfl, rfl, rfl, Status.leads_to_refl _, inTime⟩

/-- A winner finds its own row when it reads it again. -/
theorem winner_reads (sound : Sound service world) {call : DecideCall}
    (here : world.calls[caller]? = some (.decide call)) {applied : Applied}
    (isApplied : call.applied = some applied) :
    ∃ row ∈ world.rows, world.get call.request.approvalId = some row ∧
      DecidedAs call.request applied row := by
  obtain ⟨_, row, member, decided⟩ := (sound.calls caller _ here).2 applied isApplied
  have found := sound.get_of_mem member
  rw [decided.id] at found
  exact ⟨row, member, found, decided⟩

theorem sound_decide_statement (sound : Sound service world) {call after : DecideCall}
    {input : Input} {table : ApprovalTable} {next : World}
    (here : world.calls[caller]? = some (.decide call))
    (ran : DecideStep world caller call call.phase input after table)
    (calls : next.calls = world.calls.set caller (.decide after))
    (conversations : next.conversations = world.conversations) (clock : next.clock = world.clock)
    (isTable : next.table = table) : Sound service next := by
  obtain ⟨request, phase, applied, missing⟩ := call
  obtain ⟨phaseOk, appliedOk⟩ := sound.calls caller _ here
  -- a call that has not won has nothing to show for it
  have unapplied : applied = none → ∀ some, applied = Option.some some →
      some.matchedAt ≤ next.clock ∧ ∃ row ∈ next.rows, DecidedAs request some row := by
    intro noneApplied some isApplied
    rw [noneApplied] at isApplied
    cases isApplied
  cases ran with
  | unknown now other =>
      exact sound_idle sound here (fun _ _ holds => holds) calls conversations clock isTable
        ⟨phaseOk, unapplied phaseOk⟩
  | start decision now known =>
      exact sound_idle sound here (fun _ _ holds => holds) calls conversations clock isTable
        ⟨⟨phaseOk, known⟩, unapplied phaseOk⟩
  | unstorable decision now refused =>
      exact sound_idle sound here (fun _ _ holds => holds) calls conversations clock isTable
        ⟨phaseOk.1, unapplied phaseOk.1⟩
  | update decision now rows table storable updated =>
      exact sound_decide_update sound here rfl updated rfl calls conversations clock isTable
  | lose decision now matchedAt =>
      exact sound_commit sound here calls conversations clock isTable
        ⟨phaseOk.1, unapplied phaseOk.1⟩
  | win decision now matchedAt rowcount changed =>
      apply sound_commit sound here calls conversations clock isTable
      refine ⟨rfl, ?_⟩
      intro some isApplied
      cases isApplied
      obtain ⟨_, read, writes⟩ := phaseOk
      obtain ⟨row, slot, member, written⟩ := writes changed
      refine ⟨by rw [clock]; exact read, row, ?_, won_row sound here member written⟩
      rw [World.rows, isTable, RowStore.mem_committed_iff]
      exact ⟨_, RowStore.commit_writes member written, rfl⟩
  | gone absent =>
      obtain ⟨some, isApplied⟩ := Option.isSome_iff_exists.mp phaseOk
      obtain ⟨row, _, found, _⟩ := winner_reads sound here isApplied
      rw [absent] at found
      cases found
  | answer row found =>
      obtain ⟨some, isApplied⟩ := Option.isSome_iff_exists.mp phaseOk
      obtain ⟨own, _, ownFound, decided⟩ := winner_reads sound here isApplied
      rw [found] at ownFound
      cases ownFound
      apply sound_idle sound here (fun _ _ holds => holds) calls conversations clock isTable
      refine ⟨⟨some, isApplied, decided⟩, ?_⟩
      simpa only [World.rows, isTable, clock] using appliedOk
  | notFound absent =>
      exact sound_idle sound here (fun _ _ holds => holds) calls conversations clock isTable
        ⟨phaseOk, unapplied phaseOk⟩
  | otherTenant row found other =>
      exact sound_idle sound here (fun _ _ holds => holds) calls conversations clock isTable
        ⟨phaseOk, unapplied phaseOk⟩
  | reread row found own =>
      exact sound_idle sound here (fun _ _ holds => holds) calls conversations clock isTable
        ⟨phaseOk, unapplied phaseOk⟩
  | refuse row now =>
      exact sound_idle sound here (fun _ _ holds => holds) calls conversations clock isTable
        ⟨phaseOk, unapplied phaseOk⟩

/-! ## Every step -/

theorem crashed_cases {call after : Call} (stops : World.crashed call = some after) :
    (∃ request phase, call = .prepare request phase ∧ after = .prepare request .crashed) ∨
      ∃ decide, call = .decide decide ∧ after = .decide { decide with phase := .crashed } := by
  cases call with
  | prepare request phase =>
      left
      refine ⟨request, phase, rfl, ?_⟩
      cases phase <;> simp only [World.crashed, Option.some.injEq, reduceCtorEq] at stops <;>
        exact stops.symm
  | decide decide =>
      right
      refine ⟨decide, rfl, ?_⟩
      obtain ⟨request, phase, applied, missing⟩ := decide
      cases phase <;> simp only [World.crashed, Option.some.injEq, reduceCtorEq] at stops <;>
        exact stops.symm

theorem sound_crash (sound : Sound service world) {call after : Call} {next : World}
    (here : world.calls[caller]? = some call) (stops : World.crashed call = some after)
    (calls : next.calls = world.calls.set caller after)
    (conversations : next.conversations = world.conversations) (clock : next.clock = world.clock)
    (isTable : next.table = world.table.rollback caller) : Sound service next := by
  apply sound_rollback sound here calls conversations clock isTable
  rcases crashed_cases stops with ⟨request, phase, rfl, rfl⟩ | ⟨decide, rfl, rfl⟩
  · trivial
  · refine ⟨trivial, ?_⟩
    simpa only [World.rows, isTable, RowStore.rollback_committed, clock] using
      (sound.calls caller _ here).2

/-- What a step outside the calls changes: time passes, conversations and calls are added. -/
theorem sound_extend (sound : Sound service world) {next : World} (added : List Call)
    (fresh : ∀ call ∈ added, ∀ index, CallOk service next index call)
    (calls : next.calls = world.calls ++ added) (table : next.table = world.table)
    (clock : world.clock ≤ next.clock)
    (owned : ∀ conversationId tenantId userId, world.Owned conversationId tenantId userId →
      next.Owned conversationId tenantId userId) : Sound service next where
  consistent := by
    rw [table]
    exact sound.consistent
  minted := by
    intro slot member row isVersion
    rw [table] at member
    exact (sound.minted slot member row isVersion).later owned (Advances.refl row)
  held := by
    intro slot member other row written
    rw [table] at member
    obtain ⟨call, present, holds⟩ := sound.held slot member other row written
    have inRange := (List.getElem?_eq_some_iff.mp present).1
    exact ⟨call, by rw [calls, List.getElem?_append_left inRange]; exact present, holds⟩
  calls := by
    intro other call present
    rw [calls] at present
    by_cases inRange : other < world.calls.length
    · rw [List.getElem?_append_left inRange] at present
      have later : Later other world next := by
        refine ⟨owned, clock, ?_, ?_⟩
        · intro row member
          exact ⟨row, by rw [World.rows, table]; exact member, Advances.refl row⟩
        · intro row writes
          simpa only [Writes, table] using writes
      exact call_ok_later later (sound.calls other call present)
    · rw [List.getElem?_append_right (by omega)] at present
      exact fresh call (List.mem_of_getElem? present) other

theorem sound_step {next : World} {label : Label} (sound : Sound service world)
    (stepped : (approvals service).step world label = some next) : Sound service next := by
  cases world_step_of_step service world next label stepped with
  | tick duration =>
      have later : world.clock ≤ world.clock + (duration : Int) := by omega
      exact sound_extend sound [] (by simp) (by simp) rfl later fun _ _ _ isOwned => isOwned
  | createConversation row conversations created =>
      refine sound_extend sound [] (by simp) (by simp) rfl le_rfl ?_
      rintro conversationId tenantId userId ⟨found, isOwned⟩
      exact ⟨found, ConversationRepository.get_owned_create isOwned created⟩
  | prepare request =>
      refine sound_extend sound [_] ?_ rfl rfl le_rfl fun _ _ _ isOwned => isOwned
      intro call member index
      rw [List.mem_singleton.mp member]
      trivial
  | decide request =>
      refine sound_extend sound [_] ?_ rfl rfl le_rfl fun _ _ _ isOwned => isOwned
      intro call member index
      rw [List.mem_singleton.mp member]
      refine ⟨rfl, ?_⟩
      intro applied isApplied
      cases isApplied
  | prepareStatement caller input request phase after table locks here ran =>
      exact sound_prepare_statement sound here ran rfl rfl rfl rfl
  | decideStatement caller input call after table here ran =>
      exact sound_decide_statement sound here ran rfl rfl rfl rfl
  | crash caller call after here stops => exact sound_crash sound here stops rfl rfl rfl rfl

/-! ## Committed rows -/

theorem prepare_step_rows {request : PrepareRequest} {phase after : PreparePhase}
    {table : ApprovalTable} {locks : Bool}
    (ran : PrepareStep service world caller request phase after table locks) :
    table.committed = world.rows ∨ table = world.table.commit caller := by
  cases ran with
  | tooWide wanted now => exact Or.inl (RowStore.rollback_committed _ _)
  | insert wanted now id executionId table inserted =>
      exact Or.inl (RowStore.insert_committed inserted)
  | notOne wanted error => exact Or.inl (RowStore.rollback_committed _ _)
  | lock wanted row grant table isGrant locked => exact Or.inl (RowStore.update_committed locked)
  | issue judgement rows table issues updated => exact Or.inl (RowStore.update_committed updated)
  | answer judgement keeps => exact Or.inr rfl
  | finish judgement => exact Or.inr rfl
  | _ => exact Or.inl rfl

theorem decide_step_rows {call after : DecideCall} {phase : DecidePhase} {input : Input}
    {table : ApprovalTable} (ran : DecideStep world caller call phase input after table) :
    table.committed = world.rows ∨ table = world.table.commit caller := by
  cases ran with
  | update decision now rows table storable updated => exact Or.inl (RowStore.update_committed updated)
  | lose decision now matchedAt => exact Or.inr rfl
  | win decision now matchedAt rowcount changed => exact Or.inr rfl
  | _ => exact Or.inl rfl

/-- No step takes a row away or back. -/
theorem rows_step {next : World} {label : Label} (sound : Sound service world)
    (stepped : (approvals service).step world label = some next) {row : ApprovalRequest}
    (member : row ∈ world.rows) : ∃ later ∈ next.rows, Advances row later := by
  have unchanged : ∀ {table : ApprovalTable} {caller : Nat},
      table.committed = world.rows ∨ table = world.table.commit caller →
        ∃ later ∈ table.committed, Advances row later := by
    rintro table caller (same | rfl)
    · exact ⟨row, by rw [same]; exact member, Advances.refl row⟩
    · exact RowStore.commit_advances Advances.refl sound.grows member
  cases world_step_of_step service world next label stepped with
  | prepareStatement caller input request phase after table locks here ran =>
      exact unchanged (prepare_step_rows ran)
  | decideStatement caller input call after table here ran =>
      exact unchanged (decide_step_rows ran)
  | crash caller call after here stops =>
      have same := RowStore.rollback_committed world.table caller
      exact ⟨row, by rw [World.rows, World.put, same]; exact member, Advances.refl row⟩
  | _ => exact ⟨row, member, Advances.refl row⟩

/-! ## Whole runs -/

/-- The rows of earlier releases, as the unique indexes left them. -/
structure Legacy (rows : List ApprovalRequest) : Prop where
  unstructured : ∀ row ∈ rows, row.grant = none
  apart : rows.Pairwise fun row other => conflict row other = false

theorem legacy_nil : Legacy [] := ⟨by simp, List.Pairwise.nil⟩

theorem sound_start (conversations : List Conversation) {legacy : List ApprovalRequest}
    (isLegacy : Legacy legacy) (clock : Int) :
    Sound service (World.start conversations legacy clock) where
  consistent := RowStore.consistent_of_rows isLegacy.apart
  minted := by
    intro slot member row isVersion grant isGrant
    obtain ⟨old, oldMem, rfl⟩ := List.mem_map.mp member
    have same : row = old := by simpa [Slot.versions] using isVersion
    rw [same, isLegacy.unstructured old oldMem] at isGrant
    cases isGrant
  held := by
    intro slot member caller row written
    obtain ⟨old, _, rfl⟩ := List.mem_map.mp member
    cases written
  calls := by
    intro caller call present
    simp [World.start] at present

theorem sound_from {labels : List Label} {final : World} (sound : Sound service world)
    (reached : (approvals service).run world labels = some final) : Sound service final :=
  (approvals service).run_invariant (Sound service)
    (fun _ _ _ isSound stepped => sound_step isSound stepped) sound reached

theorem rows_run {labels : List Label} {final : World} (sound : Sound service world)
    (reached : (approvals service).run world labels = some final) {row : ApprovalRequest}
    (member : row ∈ world.rows) : ∃ later ∈ final.rows, Advances row later := by
  have kept := (approvals service).run_invariant
    (fun state => Sound service state ∧ ∃ later ∈ state.rows, Advances row later)
    (fun state label next ⟨isSound, later, laterMem, advances⟩ stepped => by
      obtain ⟨version, versionMem, further⟩ := rows_step isSound stepped laterMem
      exact ⟨sound_step isSound stepped, version, versionMem, advances.trans further⟩)
    ⟨sound, row, member, Advances.refl row⟩ reached
  exact kept.2

theorem sound_run {conversations : List Conversation} {legacy : List ApprovalRequest}
    (isLegacy : Legacy legacy) {clock : Int} {labels : List Label} {final : World}
    (reached : (approvals service).run (World.start conversations legacy clock) labels =
      some final) : Sound service final :=
  sound_from (sound_start conversations isLegacy clock) reached

/-! ## A recorded history -/

namespace Recorded

/-- The service as the application starts it, for the one canonical text of this history. -/
def orderService : ExecutionService where
  operations := orderOperations
  digest := recordedDigest
    ("\x7b\"arguments\":\x7b\"orderId\":\"o-1\"\x7d,\"conversation_id\":\"c-1\"," ++
      "\"operation\":\"order.cancel\",\"tenant_id\":\"t-1\",\"user_id\":\"u-1\",\"version\":1\x7d")
    "c38c657b61fdcbc6fa5a3c3d4c6a3949b81f0bb001da08b47e6b3aa3b7088b67"
  ttlSeconds := 86400
  ttlPositive := by decide

theorem collision_free : orderService.CollisionFree :=
  recorded_collision_free _ _ _ _ _ (by decide)

def conversation : Conversation := ⟨"c-1", "t-1", "u-1", "thread-1"⟩

def cancel : PrepareRequest := ⟨"c-1", "u-1", "t-1", "order.cancel", [("orderId", .str "o-1")]⟩

def uuid (value : Fin 16) : Uuid where
  groups := [8, 4, 4, 4, 12].map fun width => List.replicate width value
  shape := by simp

def statements (index count : Nat) : List Label :=
  List.replicate count (.statement index .nothing)

def wanted : PrepareExecution where
  conversationId := "c-1"
  userId := "u-1"
  tenantId := "t-1"
  approvalKey := "c38c657b61fdcbc6fa5a3c3d4c6a3949b81f0bb001da08b47e6b3aa3b7088b67"
  operation := "order.cancel"
  arguments := [("orderId", .str "o-1")]
  ttlSeconds := 86400

/-- The row of the first insert, and what an approval at time 0 makes of it. -/
def grantRow : ApprovalRequest := newGrant wanted (uuid 1).text (uuid 2).text 0

def approvedRow : ApprovalRequest := applyDecision .approve "approver-1" 0 grantRow

def grant : ExecutionGrant :=
  ⟨(uuid 2).text, "order.cancel", [("orderId", .str "o-1")], 86400000000⟩

/-- A call of `prepare` with the identifiers it draws; `after` statements follow the insert. -/
def prepare (index : Nat) (value other : Fin 16) (after : Nat) : List Label :=
  .prepare cancel :: (statements index 2 ++ .statement index (.drawn (uuid value) (uuid other)) ::
    statements index after)

def decide (index : Nat) (decision : String) (now : Int) : List Label :=
  [.decide ⟨(uuid 1).text, decision, "approver-1", "t-1"⟩, .statement index (.host now)] ++
    statements index 3

/-- A grant is asked for, approved and used, and asked for again. -/
def approvedTwice : List Label :=
  prepare 0 1 2 3 ++ decide 1 "approve" 0 ++ prepare 2 3 4 4 ++ prepare 3 5 6 3

end Recorded

end AgentHarness.Approval
