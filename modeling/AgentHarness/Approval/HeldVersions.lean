import AgentHarness.Approval.GrantRows

/-!
# What open transactions hold

Every version that is not committed belongs to a call in the middle of its transaction, and the
phase of that call says which version it is and what the commit will put in its place.
-/

namespace AgentHarness.Approval

open AgentHarness.Library AgentHarness.Conversations AgentHarness.Executions ApprovalRequest

set_option autoImplicit false

/-- A row the insert of `prepare` may propose. -/
def Proposed (wanted : PrepareExecution) (row : ApprovalRequest) : Prop :=
  ∃ id executionId : Uuid, ∃ now,
    row = newGrant wanted id.text executionId.text now ∧ row.fitsColumns = true

theorem Proposed.is_grant_of {wanted : PrepareExecution} {row : ApprovalRequest}
    (proposed : Proposed wanted row) : isGrantOf wanted row = true := by
  obtain ⟨id, executionId, now, same, _⟩ := proposed
  rw [same]
  exact new_grant_is_grant_of wanted id.text executionId.text now

theorem Proposed.pending {wanted : PrepareExecution} {row : ApprovalRequest}
    (proposed : Proposed wanted row) : row.status = .pending := by
  obtain ⟨id, executionId, now, same, _⟩ := proposed
  rw [same]
  rfl

/-- The row a call has locked: a committed grant of its action, or the row it has just inserted. -/
def LockedAs (wanted : PrepareExecution) (row : ApprovalRequest)
    (committed : Option ApprovalRequest) (version : ApprovalRequest) : Prop :=
  version = row ∧ (committed = some row ∨ (committed = none ∧ Proposed wanted row))

/-- Why a call may hold a version over the committed one. -/
def HeldAs : GrantCall → Option ApprovalRequest → ApprovalRequest → Prop
  | .approval (.prepare _ (.inserted wanted)), committed, version =>
      committed = none ∧ Proposed wanted version
  | .approval (.prepare _ (.locked wanted row _)), committed, version =>
      LockedAs wanted row committed version
  | .approval (.prepare _ (.judged judgement)), committed, version =>
      LockedAs judgement.wanted judgement.row committed version
  | .approval (.prepare _ (.issued judgement)), committed, version =>
      committed = some judgement.row ∧ version = consume judgement.now judgement.row
  | .approval (.decide ⟨request, .updated decision now matchedAt rowcount, _, _⟩), committed,
      version =>
      rowcount ≠ 0 ∧ ∃ old, committed = some old ∧ isDecidable request matchedAt old = true ∧
        version = applyDecision decision request.decidedBy now old
  | .createPending _ (.inserted item), committed, version => committed = none ∧ version = item
  | .consumeApprovedGrant approvalId (.updated rows), committed, version =>
      ∃ now old, committed = some old ∧
        ApprovalRepository.isApprovedLegacy approvalId old = true ∧
        version = consume now old ∧ rows = [version]
  | _, _, _ => False

/-- The call can hold nothing in its phase. -/
def Idle (call : GrantCall) : Prop := ∀ committed version, ¬ HeldAs call committed version

/-- What a `prepare` call has locked, and for whom. -/
structure HasLocked (service : ExecutionService) (store : GrantStore) (caller : Nat)
    (request : PrepareRequest) (wanted : PrepareExecution) (row : ApprovalRequest)
    (grant : ExecutionGrant) (version : ApprovalRequest) : Prop where
  prepared : Prepared service store.world request wanted
  proposed : ∃ proposal, Proposed wanted proposal
  located : Located wanted row grant
  writes : Writes store.world caller version

/-- What the remaining statements of a call rely on. -/
def Expects (service : ExecutionService) (store : GrantStore) (caller : Nat) : GrantCall → Prop
  | .approval (.prepare request (.inserted wanted)) =>
      Prepared service store.world request wanted ∧ ∃ proposal, Proposed wanted proposal
  | .approval (.prepare request (.locked wanted row grant)) =>
      HasLocked service store caller request wanted row grant row
  | .approval (.prepare request (.judged judgement)) =>
      HasLocked service store caller request judgement.wanted judgement.row judgement.grant
        judgement.row
  | .approval (.prepare request (.issued judgement)) =>
      HasLocked service store caller request judgement.wanted judgement.row judgement.grant
        (consume judgement.now judgement.row) ∧ judgement.issues = true
  | .approval (.decide ⟨request, .started decision _, _, _⟩) =>
      Decision.ofText request.decision = some decision
  | .approval (.decide ⟨request, .updated decision _ _ rowcount, _, _⟩) =>
      Decision.ofText request.decision = some decision ∧ request.storable = true ∧
        (rowcount ≠ 0 → ∃ row, Writes store.world caller row)
  | .createPending arguments (.inserted item) =>
      (∃ id : Uuid, ∃ now, item = ApprovalRepository.legacyRow arguments id.text now) ∧
        item.fitsColumns = true ∧
        (∃ conversation ∈ store.conversations, conversation.id = item.conversationId) ∧
        Writes store.world caller item
  | .consumeApprovedGrant _ (.updated rows) =>
      rows ≠ [] → ∃ row, Writes store.world caller row
  | _ => True

structure Accounted (service : ExecutionService) (store : GrantStore) : Prop where
  lawful : Lawful service store
  held : ∀ slot ∈ store.table.slots, ∀ caller row, slot.writer = some (caller, row) →
    ∃ call, store.calls[caller]? = some call ∧ HeldAs call slot.committed row
  expects : ∀ caller call, store.calls[caller]? = some call → Expects service store caller call

section Effects

variable {service : ExecutionService} {store : GrantStore} {caller : Nat} {table : ApprovalTable}

/-- The call in its phase explains every version it has written in the table. -/
def Accounts (call : GrantCall) (caller : Nat) (table : ApprovalTable) : Prop :=
  ∀ slot ∈ table.slots, ∀ row, slot.writer = some (caller, row) → HeldAs call slot.committed row

theorem Accounted.accounts (accounted : Accounted service store) {call : GrantCall}
    (here : store.calls[caller]? = some call) : Accounts call caller store.table := by
  intro slot member row written
  have ⟨holder, same, heldAs⟩ := accounted.held slot member caller row written
  rw [here] at same
  cases same
  exact heldAs

theorem Accounts.unwritten {call : GrantCall} (accounts : Accounts call caller table)
    (idle : Idle call) {slot : Slot Nat ApprovalRequest} (member : slot ∈ table.slots)
    (row : ApprovalRequest) : slot.writer ≠ some (caller, row) := by
  intro written
  exact idle _ _ (accounts slot member row written)

theorem Accounts.of_idle {before : GrantCall} (accounts : Accounts before caller table)
    (idle : Idle before) (after : GrantCall) : Accounts after caller table := by
  intro slot member row written
  exact absurd written (accounts.unwritten idle member row)

theorem accounts_commit (call : GrantCall) (table : ApprovalTable) :
    Accounts call caller (table.commit caller) := by
  intro slot member row written
  exact absurd written (RowStore.commit_free member row)

theorem accounts_rollback (call : GrantCall) (table : ApprovalTable) :
    Accounts call caller (table.rollback caller) := by
  intro slot member row written
  exact absurd written (RowStore.rollback_free member row)

theorem accounts_insert {before after : GrantCall} {row : ApprovalRequest}
    (accounts : Accounts before caller store.table) (idle : Idle before)
    (inserted : RowStore.insertOnConflictDoNothing conflict store.table caller row =
      .inserted table)
    (explains : HeldAs after none row) : Accounts after caller table := by
  intro slot member version written
  rw [RowStore.insert_slots inserted, List.mem_append, List.mem_singleton] at member
  rcases member with old | added
  · exact absurd written (accounts.unwritten idle old version)
  · subst added
    cases written
    exact explains

/-- The rows an update of a call that held nothing has changed were the committed ones. -/
theorem accounts_update {before after : GrantCall} {wanted : ApprovalRequest → Bool}
    {change : ApprovalRequest → ApprovalRequest} {rows : List ApprovalRequest}
    (accounts : Accounts before caller store.table) (idle : Idle before)
    (updated : store.table.updateWhere caller wanted change = some (rows, table))
    (explains : ∀ old ∈ store.rows, wanted old = true → change old ∈ rows →
      HeldAs after (some old) (change old)) :
    Accounts after caller table := by
  intro slot member version written
  rcases RowStore.update_cases updated member with ⟨old, _⟩ | ⟨old, oldMem, row, seen, matched, same⟩
  · exact absurd written (accounts.unwritten idle old version)
  · subst same
    cases written
    have free := (RowStore.update_inversion updated).1 old oldMem row seen matched
    rcases Slot.visible_cases seen free with own | ⟨_, isCommitted⟩
    · exact absurd own (accounts.unwritten idle oldMem row)
    · have isRow : row ∈ store.rows :=
        (store.table.mem_committed_iff row).mpr ⟨old, oldMem, isCommitted⟩
      have reported : change row ∈ rows := by
        rw [(RowStore.update_inversion updated).2.1]
        exact List.mem_map_of_mem
          ((store.table.mem_select_iff _ _ _).mpr ⟨old, oldMem, seen, matched⟩)
      have held := explains row isRow matched reported
      rw [← isCommitted] at held
      exact held

/-- An update that reports a row has written one. -/
theorem writes_of_update {wanted : ApprovalRequest → Bool}
    {change : ApprovalRequest → ApprovalRequest} {rows : List ApprovalRequest}
    (updated : store.table.updateWhere caller wanted change = some (rows, table))
    {row : ApprovalRequest} (changed : row ∈ rows) (call : GrantCall) :
    Writes (store.put caller call table).world caller row := by
  rw [(RowStore.update_inversion updated).2.1, List.mem_map] at changed
  have ⟨old, selected, same⟩ := changed
  have ⟨slot, member, seen, matched⟩ := (store.table.mem_select_iff _ _ _).mp selected
  rw [← same]
  exact ⟨_, RowStore.update_writes updated member seen matched, rfl⟩

/-- Two versions that one transaction sees and that share an id are in one slot. -/
theorem Accounted.one_slot (accounted : Accounted service store)
    {left right : Slot Nat ApprovalRequest} (leftMem : left ∈ store.table.slots)
    (rightMem : right ∈ store.table.slots) {row other : ApprovalRequest}
    (isRow : row ∈ left.versions) (isOther : other ∈ right.versions)
    (clash : conflict row other = true) : left = right :=
  RowStore.same_slot conflict_comm accounted.lawful.consistent leftMem rightMem isRow isOther clash

/-! ## `prepare` -/

/-- The insert statement of `prepare`, with the widths it has checked. -/
theorem insert_statement_cases {request : PrepareRequest} {wanted : PrepareExecution} {now : Int}
    {input : Input} {after : PreparePhase} {locks : Bool}
    (ran : store.world.prepareStatement service caller request (.began wanted now) input =
      some (after, table, locks)) :
    (after = .raised .dataError ∧ table = store.table.rollback caller) ∨
      ∃ proposal, Proposed wanted proposal ∧ after = .inserted wanted ∧
        (table = store.table ∨
          RowStore.insertOnConflictDoNothing conflict store.table caller proposal =
            .inserted table) := by
  cases input with
  | nothing => cases ran
  | host clock => cases ran
  | drawn id executionId =>
      simp only [World.prepareStatement] at ran
      split_ifs at ran with tooWide
      · cases ran
        exact Or.inl ⟨rfl, rfl⟩
      · right
        refine ⟨newGrant wanted id.text executionId.text now,
          ⟨id, executionId, now, rfl, by simpa using tooWide⟩, ?_⟩
        split at ran
        · cases ran
        · cases ran
          exact ⟨rfl, Or.inl rfl⟩
        · rename_i inserted
          cases ran
          exact ⟨rfl, Or.inr inserted⟩

theorem selected_of_lock {wanted : PrepareExecution} {row : ApprovalRequest}
    (locked : store.table.lockWhere caller (isGrantOf wanted) = some ([row], table)) :
    store.table.select caller (isGrantOf wanted) = [row] := by
  have rows := (RowStore.update_inversion locked).2.1
  rw [List.map_id] at rows
  exact rows.symm

theorem accounts_lock {request : PrepareRequest} {wanted : PrepareExecution}
    {row : ApprovalRequest} {grant : ExecutionGrant}
    (accounts : Accounts (.approval (.prepare request (.inserted wanted))) caller store.table)
    (locked : store.table.lockWhere caller (isGrantOf wanted) = some ([row], table)) :
    Accounts (.approval (.prepare request (.locked wanted row grant))) caller table := by
  intro slot member version written
  rcases RowStore.update_cases locked member with ⟨old, unmatched⟩ | ⟨old, oldMem, seenRow, seen,
    matched, same⟩
  · -- the call's own insert matches, so it has been locked
    have isGrantOf := (accounts slot old version written).2.is_grant_of
    rw [unmatched version (Slot.visible_of_written written)] at isGrantOf
    cases isGrantOf
  · subst same
    cases written
    have isSelected := (store.table.mem_select_iff _ _ _).mpr ⟨old, oldMem, seen, matched⟩
    rw [selected_of_lock locked, List.mem_singleton] at isSelected
    subst isSelected
    have free := (RowStore.update_inversion locked).1 old oldMem seenRow seen matched
    rcases Slot.visible_cases seen free with own | ⟨_, isCommitted⟩
    · have ⟨uncommitted, proposed⟩ := accounts old oldMem _ own
      exact ⟨rfl, Or.inr ⟨uncommitted, proposed⟩⟩
    · exact ⟨rfl, Or.inl isCommitted⟩

theorem Accounted.judged_row (accounted : Accounted service store) {row : ApprovalRequest}
    (writes : Writes store.world caller row) {slot : Slot Nat ApprovalRequest}
    (member : slot ∈ store.table.slots) {version : ApprovalRequest}
    (seen : slot.visible caller = some version) (same : version.id = row.id) :
    slot.writer = some (caller, row) ∧ version = row := by
  have ⟨held, heldMem, written⟩ := writes
  have one := accounted.one_slot member heldMem (Slot.visible_mem_versions seen)
    (Slot.written_mem_versions written) (conflict_of_id same)
  subst one
  rw [Slot.visible_of_written written] at seen
  cases seen
  exact ⟨written, rfl⟩

theorem accounts_issue (accounted : Accounted service store) {request : PrepareRequest}
    {judgement : Judgement} {rows : List ApprovalRequest}
    (accounts : Accounts (.approval (.prepare request (.judged judgement))) caller store.table)
    (writes : Writes store.world caller judgement.row) (issues : judgement.issues = true)
    (updated : store.table.updateWhere caller (fun row => row.id = judgement.row.id)
      (consume judgement.now) = some (rows, table)) :
    Accounts (.approval (.prepare request (.issued judgement))) caller table := by
  have isApproved : judgement.row.status = .approved := by
    simp only [Judgement.issues, issuesAt, Bool.and_eq_true, decide_eq_true_eq] at issues
    exact issues.2
  intro slot member version written
  rcases RowStore.update_cases updated member with ⟨old, unmatched⟩ | ⟨old, oldMem, row, seen,
    matched, same⟩
  · -- the call holds its own row only, and that row has the id
    have isRow : version = judgement.row := (accounts slot old version written).1
    have missed := unmatched version (Slot.visible_of_written written)
    rw [isRow] at missed
    simp at missed
  · subst same
    cases written
    obtain ⟨own, isRow⟩ := accounted.judged_row writes oldMem seen (by simpa using matched)
    subst isRow
    rcases (accounts old oldMem _ own).2 with isCommitted | ⟨_, proposed⟩
    · exact ⟨isCommitted, rfl⟩
    · rw [proposed.pending] at isApproved
      cases isApproved

theorem issue_writes {judgement : Judgement} {rows : List ApprovalRequest}
    (writes : Writes store.world caller judgement.row)
    (updated : store.table.updateWhere caller (fun row => row.id = judgement.row.id)
      (consume judgement.now) = some (rows, table)) (call : GrantCall) :
    Writes (store.put caller call table).world caller (consume judgement.now judgement.row) := by
  have ⟨slot, member, written⟩ := writes
  have seen := Slot.visible_of_written written
  exact ⟨_, RowStore.update_writes updated member seen (by simp), rfl⟩

/-- A statement of `prepare` leaves a phase that explains what the call holds, and what the call
expects of the store it leaves. -/
theorem prepare_accounted (accounted : Accounted service store) {request : PrepareRequest}
    {phase after : PreparePhase} {input : Input} {locks : Bool}
    (here : store.calls[caller]? = some (.approval (.prepare request phase)))
    (ran : store.world.prepareStatement service caller request phase input =
      some (after, table, locks)) :
    Accounts (.approval (.prepare request after)) caller table ∧
      Expects service (store.put caller (.approval (.prepare request after)) table) caller
        (.approval (.prepare request after)) := by
  have accounts := accounted.accounts here
  have expects := accounted.expects caller _ here
  have knows := accounted.lawful.calls caller _ here
  cases prepare_statement_step _ _ _ _ _ _ _ _ _ ran with
  | refused error => exact ⟨accounts.of_idle (fun _ _ => id) _, trivial⟩
  | authorize row wanted owned authorized =>
      exact ⟨accounts.of_idle (fun _ _ => id) _, trivial⟩
  | begin wanted => exact ⟨accounts.of_idle (fun _ _ => id) _, trivial⟩
  | tooWide wanted now => exact ⟨accounts_rollback _ _, trivial⟩
  | conflicted wanted now =>
      rcases insert_statement_cases ran with ⟨raised, _⟩ | ⟨proposal, proposed, _, _⟩
      · cases raised
      · exact ⟨accounts.of_idle (fun _ _ => id) _, ⟨knows.authorized, knows.owned⟩, proposal,
          proposed⟩
  | insert wanted now id executionId table inserted =>
      rcases insert_statement_cases ran with ⟨raised, _⟩ | ⟨proposal, proposed, _, untouched | added⟩
      · cases raised
      · subst untouched
        exact ⟨accounts.of_idle (fun _ _ => False.elim) _, ⟨knows.authorized, knows.owned⟩,
          proposal, proposed⟩
      · exact ⟨accounts_insert accounts (fun _ _ => False.elim) added ⟨rfl, proposed⟩,
          ⟨knows.authorized, knows.owned⟩, proposal, proposed⟩
  | notOne wanted error => exact ⟨accounts_rollback _ _, trivial⟩
  | lock wanted row grant table isGrant locked =>
      have selected := selected_of_lock locked
      have isSelected : row ∈ store.table.select caller (isGrantOf wanted) := by
        rw [selected]
        exact List.mem_singleton_self row
      have ⟨slot, member, seen, matched⟩ := (store.table.mem_select_iff _ _ _).mp isSelected
      have ⟨prepared, proposed⟩ := expects
      exact ⟨accounts_lock accounts locked, ⟨prepared.authorized, prepared.owned⟩, proposed,
        ⟨matched, isGrant⟩, _, RowStore.update_writes locked member seen matched, rfl⟩
  | readClock wanted row grant =>
      exact ⟨accounts, ⟨expects.prepared.authorized, expects.prepared.owned⟩, expects.proposed,
        expects.located, expects.writes⟩
  | issue judgement rows table issues updated =>
      exact ⟨accounts_issue accounted accounts expects.writes issues updated,
        ⟨⟨expects.prepared.authorized, expects.prepared.owned⟩, expects.proposed, expects.located,
          issue_writes expects.writes updated _⟩, issues⟩
  | answer judgement keeps => exact ⟨accounts_commit _ _, trivial⟩
  | finish judgement => exact ⟨accounts_commit _ _, trivial⟩

/-! ## The other calls -/

theorem decide_accounted (accounted : Accounted service store) {call after : DecideCall}
    {input : Input} (here : store.calls[caller]? = some (.approval (.decide call)))
    (ran : store.world.decideStatement caller call call.phase input = some (after, table)) :
    Accounts (.approval (.decide after)) caller table ∧
      Expects service (store.put caller (.approval (.decide after)) table) caller
        (.approval (.decide after)) := by
  have accounts := accounted.accounts here
  have expects := accounted.expects caller _ here
  obtain ⟨request, phase, applied, missing⟩ := call
  cases decide_statement_step _ _ _ _ _ _ _ ran with
  | unknown now other => exact ⟨accounts.of_idle (fun _ _ => id) _, trivial⟩
  | start decision now known => exact ⟨accounts.of_idle (fun _ _ => id) _, known⟩
  | unstorable decision now refused => exact ⟨accounts.of_idle (fun _ _ => id) _, trivial⟩
  | update decision now rows table storable updated =>
      constructor
      · apply accounts_update accounts (fun _ _ => id) updated
        intro old isOld matched reported
        exact ⟨(List.length_pos_of_mem reported).ne', old, rfl, matched, rfl⟩
      · refine ⟨expects, storable, ?_⟩
        intro changed
        have ⟨row, isRow⟩ := List.exists_mem_of_length_pos (Nat.pos_of_ne_zero changed)
        exact ⟨row, writes_of_update updated isRow _⟩
  | lose decision now matchedAt => exact ⟨accounts_commit _ _, trivial⟩
  | win decision now matchedAt rowcount changed => exact ⟨accounts_commit _ _, trivial⟩
  | gone absent => exact ⟨accounts.of_idle (fun _ _ => id) _, trivial⟩
  | answer row found => exact ⟨accounts.of_idle (fun _ _ => id) _, trivial⟩
  | notFound absent => exact ⟨accounts.of_idle (fun _ _ => id) _, trivial⟩
  | otherTenant row found other => exact ⟨accounts.of_idle (fun _ _ => id) _, trivial⟩
  | reread row found own => exact ⟨accounts.of_idle (fun _ _ => id) _, trivial⟩
  | refuse row now => exact ⟨accounts.of_idle (fun _ _ => id) _, trivial⟩

/-- A plain insert of `create_pending`, with what it has checked. -/
theorem create_insert_cases {arguments : CreatePending} {now : Int} {input : Input}
    {after : CreatePhase}
    (ran : store.createStatement caller arguments (.stamped now) input = some (after, table)) :
    ((after = .raised .dataError ∨ after = .refused) ∧ table = store.table.rollback caller) ∨
      ∃ id : Uuid, ∃ item, item = ApprovalRepository.legacyRow arguments id.text now ∧
        item.fitsColumns = true ∧ after = .inserted item ∧
        (∃ conversation ∈ store.conversations, conversation.id = item.conversationId) ∧
        RowStore.insertOnConflictDoNothing conflict store.table caller item = .inserted table := by
  cases input with
  | nothing => cases ran
  | host clock => cases ran
  | drawn id other =>
      simp only [GrantStore.createStatement] at ran
      split at ran
      · cases ran
        exact Or.inl ⟨Or.inl rfl, rfl⟩
      · rename_i narrow
        split at ran
        · cases ran
        · cases ran
          exact Or.inl ⟨Or.inr rfl, rfl⟩
        · rename_i inserted
          split at ran
          · rename_i known
            cases ran
            right
            refine ⟨id, _, rfl, by simpa using narrow, rfl, ?_, inserted⟩
            simpa using known
          · cases ran
            exact Or.inl ⟨Or.inr rfl, rfl⟩

theorem create_accounted (accounted : Accounted service store) {arguments : CreatePending}
    {phase after : CreatePhase} {input : Input}
    (here : store.calls[caller]? = some (.createPending arguments phase))
    (ran : store.createStatement caller arguments phase input = some (after, table)) :
    Accounts (.createPending arguments after) caller table ∧
      Expects service (store.put caller (.createPending arguments after) table) caller
        (.createPending arguments after) := by
  have accounts := accounted.accounts here
  cases create_statement_step _ _ ran with
  | stamp now => exact ⟨accounts.of_idle (fun _ _ => id) _, trivial⟩
  | tooWide now => exact ⟨accounts_rollback _ _, trivial⟩
  | refuse now => exact ⟨accounts_rollback _ _, trivial⟩
  | insert now drawn table _ =>
      rcases create_insert_cases ran with ⟨raised | refused, _⟩ |
        ⟨id, item, isItem, narrow, same, known, inserted⟩
      · cases raised
      · cases refused
      · cases same
        refine ⟨accounts_insert accounts (fun _ _ => False.elim) inserted ⟨rfl, rfl⟩,
          ⟨id, now, isItem⟩, narrow, known, ?_⟩
        refine ⟨{ committed := none, writer := some (caller, _) }, ?_, rfl⟩
        have slots := RowStore.insert_slots inserted
        simp only [GrantStore.put, GrantStore.world]
        rw [slots]
        exact List.mem_append_right _ (List.mem_singleton_self _)
  | finish item => exact ⟨accounts_commit _ _, trivial⟩
  | existing row => exact ⟨accounts.of_idle (fun _ _ => id) _, trivial⟩
  | fail => exact ⟨accounts.of_idle (fun _ _ => id) _, trivial⟩

/-- A row that one id names is the whole answer of an update on that id. -/
theorem Accounted.update_on_id (accounted : Accounted service store)
    {wanted : ApprovalRequest → Bool} {change : ApprovalRequest → ApprovalRequest}
    {rows : List ApprovalRequest} {approvalId : String}
    (named : ∀ row, wanted row = true → row.id = approvalId)
    (updated : store.table.updateWhere caller wanted change = some (rows, table))
    {row : ApprovalRequest} (reported : row ∈ rows) : rows = [row] := by
  have apart := RowStore.select_apart accounted.lawful.consistent caller wanted
  rw [(RowStore.update_inversion updated).2.1] at reported ⊢
  have same : ∀ old ∈ store.table.select caller wanted, old.id = approvalId := by
    intro old selected
    exact named old (List.of_mem_filter selected)
  match selected : store.table.select caller wanted with
  | [] =>
      rw [selected] at reported
      cases reported
  | [only] =>
      rw [selected, List.map_singleton, List.mem_singleton] at reported
      rw [reported, List.map_singleton]
  | first :: second :: rest =>
      rw [selected] at apart same
      have clear := List.rel_of_pairwise_cons apart List.mem_cons_self
      have firstId := same first List.mem_cons_self
      have secondId := same second (List.mem_cons_of_mem _ List.mem_cons_self)
      rw [conflict_of_id (firstId.trans secondId.symm)] at clear
      cases clear

theorem consume_accounted (accounted : Accounted service store) {approvalId : String}
    {phase after : ConsumePhase} {input : Input}
    (here : store.calls[caller]? = some (.consumeApprovedGrant approvalId phase))
    (ran : store.consumeStatement caller approvalId phase input = some (after, table)) :
    Accounts (.consumeApprovedGrant approvalId after) caller table ∧
      Expects service (store.put caller (.consumeApprovedGrant approvalId after) table) caller
        (.consumeApprovedGrant approvalId after) := by
  have accounts := accounted.accounts here
  cases consume_statement_step _ _ ran with
  | stamp now => exact ⟨accounts.of_idle (fun _ _ => id) _, trivial⟩
  | unstorable now => exact ⟨accounts_rollback _ _, trivial⟩
  | update now rows table updated =>
      have named : ∀ row, ApprovalRepository.isApprovedLegacy approvalId row = true →
          row.id = approvalId := by
        intro row matched
        simp only [ApprovalRepository.isApprovedLegacy, Bool.and_eq_true, decide_eq_true_eq]
          at matched
        exact matched.1.1
      constructor
      · apply accounts_update accounts (fun _ _ => id) updated
        intro old isOld matched reported
        exact ⟨now, old, rfl, matched, rfl, accounted.update_on_id named updated reported⟩
      · intro changed
        obtain ⟨row, isRow⟩ := List.exists_mem_of_ne_nil rows changed
        exact ⟨row, writes_of_update updated isRow _⟩
  | finish rows => exact ⟨accounts_commit _ _, trivial⟩

end Effects

/-! ## Every run -/

section Runs

variable {service : ExecutionService} {store next : GrantStore} {caller : Nat}
  {table : ApprovalTable}

theorem crashed_expects {call after : GrantCall} (stops : GrantStore.crashed call = some after) :
    Expects service next caller after := by
  unfold GrantStore.crashed at stops
  split at stops
  · have ⟨stopped, isStopped, same⟩ := Option.map_eq_some_iff.mp stops
    subst same
    unfold World.crashed at isStopped
    split at isStopped
    · cases isStopped
    · cases isStopped
    · cases isStopped
    · cases isStopped
      trivial
    · split at isStopped
      · cases isStopped
      · cases isStopped
      · cases isStopped
      · cases isStopped
        trivial
  · cases stops
  · cases stops
  · cases stops
  · cases stops
    trivial
  · cases stops
  · cases stops
  · cases stops
  · cases stops
    trivial

/-- What a call expects outlives the steps of the others. -/
theorem expects_later {call : GrantCall}
    (conversations : ∀ row ∈ store.conversations, row ∈ next.conversations)
    (owned : ∀ conversationId tenantId userId,
      store.world.Owned conversationId tenantId userId →
        next.world.Owned conversationId tenantId userId)
    (writes : ∀ row, Writes store.world caller row → Writes next.world caller row)
    (expects : Expects service store caller call) : Expects service next caller call := by
  have locked : ∀ {request wanted row grant version},
      HasLocked service store caller request wanted row grant version →
        HasLocked service next caller request wanted row grant version := by
    intro request wanted row grant version locked
    exact ⟨locked.prepared.later owned, locked.proposed, locked.located, writes _ locked.writes⟩
  unfold Expects at expects ⊢
  split at expects
  · exact ⟨expects.1.later owned, expects.2⟩
  · exact locked expects
  · exact locked expects
  · exact ⟨locked expects.1, expects.2⟩
  · exact expects
  · have ⟨known, storable, changed⟩ := expects
    refine ⟨known, storable, fun some => ?_⟩
    have ⟨row, isWritten⟩ := changed some
    exact ⟨row, writes row isWritten⟩
  · have ⟨isItem, narrow, ⟨conversation, member, named⟩, isWritten⟩ := expects
    exact ⟨isItem, narrow, ⟨conversation, conversations conversation member, named⟩,
      writes _ isWritten⟩
  · intro changed
    have ⟨row, isWritten⟩ := expects changed
    exact ⟨row, writes row isWritten⟩
  · trivial

theorem call_accounted (accounted : Accounted service store) {before after : GrantCall}
    {input : Input} (here : store.calls[caller]? = some before)
    (ran : store.callStatement service caller input before = some (after, table)) :
    Accounts after caller table ∧ Expects service (store.put caller after table) caller after := by
  cases before with
  | approval call =>
      cases call with
      | prepare request phase =>
          have ⟨⟨next, written, locks⟩, statement, same⟩ := Option.map_eq_some_iff.mp ran
          cases same
          exact prepare_accounted accounted here statement
      | decide call =>
          have ⟨⟨next, written⟩, statement, same⟩ := Option.map_eq_some_iff.mp ran
          cases same
          exact decide_accounted accounted here statement
  | createPending arguments phase =>
      have ⟨⟨next, written⟩, statement, same⟩ := Option.map_eq_some_iff.mp ran
      cases same
      exact create_accounted accounted here statement
  | consumeApprovedGrant approvalId phase =>
      have ⟨⟨next, written⟩, statement, same⟩ := Option.map_eq_some_iff.mp ran
      cases same
      exact consume_accounted accounted here statement

theorem accounted_put (accounted : Accounted service store) {before after : GrantCall}
    (here : store.calls[caller]? = some before)
    (ran : GrantCallStep service store caller before after table)
    (accounts : Accounts after caller table)
    (expects : Expects service (store.put caller after table) caller after) :
    Accounted service (store.put caller after table) where
  lawful := lawful_put accounted.lawful here ran
  held := by
    have transition :=
      (call_table_step accounted.lawful (accounted.lawful.calls caller before here) ran).transition
    have inRange := (List.getElem?_eq_some_iff.mp here).1
    intro slot member other row written
    simp only [GrantStore.put] at member ⊢
    by_cases same : other = caller
    · subst same
      exact ⟨after, List.getElem?_set_self inRange, accounts slot member row written⟩
    · obtain ⟨call, present, heldAs⟩ := accounted.held slot
        (transition.others slot member other row same written) other row written
      exact ⟨call, by rw [List.getElem?_set_ne (Ne.symm same)]; exact present, heldAs⟩
  expects := by
    have transition :=
      (call_table_step accounted.lawful (accounted.lawful.calls caller before here) ran).transition
    intro other call present
    simp only [GrantStore.put] at present
    by_cases same : other = caller
    · subst same
      rw [List.getElem?_set_self (List.getElem?_eq_some_iff.mp here).1] at present
      cases present
      exact expects
    · rw [List.getElem?_set_ne (Ne.symm same)] at present
      apply expects_later _ _ _ (accounted.expects other call present)
      · exact fun _ member => member
      · exact fun _ _ _ owned => owned
      · intro row writes
        obtain ⟨slot, member, written⟩ := writes
        exact ⟨slot, transition.kept slot member other row same written, written⟩

theorem accounted_step (accounted : Accounted service store) {label : GrantLabel}
    (stepped : (grantStore service).step store label = some next) : Accounted service next := by
  have lawful := lawful_step accounted.lawful stepped
  cases label with
  | tick duration =>
      cases stepped
      refine ⟨lawful, accounted.held, ?_⟩
      intro caller call present
      apply expects_later _ _ _ (accounted.expects caller call present)
      · exact fun _ member => member
      · exact fun _ _ _ owned => owned
      · exact fun _ writes => writes
  | createConversation row =>
      have ⟨conversations, created, same⟩ := Option.map_eq_some_iff.mp stepped
      subst same
      refine ⟨lawful, accounted.held, ?_⟩
      intro caller call present
      apply expects_later _ _ _ (accounted.expects caller call present)
      · intro conversation member
        unfold ConversationRepository.create at created
        split_ifs at created
        cases created
        exact List.mem_append_left _ member
      · intro conversationId tenantId userId owned
        have ⟨found, isFound⟩ := owned
        exact ⟨found, ConversationRepository.get_owned_create isFound created⟩
      · exact fun _ writes => writes
  | call operation =>
      cases stepped
      refine ⟨lawful, ?_, ?_⟩
      · intro slot member caller row written
        have ⟨call, present, heldAs⟩ := accounted.held slot member caller row written
        have inRange := (List.getElem?_eq_some_iff.mp present).1
        exact ⟨call, by rw [List.getElem?_append_left inRange]; exact present, heldAs⟩
      · intro caller call present
        by_cases inRange : caller < store.calls.length
        · rw [List.getElem?_append_left inRange] at present
          apply expects_later _ _ _ (accounted.expects caller call present)
          · exact fun _ member => member
          · exact fun _ _ _ owned => owned
          · exact fun _ writes => writes
        · rw [List.getElem?_append_right (by omega)] at present
          have isAdded := List.mem_singleton.mp (List.mem_of_getElem? present)
          rw [isAdded]
          cases operation <;> trivial
  | statement caller input =>
      have ⟨before, here, rest⟩ := Option.bind_eq_some_iff.mp stepped
      have ⟨⟨after, table⟩, ran, same⟩ := Option.map_eq_some_iff.mp rest
      subst same
      have ⟨accounts, expects⟩ := call_accounted accounted here ran
      exact accounted_put accounted here (call_statement_step ran) accounts expects
  | crash caller =>
      have ⟨before, here, rest⟩ := Option.bind_eq_some_iff.mp stepped
      have ⟨after, stops, same⟩ := Option.map_eq_some_iff.mp rest
      subst same
      exact accounted_put accounted here (.crash before after _ stops rfl)
        (accounts_rollback after store.table) (crashed_expects stops)

theorem accounted_start (service : ExecutionService) (conversations : List Conversation)
    (clock : Int) : Accounted service (.start conversations clock) where
  lawful := lawful_start service conversations clock
  held := by
    intro slot member
    cases member
  expects := by
    intro caller call present
    cases present

theorem accounted_run {conversations : List Conversation} {clock : Int}
    {labels : List GrantLabel}
    (reached : (grantStore service).run (.start conversations clock) labels = some store) :
    Accounted service store :=
  (grantStore service).run_invariant (Accounted service)
    (fun _ _ _ accounted stepped => accounted_step accounted stepped)
    (accounted_start service conversations clock) reached

end Runs

end AgentHarness.Approval
