import AgentHarness.Approval.HeldVersions
import AgentHarness.Approval.SerialStore

/-!
# Concurrent calls are serializable

A call that changes the table takes effect at one of its own statements, all of it at once: the
commit, or the update that has found nothing to change. The rows a run leaves, and the answers it
gives, are those of the calls made one at a time in that order.
-/

namespace AgentHarness.Approval

open AgentHarness.Library AgentHarness.Conversations AgentHarness.Executions ApprovalRequest

set_option autoImplicit false

/-- The calls that may take effect at a label: none, or the one whose statement it is. -/
def TakesEffect : GrantLabel → List SerialLabel → Prop
  | .createConversation row, block => block = [.createConversation row]
  | .statement caller _, block => block = [] ∨ ∃ call, block = [.call caller call]
  | .tick _, block | .call _, block | .crash _, block => block = []

namespace DecidePhase

/-- The phases behind the commit of an update that changed a row. -/
def settled : DecidePhase → Bool
  | .won | .returned _ | .raised _ | .crashed => true
  | _ => false

/-- The phases that no other call comes to. -/
def succeeded : DecidePhase → Bool
  | .won | .returned _ => true
  | _ => false

end DecidePhase

/-- What has been served for a call in its phase, over the committed rows: its one answer once it
has taken effect, and nothing as long as it has not. -/
def Serves (rows : List ApprovalRequest) : GrantCall → List (StoreCall × Answer) → Prop
  | .approval (.prepare request (.returned judgement)), served =>
      ∃ id executionId : Uuid, ∃ now,
        served = [(.prepare request id executionId now judgement.now,
          .decision (.ok judgement.decision))]
  | .approval (.decide ⟨_, phase, none, _⟩), served =>
      served = [] ∧ phase.succeeded = false
  | .approval (.decide ⟨request, phase, some applied, _⟩), served =>
      phase.settled = true ∧ ∃ row rereadAt,
        served = [(.decide request applied.decidedAt applied.matchedAt rereadAt,
          .row (.ok row))] ∧
        row.id = request.approvalId ∧ (∃ current ∈ rows, Advances row current) ∧
        ∀ returned, phase = .returned returned → Advances row returned
  | .createPending arguments (.returned row), served =>
      served = [] ∨ ∃ id now, served = [(.createPending arguments id now, .row (.ok row))]
  | .consumeApprovedGrant approvalId (.returned row), served =>
      ∃ now, served = [(.consumeApprovedGrant approvalId now, .consumed row)]
  | .consumeApprovedGrant approvalId (.updated []), served =>
      ∃ now, served = [(.consumeApprovedGrant approvalId now, .consumed none)]
  | .consumeApprovedGrant approvalId .crashed, served =>
      served = [] ∨ ∃ now, served = [(.consumeApprovedGrant approvalId now, .consumed none)]
  | _, served => served = []

structure Serializes (service : ExecutionService) (store : GrantStore)
    (serial : Store × List Served) : Prop where
  accounted : Accounted service store
  conversations : serial.1.conversations = store.conversations
  rows : serial.1.rows.Perm store.rows
  serves : ∀ caller call, store.calls[caller]? = some call →
    Serves store.rows call (servedFor caller serial.2)
  begun : ∀ entry ∈ serial.2, entry.caller < store.calls.length

section Steps

variable {service : ExecutionService} {store next : GrantStore} {serial : Store × List Served}
  {caller : Nat} {table : ApprovalTable}

/-! ## The two kinds of statements -/

theorem serves_later {rows later : List ApprovalRequest} {call : GrantCall}
    {given : List (StoreCall × Answer)}
    (advanced : ∀ row ∈ rows, ∃ version ∈ later, Advances row version)
    (serves : Serves rows call given) : Serves later call given := by
  unfold Serves at serves ⊢
  split at serves
  · exact serves
  · exact serves
  · have ⟨settled, row, rereadAt, same, isId, ⟨current, member, advances⟩, returned⟩ := serves
    have ⟨version, isLater, moved⟩ := advanced current member
    exact ⟨settled, row, rereadAt, same, isId, ⟨version, isLater, advances.trans moved⟩, returned⟩
  · exact serves
  · exact serves
  · exact serves
  · exact serves
  · exact serves

/-- A statement that changes no committed row, and after which as much has been served as before. -/
theorem serializes_silent (serializes : Serializes service store serial) {before after : GrantCall}
    (accounted : Accounted service (store.put caller after table))
    (here : store.calls[caller]? = some before) (rows : table.committed = store.rows)
    (serves : Serves store.rows after (servedFor caller serial.2)) :
    Serializes service (store.put caller after table) serial where
  accounted := accounted
  conversations := serializes.conversations
  rows := by
    simp only [GrantStore.rows, GrantStore.put, rows]
    exact serializes.rows
  serves := by
    intro other call present
    simp only [GrantStore.rows, GrantStore.put] at present ⊢
    rw [rows]
    by_cases same : other = caller
    · subst same
      rw [List.getElem?_set_self (List.getElem?_eq_some_iff.mp here).1] at present
      cases present
      exact serves
    · rw [List.getElem?_set_ne (Ne.symm same)] at present
      exact serializes.serves other call present
  begun := by
    intro entry member
    simp only [GrantStore.put, List.length_set]
    exact serializes.begun entry member

/-- A statement at which the call takes effect. -/
theorem serializes_effect (serializes : Serializes service store serial) {before after : GrantCall}
    (accounted : Accounted service (store.put caller after table))
    (here : store.calls[caller]? = some before)
    (advanced : ∀ row ∈ store.rows, ∃ version ∈ table.committed, Advances row version)
    {call : StoreCall} {answer : Answer} {rows : List ApprovalRequest}
    (answered : serial.1.answer service call = (answer, rows))
    (same : rows.Perm table.committed) (unserved : servedFor caller serial.2 = [])
    (serves : Serves table.committed after [(call, answer)]) :
    ∃ final, (servedStore service).run serial [.call caller call] = some final ∧
      Serializes service (store.put caller after table) final := by
  refine ⟨_, served_call service serial.1 serial.2 caller call, ?_⟩
  rw [answered]
  constructor
  · exact accounted
  · exact serializes.conversations
  · exact same
  · intro other call present
    simp only [GrantStore.rows, GrantStore.put] at present ⊢
    by_cases own : other = caller
    · subst own
      rw [List.getElem?_set_self (List.getElem?_eq_some_iff.mp here).1] at present
      cases present
      rw [served_for_same, unserved, List.nil_append]
      exact serves
    · rw [List.getElem?_set_ne (Ne.symm own)] at present
      rw [served_for_other own]
      exact serves_later advanced (serializes.serves other call present)
  · intro entry member
    simp only [GrantStore.put, List.length_set]
    rw [List.mem_append, List.mem_singleton] at member
    rcases member with earlier | added
    · exact serializes.begun entry earlier
    · rw [added]
      exact (List.getElem?_eq_some_iff.mp here).1

/-! ## What a commit does to the committed rows -/

/-- A committed row in conflict with what a call has written is in the slot it has written. -/
theorem written_slot (accounted : Accounted service store) {slot other : Slot Nat ApprovalRequest}
    {row version : ApprovalRequest} (member : slot ∈ store.table.slots)
    (otherMem : other ∈ store.table.slots) (written : slot.writer = some (caller, version))
    (isCommitted : other.committed = some row) (clash : conflict row version = true) :
    other = slot :=
  accounted.one_slot otherMem member (Slot.committed_mem_versions isCommitted)
    (Slot.written_mem_versions written) clash

theorem clear_rows (accounted : Accounted service store) : ApprovalRepository.Clear store.rows :=
  RowStore.committed_apart accounted.lawful.consistent

/-- The commit of updated rows is the update of the committed ones. -/
theorem commit_of_update {change : ApprovalRequest → ApprovalRequest}
    (updated : ∀ slot ∈ store.table.slots, ∀ version, slot.writer = some (caller, version) →
      ∃ old, slot.committed = some old ∧ version = change old)
    (kept : ∀ slot ∈ store.table.slots, slot.writtenBy caller = none →
      ∀ old, slot.committed = some old → change old = old) :
    (store.table.commit caller).committed = store.rows.map change := by
  apply RowStore.committed_commit_of_map
  intro slot member
  cases written : slot.writtenBy caller with
  | none =>
      have same : slot.commit caller = slot := by simp only [Slot.commit, written]
      rw [same]
      cases isCommitted : slot.committed with
      | none => rfl
      | some old => rw [Option.map_some, kept slot member written old isCommitted]
  | some version =>
      obtain ⟨old, isCommitted, isVersion⟩ :=
        updated slot member version ((slot.written_by_eq_some_iff _ _).mp written)
      simp only [Slot.commit, written, isCommitted, Option.map_some, isVersion]

/-- The commit of an insert adds its row. -/
theorem commit_of_insert (accounted : Accounted service store)
    {slot : Slot Nat ApprovalRequest} {row : ApprovalRequest} (member : slot ∈ store.table.slots)
    (written : slot.writer = some (caller, row)) (uncommitted : slot.committed = none)
    (only : ∀ other ∈ store.table.slots, ∀ version, other.writer = some (caller, version) →
      version = row) :
    (store.rows ++ [row]).Perm (store.table.commit caller).committed := by
  have fresh : ∀ other ∈ store.table.slots, ∀ version, other.committed = some version →
      conflict version row = false := by
    intro other otherMem version isCommitted
    by_contra clash
    have same := written_slot accounted member otherMem written isCommitted (by simpa using clash)
    rw [same, uncommitted] at isCommitted
    cases isCommitted
  have apartBefore : ApprovalRepository.Clear (store.rows ++ [row]) := by
    apply List.pairwise_append.mpr
    refine ⟨clear_rows accounted, List.pairwise_singleton _ _, ?_⟩
    intro version isVersion added single
    rw [List.mem_singleton.mp single]
    have ⟨other, otherMem, isCommitted⟩ := (store.table.mem_committed_iff version).mp isVersion
    exact fresh other otherMem version isCommitted
  have apartAfter : ApprovalRepository.Clear (store.table.commit caller).committed :=
    RowStore.committed_apart
      (RowStore.consistent_commit conflict_comm accounted.lawful.consistent)
  apply (List.perm_ext_iff_of_nodup apartBefore.nodup apartAfter.nodup).mpr
  intro version
  rw [List.mem_append, List.mem_singleton, RowStore.mem_committed_commit_iff]
  constructor
  · rintro (before | added)
    · have ⟨other, otherMem, isCommitted⟩ := (store.table.mem_committed_iff version).mp before
      left
      refine ⟨other, otherMem, ?_, isCommitted⟩
      cases isWritten : other.writtenBy caller with
      | none => rfl
      | some own =>
          have writer := (other.written_by_eq_some_iff _ _).mp isWritten
          have same := only other otherMem own writer
          have one := accounted.one_slot otherMem member (Slot.written_mem_versions writer)
            (Slot.written_mem_versions written) (conflict_of_id (by rw [same]))
          rw [one, uncommitted] at isCommitted
          cases isCommitted
    · rw [added]
      exact Or.inr ⟨slot, member, written⟩
  · rintro (⟨other, otherMem, _, isCommitted⟩ | ⟨other, otherMem, isWritten⟩)
    · exact Or.inl ((store.table.mem_committed_iff version).mpr ⟨other, otherMem, isCommitted⟩)
    · exact Or.inr (only other otherMem version isWritten)

/-! ## `prepare` -/

theorem answer_prepare (serializes : Serializes service store serial) {request : PrepareRequest}
    {wanted : PrepareExecution} (prepared : Prepared service store.world request wanted)
    (id executionId : Uuid) (now later : Int) {result : Except Raised ExecutionDecision}
    {rows : List ApprovalRequest}
    (ran : ApprovalRepository.prepareExecution serial.1.rows wanted id.text executionId.text now
      later = (result, rows)) :
    serial.1.answer service (.prepare request id executionId now later) =
      (.decision result, rows) := by
  have ⟨found, owned⟩ := prepared.owned
  have wantedBy : serial.1.wantedBy service request = .ok wanted := by
    have owned : ConversationRepository.getOwned store.conversations request.conversationId
      request.tenantId request.userId = some found := owned
    simp only [Store.wantedBy, serializes.conversations, owned, prepared.authorized]
  simp only [Store.answer, Store.prepare, wantedBy, ran]

/-- The row a call has locked, in the slot it was found in. -/
theorem locked_slot {wanted : PrepareExecution} {row : ApprovalRequest}
    (locked : ∀ slot ∈ store.table.slots, ∀ version, slot.writer = some (caller, version) →
      LockedAs wanted row slot.committed version)
    (writes : Writes store.world caller row) :
    ∃ slot ∈ store.table.slots, slot.writer = some (caller, row) ∧
      (slot.committed = some row ∨ (slot.committed = none ∧ Proposed wanted row)) := by
  have ⟨slot, member, written⟩ := writes
  exact ⟨slot, member, written, (locked slot member row written).2⟩

/-- The commit of a call that has only read its grant: what the atomic call answers, and that it
leaves the same rows, whether the grant was there before or is the call's own insert. -/
theorem prepare_commit (serializes : Serializes service store serial) {request : PrepareRequest}
    {wanted : PrepareExecution} {row : ApprovalRequest} {grant : ExecutionGrant} {now : Int}
    (locked : ∀ slot ∈ store.table.slots, ∀ version, slot.writer = some (caller, version) →
      LockedAs wanted row slot.committed version)
    (has : HasLocked service store caller request wanted row grant row)
    (keeps : row.issuesAt grant now = false) :
    ∃ id executionId : Uuid, ∃ drawnAt rows,
      serial.1.answer service (.prepare request id executionId drawnAt now) =
        (.decision (.ok (row.executionDecision grant now)), rows) ∧
      rows.Perm (store.table.commit caller).committed := by
  have accounted := serializes.accounted
  have ⟨slot, member, written, held⟩ := locked_slot locked has.writes
  have isVersion := Slot.written_mem_versions written
  rcases held with isCommitted | ⟨uncommitted, id, executionId, drawnAt, isProposal, narrow⟩
  · have ⟨proposal, drawn, executionId, drawnAt, isProposal, narrow⟩ := has.proposed
    rw [isProposal] at narrow
    have isRow : row ∈ serial.1.rows :=
      serializes.rows.mem_iff.mpr ((store.table.mem_committed_iff row).mpr
        ⟨slot, member, isCommitted⟩)
    have ran := ApprovalRepository.prepare_existing
      ((clear_rows accounted).perm serializes.rows.symm) isRow has.located.isGrantOf
      has.located.grant drawn.text executionId.text drawnAt now narrow
    rw [keeps] at ran
    refine ⟨drawn, executionId, drawnAt, serial.1.rows,
      answer_prepare serializes has.prepared drawn executionId drawnAt now ran, ?_⟩
    -- the locked version is the committed one, so the commit puts it in its own place
    have same : (store.table.commit caller).committed = store.rows.map fun other => other := by
      apply commit_of_update
      · intro other otherMem version isWritten
        have own := (locked other otherMem version isWritten).1
        subst own
        rw [accounted.one_slot otherMem member (Slot.written_mem_versions isWritten) isVersion
          (conflict_of_id rfl)]
        exact ⟨version, isCommitted, rfl⟩
      · exact fun _ _ _ _ _ => rfl
    rw [same, List.map_id']
    exact serializes.rows
  · have free : ∀ other ∈ serial.1.rows, conflict row other = false := by
      intro other isOther
      have ⟨otherSlot, otherMem, isCommitted⟩ :=
        (store.table.mem_committed_iff other).mp (serializes.rows.mem_iff.mp isOther)
      by_contra clash
      have clash : conflict other row = true := by
        rw [conflict_comm]
        simpa using clash
      rw [written_slot accounted member otherMem written isCommitted clash, uncommitted]
        at isCommitted
      cases isCommitted
    have isGrant := has.located.grant
    rw [isProposal] at free narrow isGrant
    have ran := ApprovalRepository.prepare_new id.text executionId.text drawnAt now free narrow
      isGrant
    rw [← isProposal] at ran
    refine ⟨id, executionId, drawnAt, serial.1.rows ++ [row],
      answer_prepare serializes has.prepared id executionId drawnAt now ran, ?_⟩
    apply (serializes.rows.append_right [row]).trans
    exact commit_of_insert accounted member written uncommitted
      fun other otherMem version isWritten => (locked other otherMem version isWritten).1

/-- The commit of a call that issues its grant. -/
theorem issue_commit (serializes : Serializes service store serial) {request : PrepareRequest}
    {judgement : Judgement}
    (held : ∀ slot ∈ store.table.slots, ∀ version, slot.writer = some (caller, version) →
      slot.committed = some judgement.row ∧ version = consume judgement.now judgement.row)
    (has : HasLocked service store caller request judgement.wanted judgement.row judgement.grant
      (consume judgement.now judgement.row))
    (issues : judgement.issues = true) :
    ∃ id executionId : Uuid, ∃ drawnAt rows,
      serial.1.answer service (.prepare request id executionId drawnAt judgement.now) =
        (.decision (.ok judgement.decision), rows) ∧
      rows.Perm (store.table.commit caller).committed := by
  have accounted := serializes.accounted
  have ⟨slot, member, written⟩ := has.writes
  have isCommitted := (held slot member _ written).1
  have ⟨proposal, drawn, executionId, drawnAt, isProposal, narrow⟩ := has.proposed
  rw [isProposal] at narrow
  have isRow : judgement.row ∈ serial.1.rows :=
    serializes.rows.mem_iff.mpr ((store.table.mem_committed_iff _).mpr
      ⟨slot, member, isCommitted⟩)
  have ran := ApprovalRepository.prepare_existing
    ((clear_rows accounted).perm serializes.rows.symm) isRow has.located.isGrantOf
    has.located.grant drawn.text executionId.text drawnAt judgement.now narrow
  have issuesAt : judgement.row.issuesAt judgement.grant judgement.now = true := issues
  rw [issuesAt, if_pos rfl] at ran
  refine ⟨drawn, executionId, drawnAt, _,
    answer_prepare serializes has.prepared drawn executionId drawnAt judgement.now ran, ?_⟩
  have same : (store.table.commit caller).committed = store.rows.map fun other =>
      if other.id = judgement.row.id then consume judgement.now other else other := by
    apply commit_of_update
    · intro other otherMem version isWritten
      have ⟨isOld, isVersion⟩ := held other otherMem version isWritten
      exact ⟨judgement.row, isOld, by rw [isVersion, if_pos rfl]⟩
    · intro other otherMem unwritten old isOld
      rw [if_neg]
      intro sameId
      rw [written_slot accounted member otherMem written isOld (conflict_of_id sameId),
        (slot.written_by_eq_some_iff _ _).mpr written] at unwritten
      cases unwritten
  rw [same]
  exact serializes.rows.map _

/-- The serial store answers a statement of the call with nothing, or with the call. -/
def AnsweredBySerial (service : ExecutionService) (serial : Store × List Served) (caller : Nat)
    (next : GrantStore) : Prop :=
  ∃ block final, (block = [] ∨ ∃ call, block = [.call caller call]) ∧
    (servedStore service).run serial block = some final ∧ Serializes service next final

theorem answered_silent (serializes : Serializes service store serial) {before after : GrantCall}
    (accounted : Accounted service (store.put caller after table))
    (here : store.calls[caller]? = some before) (rows : table.committed = store.rows)
    (serves : Serves store.rows after (servedFor caller serial.2)) :
    AnsweredBySerial service serial caller (store.put caller after table) :=
  ⟨[], serial, Or.inl rfl, rfl, serializes_silent serializes accounted here rows serves⟩

theorem answered_effect (serializes : Serializes service store serial) {before after : GrantCall}
    (accounted : Accounted service (store.put caller after table))
    (here : store.calls[caller]? = some before)
    (advanced : ∀ row ∈ store.rows, ∃ version ∈ table.committed, Advances row version)
    {call : StoreCall} {answer : Answer} {rows : List ApprovalRequest}
    (answered : serial.1.answer service call = (answer, rows))
    (same : rows.Perm table.committed) (unserved : servedFor caller serial.2 = [])
    (serves : Serves table.committed after [(call, answer)]) :
    AnsweredBySerial service serial caller (store.put caller after table) := by
  have ⟨final, run, related⟩ :=
    serializes_effect serializes accounted here advanced answered same unserved serves
  exact ⟨_, final, Or.inr ⟨call, rfl⟩, run, related⟩

theorem commit_advanced (accounted : Accounted service store) :
    ∀ row ∈ store.rows, ∃ version ∈ (store.table.commit caller).committed, Advances row version :=
  fun _ member => RowStore.commit_advances Advances.refl accounted.lawful.grows member

theorem prepare_answered (serializes : Serializes service store serial) {request : PrepareRequest}
    {phase after : PreparePhase} {locks : Bool}
    (here : store.calls[caller]? = some (.approval (.prepare request phase)))
    (ran : PrepareStep service store.world caller request phase after table locks)
    (accounted : Accounted service (store.put caller (.approval (.prepare request after)) table)) :
    AnsweredBySerial service serial caller
      (store.put caller (.approval (.prepare request after)) table) := by
  have serves := serializes.serves caller _ here
  have accounts := serializes.accounted.accounts here
  have expects := serializes.accounted.expects caller _ here
  cases ran with
  | refused error => exact answered_silent serializes accounted here rfl serves
  | authorize row wanted owned authorized =>
      exact answered_silent serializes accounted here rfl serves
  | begin wanted => exact answered_silent serializes accounted here rfl serves
  | tooWide wanted now =>
      exact answered_silent serializes accounted here (RowStore.rollback_committed _ _) serves
  | conflicted wanted now => exact answered_silent serializes accounted here rfl serves
  | insert wanted now id executionId table inserted =>
      exact answered_silent serializes accounted here (RowStore.insert_committed inserted) serves
  | notOne wanted error =>
      exact answered_silent serializes accounted here (RowStore.rollback_committed _ _) serves
  | lock wanted row grant table isGrant locked =>
      exact answered_silent serializes accounted here (RowStore.update_committed locked) serves
  | readClock wanted row grant => exact answered_silent serializes accounted here rfl serves
  | issue judgement rows table issues updated =>
      exact answered_silent serializes accounted here (RowStore.update_committed updated) serves
  | answer judgement keeps =>
      have ⟨drawn, executionId, drawnAt, rows, answered, same⟩ :=
        prepare_commit serializes accounts expects keeps
      exact answered_effect serializes accounted here (commit_advanced serializes.accounted)
        answered same serves ⟨drawn, executionId, drawnAt, rfl⟩
  | finish judgement =>
      have ⟨drawn, executionId, drawnAt, rows, answered, same⟩ :=
        issue_commit serializes accounts expects.1 expects.2
      exact answered_effect serializes accounted here (commit_advanced serializes.accounted)
        answered same serves ⟨drawn, executionId, drawnAt, rfl⟩

/-! ## `decide` -/

theorem decide_commit (serializes : Serializes service store serial) {request : DecideRequest}
    {decision : Decision} {now matchedAt : Int} {row : ApprovalRequest}
    (held : ∀ slot ∈ store.table.slots, ∀ version, slot.writer = some (caller, version) →
      ∃ old, slot.committed = some old ∧ isDecidable request matchedAt old = true ∧
        version = applyDecision decision request.decidedBy now old)
    (known : Decision.ofText request.decision = some decision)
    (storable : request.storable = true) (writes : Writes store.world caller row) :
    ∃ rows, serial.1.answer service (.decide request now matchedAt 0) = (.row (.ok row), rows) ∧
      row.id = request.approvalId ∧ rows.Perm (store.table.commit caller).committed := by
  have accounted := serializes.accounted
  obtain ⟨slot, member, written⟩ := writes
  obtain ⟨old, isCommitted, decidable, isRow⟩ := held slot member row written
  have isOld : old ∈ serial.1.rows :=
    serializes.rows.mem_iff.mpr ((store.table.mem_committed_iff _).mpr
      ⟨slot, member, isCommitted⟩)
  have named : ∀ other, isDecidable request matchedAt other = true →
      other.id = request.approvalId :=
    fun _ isDecidable => ((is_decidable_eq_true_iff _ _ _).mp isDecidable).1
  have ran := ApprovalRepository.decide_wins ((clear_rows accounted).perm serializes.rows.symm)
    isOld known storable now matchedAt 0 decidable
  rw [← isRow] at ran
  have answered : serial.1.answer service (.decide request now matchedAt 0) =
      (.row (.ok row), serial.1.rows.map fun other => if isDecidable request matchedAt other then
        applyDecision decision request.decidedBy now other else other) := by
    simp only [Store.answer, ran]
  have isId : row.id = request.approvalId := by
    rw [isRow]
    exact named old decidable
  refine ⟨_, answered, isId, ?_⟩
  have same : (store.table.commit caller).committed = store.rows.map fun other =>
      if isDecidable request matchedAt other then
        applyDecision decision request.decidedBy now other else other := by
    apply commit_of_update
    · intro other otherMem version isWritten
      obtain ⟨before, isBefore, wasDecidable, isVersion⟩ := held other otherMem version isWritten
      exact ⟨before, isBefore, by rw [isVersion, if_pos wasDecidable]⟩
    · intro other otherMem unwritten before isBefore
      rw [if_neg]
      intro wasDecidable
      have sameId : before.id = row.id := (named before wasDecidable).trans isId.symm
      rw [written_slot accounted member otherMem written isBefore (conflict_of_id sameId),
        (slot.written_by_eq_some_iff _ _).mpr written] at unwritten
      cases unwritten
  rw [same]
  exact serializes.rows.map _

theorem row_of_get {approvalId : String} {row : ApprovalRequest}
    (found : store.world.get approvalId = some row) : row ∈ store.rows ∧ row.id = approvalId :=
  ApprovalRepository.mem_of_get found

theorem decide_answered (serializes : Serializes service store serial) {call after : DecideCall}
    {input : Input} (here : store.calls[caller]? = some (.approval (.decide call)))
    (ran : DecideStep store.world caller call call.phase input after table)
    (accounted : Accounted service (store.put caller (.approval (.decide after)) table)) :
    AnsweredBySerial service serial caller
      (store.put caller (.approval (.decide after)) table) := by
  have serves := serializes.serves caller _ here
  have accounts := serializes.accounted.accounts here
  have expects := serializes.accounted.expects caller _ here
  obtain ⟨request, phase, applied, missing⟩ := call
  -- a phase before the commit is one of a call that has not been served
  have unserved : phase.settled = false → applied = none ∧ servedFor caller serial.2 = [] := by
    intro unsettled
    cases applied with
    | none => exact ⟨rfl, serves.1⟩
    | some applied =>
        have settled := serves.1
        rw [unsettled] at settled
        cases settled
  simp only at ran
  cases ran with
  | unknown now other =>
      have ⟨same, empty⟩ := unserved rfl
      subst same
      exact answered_silent serializes accounted here rfl ⟨empty, rfl⟩
  | start decision now known =>
      have ⟨same, empty⟩ := unserved rfl
      subst same
      exact answered_silent serializes accounted here rfl ⟨empty, rfl⟩
  | unstorable decision now refused =>
      have ⟨same, empty⟩ := unserved rfl
      subst same
      exact answered_silent serializes accounted here rfl ⟨empty, rfl⟩
  | update decision now rows table storable updated =>
      have ⟨same, empty⟩ := unserved rfl
      subst same
      exact answered_silent serializes accounted here (RowStore.update_committed updated)
        ⟨empty, rfl⟩
  | lose decision now matchedAt =>
      have ⟨same, empty⟩ := unserved rfl
      subst same
      have untouched : store.table.commit caller = store.table := by
        apply RowStore.commit_unwritten
        intro slot member
        cases written : slot.writtenBy caller with
        | none => rfl
        | some row =>
            have writer := (slot.written_by_eq_some_iff _ _).mp written
            exact absurd rfl (accounts slot member row writer).1
      exact answered_silent serializes accounted here (congrArg RowStore.committed untouched)
        ⟨empty, rfl⟩
  | win decision now matchedAt rowcount changed =>
      have ⟨_, empty⟩ := unserved rfl
      have ⟨known, storable, wrote⟩ := expects
      have ⟨row, writes⟩ := wrote changed
      have ⟨rows, answered, isId, same⟩ := decide_commit serializes
        (fun slot member version written => (accounts slot member version written).2) known storable
        writes
      have ⟨slot, member, written⟩ := writes
      have isCurrent : row ∈ (store.table.commit caller).committed :=
        (RowStore.mem_committed_commit_iff row).mpr (Or.inr ⟨slot, member, written⟩)
      exact answered_effect serializes accounted here (commit_advanced serializes.accounted)
        answered same empty
        ⟨rfl, row, 0, rfl, isId, ⟨row, isCurrent, Advances.refl row⟩, fun _ => nofun⟩
  | gone absent =>
      cases applied with
      | none => cases serves.2
      | some applied =>
          have ⟨_, row, rereadAt, same, isId, current, _⟩ := serves
          exact answered_silent serializes accounted here rfl
            ⟨rfl, row, rereadAt, same, isId, current, fun _ => nofun⟩
  | answer found isFound =>
      cases applied with
      | none => cases serves.2
      | some applied =>
          have ⟨_, row, rereadAt, same, isId, ⟨current, isCurrent, advances⟩, _⟩ := serves
          apply answered_silent serializes accounted here rfl
          refine ⟨rfl, row, rereadAt, same, isId, ⟨current, isCurrent, advances⟩, ?_⟩
          intro returned isReturned
          cases isReturned
          have ⟨foundMem, foundId⟩ := row_of_get isFound
          have sameId := foundId.trans (isId.symm.trans advances.id.symm)
          rw [Keyset.Apart.eq serializes.accounted.lawful.unique_ids foundMem isCurrent sameId]
          exact advances
  | notFound absent =>
      have ⟨same, empty⟩ := unserved rfl
      subst same
      exact answered_silent serializes accounted here rfl ⟨empty, rfl⟩
  | otherTenant row found other =>
      have ⟨same, empty⟩ := unserved rfl
      subst same
      exact answered_silent serializes accounted here rfl ⟨empty, rfl⟩
  | reread row found own =>
      have ⟨same, empty⟩ := unserved rfl
      subst same
      exact answered_silent serializes accounted here rfl ⟨empty, rfl⟩
  | refuse row now =>
      have ⟨same, empty⟩ := unserved rfl
      subst same
      exact answered_silent serializes accounted here rfl ⟨empty, rfl⟩

/-! ## The legacy calls -/

theorem create_answered (serializes : Serializes service store serial) {arguments : CreatePending}
    {phase after : CreatePhase}
    (here : store.calls[caller]? = some (.createPending arguments phase))
    (ran : CreateStep store caller arguments phase after table)
    (accounted : Accounted service (store.put caller (.createPending arguments after) table)) :
    AnsweredBySerial service serial caller
      (store.put caller (.createPending arguments after) table) := by
  have serves := serializes.serves caller _ here
  have accounts := serializes.accounted.accounts here
  have expects := serializes.accounted.expects caller _ here
  cases ran with
  | stamp now => exact answered_silent serializes accounted here rfl serves
  | tooWide now =>
      exact answered_silent serializes accounted here (RowStore.rollback_committed _ _) serves
  | refuse now =>
      exact answered_silent serializes accounted here (RowStore.rollback_committed _ _) serves
  | insert now drawn table inserted =>
      exact answered_silent serializes accounted here (RowStore.insert_committed inserted) serves
  | finish item =>
      have ⟨⟨drawn, now, isItem⟩, narrow, known, slot, member, written⟩ := expects
      have uncommitted := (accounts slot member item written).1
      have free : ∀ other ∈ serial.1.rows, conflict item other = false := by
        intro other isOther
        have ⟨otherSlot, otherMem, isCommitted⟩ :=
          (store.table.mem_committed_iff other).mp (serializes.rows.mem_iff.mp isOther)
        by_contra clash
        have clash : conflict other item = true := by
          rw [conflict_comm]
          simpa using clash
        rw [written_slot serializes.accounted member otherMem written isCommitted clash,
          uncommitted] at isCommitted
        cases isCommitted
      rw [← serializes.conversations] at known
      have same : (serial.1.rows ++ [item]).Perm (store.table.commit caller).committed :=
        (serializes.rows.append_right [item]).trans
          (commit_of_insert serializes.accounted member written uncommitted
            fun other otherMem version isWritten => (accounts other otherMem version isWritten).2)
      rw [isItem] at narrow free known
      have created := ApprovalRepository.create_new serial.1.conversations arguments drawn.text now
        narrow free known
      rw [← isItem] at created
      have answered : serial.1.answer service (.createPending arguments drawn now) =
          (.row (.ok item), serial.1.rows ++ [item]) := by
        simp only [Store.answer, created]
      exact answered_effect serializes accounted here (commit_advanced serializes.accounted)
        answered same serves (Or.inr ⟨drawn, now, rfl⟩)
  | existing row => exact answered_silent serializes accounted here rfl (Or.inl serves)
  | fail => exact answered_silent serializes accounted here rfl serves

/-- An update that reports nothing has found nothing among the committed rows. -/
theorem nothing_approved {approvalId : String} {now : Int}
    (idle : ∀ slot ∈ store.table.slots, slot.writtenBy caller = none)
    (updated : store.table.updateWhere caller (ApprovalRepository.isApprovedLegacy approvalId)
      (consume now) = some ([], table)) :
    ∀ row ∈ store.rows, ApprovalRepository.isApprovedLegacy approvalId row = false := by
  intro row isRow
  by_contra approved
  have ⟨slot, member, isCommitted⟩ := (store.table.mem_committed_iff row).mp isRow
  have seen : slot.visible caller = some row := by
    simp only [Slot.visible, idle slot member, isCommitted]
  have selected := (store.table.mem_select_iff caller
    (ApprovalRepository.isApprovedLegacy approvalId) row).mpr
      ⟨slot, member, seen, by simpa using approved⟩
  have reported := (RowStore.update_inversion updated).2.1
  rw [List.map_eq_nil_iff.mp reported.symm] at selected
  cases selected

theorem consume_commit (serializes : Serializes service store serial) {approvalId : String}
    {row : ApprovalRequest} {rows : List ApprovalRequest}
    (held : ∀ slot ∈ store.table.slots, ∀ version, slot.writer = some (caller, version) →
      ∃ now old, slot.committed = some old ∧
        ApprovalRepository.isApprovedLegacy approvalId old = true ∧
        version = consume now old ∧ rows = [version])
    (writes : Writes store.world caller row) :
    ∃ now given, serial.1.answer service (.consumeApprovedGrant approvalId now) =
        (.consumed rows.head?, given) ∧
      given.Perm (store.table.commit caller).committed := by
  have accounted := serializes.accounted
  obtain ⟨slot, member, written⟩ := writes
  obtain ⟨now, old, isCommitted, approved, isRow, single⟩ := held slot member row written
  have isOld : old ∈ serial.1.rows :=
    serializes.rows.mem_iff.mpr ((store.table.mem_committed_iff _).mpr
      ⟨slot, member, isCommitted⟩)
  have named : ∀ other, ApprovalRepository.isApprovedLegacy approvalId other = true →
      other.id = approvalId := by
    intro other isApproved
    simp only [ApprovalRepository.isApprovedLegacy, Bool.and_eq_true, decide_eq_true_eq]
      at isApproved
    exact isApproved.1.1
  have ran := ApprovalRepository.consume_found ((clear_rows accounted).perm serializes.rows.symm)
    isOld now approved
  have answered : serial.1.answer service (.consumeApprovedGrant approvalId now) =
      (.consumed rows.head?, serial.1.rows.map fun other =>
        if ApprovalRepository.isApprovedLegacy approvalId other then consume now other
        else other) := by
    simp only [Store.answer, ran, single, isRow, List.head?_cons]
  refine ⟨now, _, answered, ?_⟩
  have isId : row.id = approvalId := by
    rw [isRow]
    exact named old approved
  have same : (store.table.commit caller).committed = store.rows.map fun other =>
      if ApprovalRepository.isApprovedLegacy approvalId other then consume now other
      else other := by
    apply commit_of_update
    · intro other otherMem version isWritten
      obtain ⟨later, before, isBefore, wasApproved, isVersion, alone⟩ :=
        held other otherMem version isWritten
      have one : version = row := by simpa using alone.symm.trans single
      have sameTime : later = now := by
        have stamps := congrArg ApprovalRequest.consumedAt (isVersion.symm.trans (one.trans isRow))
        exact Option.some.inj stamps
      exact ⟨before, isBefore, by rw [isVersion, if_pos wasApproved, sameTime]⟩
    · intro other otherMem unwritten before isBefore
      rw [if_neg]
      intro wasApproved
      have sameId : before.id = row.id := (named before wasApproved).trans isId.symm
      rw [written_slot accounted member otherMem written isBefore (conflict_of_id sameId),
        (slot.written_by_eq_some_iff _ _).mpr written] at unwritten
      cases unwritten
  rw [same]
  exact serializes.rows.map _

theorem consume_answered (serializes : Serializes service store serial) {approvalId : String}
    {phase after : ConsumePhase}
    (here : store.calls[caller]? = some (.consumeApprovedGrant approvalId phase))
    (ran : ConsumeStep store caller approvalId phase after table)
    (accounted : Accounted service
      (store.put caller (.consumeApprovedGrant approvalId after) table)) :
    AnsweredBySerial service serial caller
      (store.put caller (.consumeApprovedGrant approvalId after) table) := by
  have serves := serializes.serves caller _ here
  have accounts := serializes.accounted.accounts here
  have expects := serializes.accounted.expects caller _ here
  cases ran with
  | stamp now => exact answered_silent serializes accounted here rfl serves
  | unstorable now =>
      exact answered_silent serializes accounted here (RowStore.rollback_committed _ _) serves
  | update now rows table updated =>
      have rowsKept := RowStore.update_committed updated
      cases rows with
      | nil =>
          have idle : ∀ slot ∈ store.table.slots, slot.writtenBy caller = none := by
            intro slot member
            cases written : slot.writtenBy caller with
            | none => rfl
            | some row =>
                exact (accounts slot member row
                  ((slot.written_by_eq_some_iff _ _).mp written)).elim
          have absent := nothing_approved idle updated
          have answered : serial.1.answer service (.consumeApprovedGrant approvalId now) =
              (.consumed none, serial.1.rows) := by
            simp only [Store.answer, ApprovalRepository.consume_nothing now
              fun row member => absent row (serializes.rows.mem_iff.mp member)]
          apply answered_effect serializes accounted here _ answered _ serves ⟨now, rfl⟩
          · intro row member
            exact ⟨row, by rw [rowsKept]; exact member, Advances.refl row⟩
          · rw [rowsKept]
            exact serializes.rows
      | cons row rows => exact answered_silent serializes accounted here rowsKept serves
  | finish rows =>
      cases rows with
      | nil =>
          have untouched : store.table.commit caller = store.table := by
            apply RowStore.commit_unwritten
            intro slot member
            cases written : slot.writtenBy caller with
            | none => rfl
            | some row =>
                obtain ⟨_, _, _, _, _, single⟩ := accounts slot member row
                  ((slot.written_by_eq_some_iff _ _).mp written)
                cases single
          exact answered_silent serializes accounted here (congrArg RowStore.committed untouched)
            serves
      | cons row rows =>
          obtain ⟨_, writes⟩ := expects (by simp)
          obtain ⟨now, given, answered, same⟩ := consume_commit serializes accounts writes
          exact answered_effect serializes accounted here (commit_advanced serializes.accounted)
            answered same serves ⟨now, rfl⟩

/-! ## Every run -/

theorem statement_answered (serializes : Serializes service store serial)
    {before after : GrantCall} {input : Input} (here : store.calls[caller]? = some before)
    (ran : store.callStatement service caller input before = some (after, table))
    (accounted : Accounted service (store.put caller after table)) :
    AnsweredBySerial service serial caller (store.put caller after table) := by
  cases before with
  | approval call =>
      cases call with
      | prepare request phase =>
          have ⟨⟨next, written, locks⟩, statement, same⟩ := Option.map_eq_some_iff.mp ran
          cases same
          exact prepare_answered serializes here
            (prepare_statement_step _ _ _ _ _ _ _ _ _ statement) accounted
      | decide call =>
          have ⟨⟨next, written⟩, statement, same⟩ := Option.map_eq_some_iff.mp ran
          cases same
          exact decide_answered serializes here (decide_statement_step _ _ _ _ _ _ _ statement)
            accounted
  | createPending arguments phase =>
      have ⟨⟨next, written⟩, statement, same⟩ := Option.map_eq_some_iff.mp ran
      cases same
      exact create_answered serializes here (create_statement_step _ _ statement) accounted
  | consumeApprovedGrant approvalId phase =>
      have ⟨⟨next, written⟩, statement, same⟩ := Option.map_eq_some_iff.mp ran
      cases same
      exact consume_answered serializes here (consume_statement_step _ _ statement) accounted

/-- A crash leaves what has been served: a call that crashes before its commit took no effect. -/
theorem crashed_serves {rows : List ApprovalRequest} {call after : GrantCall}
    {given : List (StoreCall × Answer)} (stops : GrantStore.crashed call = some after)
    (serves : Serves rows call given) : Serves rows after given := by
  cases call with
  | approval call =>
      have ⟨stopped, isStopped, same⟩ := Option.map_eq_some_iff.mp stops
      subst same
      cases call with
      | prepare request phase => cases phase <;> cases isStopped <;> exact serves
      | decide call =>
          obtain ⟨request, phase, applied, missing⟩ := call
          cases applied with
          | none => cases phase <;> cases isStopped <;> exact ⟨serves.1, rfl⟩
          | some applied =>
              have ⟨_, row, rereadAt, same, isId, current, _⟩ := serves
              cases phase <;> cases isStopped <;>
                exact ⟨rfl, row, rereadAt, same, isId, current, fun _ => nofun⟩
  | createPending arguments phase => cases phase <;> cases stops <;> exact serves
  | consumeApprovedGrant approvalId phase =>
      cases phase with
      | updated rows =>
          cases stops
          cases rows with
          | nil => exact Or.inr serves
          | cons row rows => exact Or.inl serves
      | called => cases stops; exact Or.inl serves
      | stamped now => cases stops; exact Or.inl serves
      | returned row => cases stops
      | raised error => cases stops
      | crashed => cases stops

/-- What a step that leaves the table and the history alone keeps. -/
theorem serializes_quiet (serializes : Serializes service store serial)
    (accounted : Accounted service next) (conversations : next.conversations = store.conversations)
    (rows : next.rows = store.rows) (calls : store.calls.length ≤ next.calls.length)
    (serves : ∀ caller call, next.calls[caller]? = some call →
      Serves store.rows call (servedFor caller serial.2)) :
    Serializes service next serial where
  accounted := accounted
  conversations := serializes.conversations.trans conversations.symm
  rows := by
    rw [rows]
    exact serializes.rows
  serves := by
    rw [rows]
    exact serves
  begun entry member := (serializes.begun entry member).trans_le calls

/-- A call that has just begun has not been served. -/
theorem begun_serves (serializes : Serializes service store serial) (operation : Operation) :
    Serves store.rows operation.begun (servedFor store.calls.length serial.2) := by
  have unserved : servedFor store.calls.length serial.2 = [] := by
    simp only [servedFor, List.map_eq_nil_iff, List.filter_eq_nil_iff, decide_eq_true_eq]
    intro entry member same
    have earlier := serializes.begun entry member
    omega
  rw [unserved]
  cases operation with
  | prepare request => rfl
  | decide request => exact ⟨rfl, rfl⟩
  | createPending arguments => rfl
  | consumeApprovedGrant approvalId => rfl

theorem label_answered (serializes : Serializes service store serial) {label : GrantLabel}
    (stepped : (grantStore service).step store label = some next) :
    ∃ block final, TakesEffect label block ∧
      (servedStore service).run serial block = some final ∧ Serializes service next final := by
  have accounted := accounted_step serializes.accounted stepped
  cases label with
  | tick duration =>
      cases stepped
      exact ⟨[], serial, rfl, rfl,
        serializes_quiet serializes accounted rfl rfl (le_refl _) serializes.serves⟩
  | createConversation row =>
      have ⟨conversations, created, same⟩ := Option.map_eq_some_iff.mp stepped
      subst same
      rw [← serializes.conversations] at created
      refine ⟨[.createConversation row],
        ({ serial.1 with conversations := conversations }, serial.2), rfl, ?_, ?_⟩
      · rw [Machine.run_cons]
        refine ⟨_, ?_, rfl⟩
        rw [servedStore, Machine.with_history_step]
        simp [serialStore, created, served]
      · exact ⟨accounted, rfl, serializes.rows, serializes.serves, serializes.begun⟩
  | call operation =>
      cases stepped
      refine ⟨[], serial, rfl, rfl, serializes_quiet serializes accounted rfl rfl (by simp) ?_⟩
      intro caller call present
      by_cases inRange : caller < store.calls.length
      · rw [List.getElem?_append_left inRange] at present
        exact serializes.serves caller call present
      · rw [List.getElem?_append_right (by omega)] at present
        have isAdded := List.mem_singleton.mp (List.mem_of_getElem? present)
        have isLast : caller = store.calls.length := by
          have bound := (List.getElem?_eq_some_iff.mp present).1
          rw [List.length_singleton] at bound
          omega
        rw [isAdded, isLast]
        exact begun_serves serializes operation
  | statement caller input =>
      have ⟨before, here, rest⟩ := Option.bind_eq_some_iff.mp stepped
      have ⟨⟨after, table⟩, ran, same⟩ := Option.map_eq_some_iff.mp rest
      subst same
      exact statement_answered serializes here ran accounted
  | crash caller =>
      have ⟨before, here, rest⟩ := Option.bind_eq_some_iff.mp stepped
      have ⟨after, stops, same⟩ := Option.map_eq_some_iff.mp rest
      subst same
      exact ⟨[], serial, rfl, rfl, serializes_silent serializes accounted here
        (RowStore.rollback_committed _ _)
        (crashed_serves stops (serializes.serves caller before here))⟩

theorem serializes_start (service : ExecutionService) (conversations : List Conversation)
    (clock : Int) :
    Serializes service (.start conversations clock) (⟨conversations, []⟩, []) where
  accounted := accounted_start service conversations clock
  conversations := rfl
  rows := List.Perm.refl _
  serves := by
    intro caller call present
    cases present
  begun := by
    intro entry member
    cases member

/-- Every interleaving of the statements of `prepare`, `decide`, `create_pending` and
`consume_approved_grant` calls, crashes included, has the rows and the answers of whole calls made
one at a time, each at one of its own statements: a `prepare` that returned was answered so, the
winner of a decision reads its row or a later version of it, and what raised or crashed before its
commit left no trace. -/
theorem calls_serialize (service : ExecutionService) (conversations : List Conversation)
    (clock : Int) (labels : List GrantLabel) (store : GrantStore)
    (reached : (grantStore service).run (.start conversations clock) labels = some store) :
    ∃ blocks serial history, List.Forall₂ TakesEffect labels blocks ∧
      (servedStore service).run (⟨conversations, []⟩, []) blocks.flatten =
        some (serial, history) ∧
      serial.conversations = store.conversations ∧ serial.rows.Perm store.rows ∧
      ∀ caller call, store.calls[caller]? = some call →
        Serves store.rows call (servedFor caller history) := by
  have ⟨blocks, ⟨serial, history⟩, stand, run, serializes⟩ :=
    (grantStore service).run_of_simulation (servedStore service) (Serializes service) TakesEffect
      (fun _ _ _ _ serializes stepped => label_answered serializes stepped)
      (serializes_start service conversations clock) reached
  exact ⟨blocks, serial, history, stand, run, serializes.conversations, serializes.rows,
    serializes.serves⟩

end Steps

/-- The run in which a legacy grant and a structured one are asked for, approved and used at the
same time. -/
theorem calls_serialize_both_consumed :
    ∃ store, (grantStore Recorded.orderService).run (.start [] 0) Recorded.bothConsumed =
        some store ∧
      ∃ blocks serial history, List.Forall₂ TakesEffect Recorded.bothConsumed blocks ∧
        (servedStore Recorded.orderService).run (⟨[], []⟩, []) blocks.flatten =
          some (serial, history) ∧
        serial.conversations = store.conversations ∧ serial.rows.Perm store.rows ∧
        ∀ caller call, store.calls[caller]? = some call →
          Serves store.rows call (servedFor caller history) := by
  have ⟨store, reached, _⟩ := Option.map_eq_some_iff.mp Recorded.both_consumed_rows
  exact ⟨store, reached,
    calls_serialize Recorded.orderService [] 0 Recorded.bothConsumed store reached⟩

end AgentHarness.Approval
