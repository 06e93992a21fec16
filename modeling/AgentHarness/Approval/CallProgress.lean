import AgentHarness.Approval.HeldVersions
import Mathlib.Algebra.BigOperators.Group.List.Basic

/-!
# No call waits for ever

A statement may have to wait for the transaction that holds a version. A transaction that holds one
never waits itself, whatever the other calls have written, so the calls of a store can always be
brought to their end by statements alone.
-/

namespace AgentHarness.Approval

open AgentHarness.Library AgentHarness.Conversations AgentHarness.Executions ApprovalRequest

set_option autoImplicit false

/-- What the outside world gives a statement: the clock of the host and fresh identifiers. -/
structure Supply where
  host : Int
  id : Uuid
  executionId : Uuid

namespace Supply

/-- The input the next statement of a call takes. -/
def input (supply : Supply) : GrantCall → Input
  | .approval (.prepare _ (.began _ _)) => .drawn supply.id supply.executionId
  | .approval (.decide ⟨_, .called, _, _⟩) => .host supply.host
  | .approval (.decide ⟨_, .reread _, _, _⟩) => .host supply.host
  | .createPending _ .called => .host supply.host
  | .createPending _ (.stamped _) => .drawn supply.id supply.executionId
  | .consumeApprovedGrant _ .called => .host supply.host
  | _ => .nothing

end Supply

namespace GrantCall

/-- The most statements a call can still make. -/
def remaining : GrantCall → Nat
  | .approval (.prepare _ phase) =>
      match phase with
      | .called => 7
      | .authorized _ => 6
      | .began _ _ => 5
      | .inserted _ => 4
      | .locked _ _ _ => 3
      | .judged _ => 2
      | .issued _ => 1
      | .returned _ | .raised _ | .crashed => 0
  | .approval (.decide call) =>
      match call.phase with
      | .called => 5
      | .started _ _ => 4
      | .updated _ _ _ _ => 3
      | .lost => 2
      | .won | .reread _ => 1
      | .returned _ | .raised _ | .crashed => 0
  | .createPending _ phase =>
      match phase with
      | .called => 3
      | .stamped _ => 2
      | .inserted _ | .refused => 1
      | .returned _ | .raised _ | .crashed => 0
  | .consumeApprovedGrant _ phase =>
      match phase with
      | .called => 3
      | .stamped _ => 2
      | .updated _ => 1
      | .returned _ | .raised _ | .crashed => 0

def finished (call : GrantCall) : Bool := call.remaining = 0

end GrantCall

namespace GrantStore

def remaining (store : GrantStore) : Nat := (store.calls.map GrantCall.remaining).sum

/-- Every call has returned, raised or crashed. -/
def Finished (store : GrantStore) : Prop := ∀ call ∈ store.calls, call.finished = true

end GrantStore

namespace GrantLabel

/-- The steps of the calls that have begun. -/
def ofCalls : GrantLabel → Bool
  | .statement _ _ | .crash _ => true
  | _ => false

end GrantLabel

section Progress

variable {service : ExecutionService} {store next : GrantStore} {caller : Nat}

/-! ## Every statement is progress -/

theorem crashed_remaining {call after : GrantCall} (stops : GrantStore.crashed call = some after) :
    after.remaining < call.remaining := by
  cases call with
  | approval call =>
      have ⟨stopped, isStopped, same⟩ := Option.map_eq_some_iff.mp stops
      subst same
      cases call with
      | prepare request phase =>
          cases phase <;> cases isStopped <;> simp [GrantCall.remaining]
      | decide call =>
          obtain ⟨request, phase, applied, missing⟩ := call
          cases phase <;> cases isStopped <;> simp [GrantCall.remaining]
  | createPending arguments phase =>
      cases phase <;> cases stops <;> simp [GrantCall.remaining]
  | consumeApprovedGrant approvalId phase =>
      cases phase <;> cases stops <;> simp [GrantCall.remaining]

theorem call_step_remaining {before after : GrantCall} {table : ApprovalTable}
    (ran : GrantCallStep service store caller before after table) :
    after.remaining < before.remaining := by
  cases ran with
  | prepare request phase after table locks ran => cases ran <;> simp [GrantCall.remaining]
  | decide input call after table ran =>
      obtain ⟨request, phase, applied, missing⟩ := call
      simp only at ran
      cases ran <;> simp [GrantCall.remaining]
  | createPending arguments phase after table ran => cases ran <;> simp [GrantCall.remaining]
  | consumeApprovedGrant approvalId phase after table ran =>
      cases ran <;> simp [GrantCall.remaining]
  | crash call after table stops rolledBack => exact crashed_remaining stops

theorem sum_map_set {before after : GrantCall} {calls : List GrantCall}
    (here : calls[caller]? = some before) (lower : after.remaining < before.remaining) :
    ((calls.set caller after).map GrantCall.remaining).sum <
      (calls.map GrantCall.remaining).sum := by
  induction calls generalizing caller with
  | nil => cases here
  | cons call calls ih =>
      cases caller with
      | zero =>
          cases here
          simp only [List.set_cons_zero, List.map_cons, List.sum_cons]
          omega
      | succ caller =>
          have found : calls[caller]? = some before := by simpa using here
          have rest := ih found
          simp only [List.set_cons_succ, List.map_cons, List.sum_cons]
          omega

theorem step_remaining {label : GrantLabel} (ofCalls : label.ofCalls = true)
    (stepped : (grantStore service).step store label = some next) :
    next.remaining < store.remaining := by
  cases label with
  | statement caller input =>
      have ⟨before, here, rest⟩ := Option.bind_eq_some_iff.mp stepped
      have ⟨⟨after, table⟩, ran, same⟩ := Option.map_eq_some_iff.mp rest
      subst same
      exact sum_map_set here (call_step_remaining (call_statement_step ran))
  | crash caller =>
      have ⟨before, here, rest⟩ := Option.bind_eq_some_iff.mp stepped
      have ⟨after, stops, same⟩ := Option.map_eq_some_iff.mp rest
      subst same
      exact sum_map_set here (crashed_remaining stops)
  | tick duration => cases ofCalls
  | createConversation row => cases ofCalls
  | call operation => cases ofCalls

/-! ## When a statement can go on -/

/-- The next statement of the call is not waiting, whatever it is given. -/
def Runs (service : ExecutionService) (store : GrantStore) (caller : Nat) (call : GrantCall) :
    Prop :=
  ∀ supply : Supply, (store.callStatement service caller (supply.input call) call).isSome = true

/-- The locking read of `prepare` finds grants only, so it always goes on with what it has read. -/
theorem lock_runs {request : PrepareRequest} {wanted : PrepareExecution}
    (free : ∃ result, store.table.lockWhere caller (isGrantOf wanted) = some result) :
    Runs service store caller (.approval (.prepare request (.inserted wanted))) := by
  intro supply
  obtain ⟨⟨rows, table⟩, locked⟩ := free
  simp only [Supply.input, GrantStore.callStatement, Option.isSome_map, World.prepareStatement,
    GrantStore.world, locked]
  rcases rows with _ | ⟨row, _ | ⟨second, rest⟩⟩
  · rfl
  · have selected := selected_of_lock locked
    have isSelected : row ∈ store.table.select caller (isGrantOf wanted) := by
      rw [selected]
      exact List.mem_singleton_self row
    have matched := (is_grant_of_eq_true_iff _ _).mp (List.of_mem_filter isSelected)
    have isStructured : row.grant.isSome = true := matched.2.2.1
    simp [isStructured]
  · rfl

theorem issue_runs {request : PrepareRequest} {judgement : Judgement}
    (free : ∃ result, store.table.updateWhere caller (fun row => row.id = judgement.row.id)
      (consume judgement.now) = some result) :
    Runs service store caller (.approval (.prepare request (.judged judgement))) := by
  intro supply
  have ⟨result, updated⟩ := free
  simp only [Supply.input, GrantStore.callStatement, Option.isSome_map, World.prepareStatement,
    GrantStore.world, updated]
  split <;> rfl

/-- A version of the call itself is not in its way. -/
theorem own_slot_free {slot : Slot Nat ApprovalRequest} {row : ApprovalRequest}
    (written : slot.writer = some (caller, row)) : slot.heldByOther caller = false := by
  simp [Slot.heldByOther, written]

/-- The insert of a call is the one grant of its action, so its own locking read cannot wait. -/
theorem inserted_runs (accounted : Accounted service store) {request : PrepareRequest}
    {wanted : PrepareExecution} {row : ApprovalRequest} (proposed : Proposed wanted row)
    (writes : Writes store.world caller row) :
    Runs service store caller (.approval (.prepare request (.inserted wanted))) := by
  apply lock_runs
  apply RowStore.update_runs
  intro slot member version seen matched
  have ⟨held, heldMem, written⟩ := writes
  have clash := grants_conflict matched proposed.is_grant_of rfl rfl
  have one := accounted.one_slot member heldMem (Slot.visible_mem_versions seen)
    (Slot.written_mem_versions written) clash
  rw [one]
  exact own_slot_free written

theorem judged_runs (accounted : Accounted service store) {request : PrepareRequest}
    {judgement : Judgement} (writes : Writes store.world caller judgement.row) :
    Runs service store caller (.approval (.prepare request (.judged judgement))) := by
  apply issue_runs
  apply RowStore.update_runs
  intro slot member version seen matched
  exact own_slot_free (accounted.judged_row writes member seen (by simpa using matched)).1

/-- A call that has written or locked a row never waits: nobody waits in a circle. -/
theorem holder_runs (accounted : Accounted service store) {row : ApprovalRequest}
    (writes : Writes store.world caller row) :
    ∃ call, store.calls[caller]? = some call ∧ Runs service store caller call := by
  have ⟨slot, member, written⟩ := writes
  have ⟨call, here, heldAs⟩ := accounted.held slot member caller row written
  refine ⟨call, here, ?_⟩
  have expects := accounted.expects caller call here
  unfold HeldAs at heldAs
  split at heldAs
  · exact inserted_runs accounted heldAs.2 writes
  · exact fun _ => rfl
  · exact judged_runs accounted expects.writes
  · exact fun _ => rfl
  · intro supply
    simp only [Supply.input, GrantStore.callStatement, Option.isSome_map, World.decideStatement]
    split <;> rfl
  · exact fun _ => rfl
  · exact fun _ => rfl
  · exact heldAs.elim

/-! ## A table that nobody holds -/

section Free

variable
  (updates : ∀ (wanted : ApprovalRequest → Bool) (change : ApprovalRequest → ApprovalRequest),
    ∃ result, store.table.updateWhere caller wanted change = some result)
  (inserts : ∀ row, RowStore.insertOnConflictDoNothing conflict store.table caller row ≠ .waits)

include updates in
theorem free_decide_runs {call : DecideCall}
    (unfinished : (GrantCall.approval (.decide call)).finished = false) :
    Runs service store caller (.approval (.decide call)) := by
  intro supply
  obtain ⟨request, phase, applied, missing⟩ := call
  cases phase with
  | called =>
      simp only [Supply.input, GrantStore.callStatement, Option.isSome_map, World.decideStatement]
      split <;> rfl
  | started decision now =>
      obtain ⟨result, updated⟩ := updates (isDecidable request store.clock)
        (applyDecision decision request.decidedBy now)
      simp only [Supply.input, GrantStore.callStatement, Option.isSome_map, World.decideStatement,
        GrantStore.world, updated]
      split <;> rfl
  | updated decision now matchedAt rowcount =>
      simp only [Supply.input, GrantStore.callStatement, Option.isSome_map, World.decideStatement]
      split <;> rfl
  | won =>
      simp only [Supply.input, GrantStore.callStatement, Option.isSome_map, World.decideStatement]
      split <;> rfl
  | lost =>
      simp only [Supply.input, GrantStore.callStatement, Option.isSome_map, World.decideStatement]
      split
      · rfl
      · split <;> rfl
  | reread row => rfl
  | returned row => cases unfinished
  | raised error => cases unfinished
  | crashed => cases unfinished

include updates inserts in
theorem free_prepare_runs {request : PrepareRequest} {phase : PreparePhase}
    (unfinished : (GrantCall.approval (.prepare request phase)).finished = false) :
    Runs service store caller (.approval (.prepare request phase)) := by
  cases phase with
  | called =>
      intro supply
      simp only [Supply.input, GrantStore.callStatement, Option.isSome_map, World.prepareStatement]
      split
      · rfl
      · split <;> rfl
  | authorized wanted => exact fun _ => rfl
  | began wanted now =>
      intro supply
      simp only [Supply.input, GrantStore.callStatement, Option.isSome_map, World.prepareStatement,
        GrantStore.world]
      split
      · rfl
      · split
        · rename_i waits
          exact absurd waits (inserts _)
        · rfl
        · rfl
  | inserted wanted => exact lock_runs (updates _ _)
  | locked wanted row grant => exact fun _ => rfl
  | judged judgement => exact issue_runs (updates _ _)
  | issued judgement => exact fun _ => rfl
  | returned judgement => cases unfinished
  | raised error => cases unfinished
  | crashed => cases unfinished

include inserts in
theorem free_create_runs {arguments : CreatePending} {phase : CreatePhase}
    (unfinished : (GrantCall.createPending arguments phase).finished = false) :
    Runs service store caller (.createPending arguments phase) := by
  intro supply
  cases phase with
  | called => rfl
  | stamped now =>
      simp only [Supply.input, GrantStore.callStatement, Option.isSome_map,
        GrantStore.createStatement]
      split
      · rfl
      · split
        · rename_i waits
          exact absurd waits (inserts _)
        · rfl
        · split <;> rfl
  | inserted item => rfl
  | refused =>
      simp only [Supply.input, GrantStore.callStatement, Option.isSome_map,
        GrantStore.createStatement]
      split <;> rfl
  | returned row => cases unfinished
  | raised error => cases unfinished
  | crashed => cases unfinished

include updates in
theorem free_consume_runs {approvalId : String} {phase : ConsumePhase}
    (unfinished : (GrantCall.consumeApprovedGrant approvalId phase).finished = false) :
    Runs service store caller (.consumeApprovedGrant approvalId phase) := by
  intro supply
  cases phase with
  | called => rfl
  | stamped now =>
      have ⟨result, updated⟩ := updates (ApprovalRepository.isApprovedLegacy approvalId)
        (consume now)
      simp only [Supply.input, GrantStore.callStatement, Option.isSome_map,
        GrantStore.consumeStatement, updated]
      split <;> rfl
  | updated rows => rfl
  | returned row => cases unfinished
  | raised error => cases unfinished
  | crashed => cases unfinished

end Free

/-- Where no transaction holds a row, every call that has begun can go on. -/
theorem free_runs (free : ∀ slot ∈ store.table.slots, slot.writer = none) {call : GrantCall}
    (unfinished : call.finished = false) : Runs service store caller call := by
  have updates : ∀ (wanted : ApprovalRequest → Bool) (change : ApprovalRequest → ApprovalRequest),
      ∃ result, store.table.updateWhere caller wanted change = some result := by
    intro wanted change
    apply RowStore.update_runs
    intro slot member row _ _
    simp [Slot.heldByOther, free slot member]
  have inserts := fun row => RowStore.insert_runs conflict caller row free
  cases call with
  | approval call =>
      cases call with
      | prepare request phase => exact free_prepare_runs updates inserts unfinished
      | decide call => exact free_decide_runs updates unfinished
  | createPending arguments phase => exact free_create_runs inserts unfinished
  | consumeApprovedGrant approvalId phase => exact free_consume_runs updates unfinished

/-! ## Every reachable store -/

theorem step_of_runs {call : GrantCall} (here : store.calls[caller]? = some call)
    (runs : Runs service store caller call) (supply : Supply) :
    ∃ next, (grantStore service).step store (.statement caller (supply.input call)) =
      some next := by
  have ⟨⟨after, table⟩, ran⟩ := Option.isSome_iff_exists.mp (runs supply)
  refine ⟨store.put caller after table, ?_⟩
  simp only [grantStore, GrantStore.step, here, Option.bind_some, ran, Option.map_some]

theorem some_call_runs (accounted : Accounted service store) (unfinished : ¬ store.Finished) :
    ∃ caller call, store.calls[caller]? = some call ∧ Runs service store caller call := by
  by_cases held : ∃ slot ∈ store.table.slots, slot.writer.isSome = true
  · have ⟨slot, member, isHeld⟩ := held
    have ⟨⟨caller, row⟩, written⟩ := Option.isSome_iff_exists.mp isHeld
    exact ⟨caller, holder_runs accounted ⟨slot, member, written⟩⟩
  · simp only [GrantStore.Finished, not_forall, Bool.not_eq_true] at unfinished
    have ⟨call, member, isUnfinished⟩ := unfinished
    have ⟨caller, here⟩ := List.mem_iff_getElem?.mp member
    refine ⟨caller, call, here, free_runs ?_ isUnfinished⟩
    intro slot slotMem
    by_contra isHeld
    exact held ⟨slot, slotMem, Option.isSome_iff_ne_none.mpr isHeld⟩

/-- The calls of a store wait for each other in no circle, and come to their end. -/
structure NeverStuck (service : ExecutionService) (store : GrantStore) : Prop where
  holders : ∀ caller row, Writes store.world caller row →
    ∃ call, store.calls[caller]? = some call ∧ Runs service store caller call
  enabled : ¬ store.Finished →
    ∃ caller call, store.calls[caller]? = some call ∧ Runs service store caller call
  bounded : ∀ labels final, (∀ label ∈ labels, label.ofCalls = true) →
    (grantStore service).run store labels = some final →
    labels.length + final.remaining ≤ store.remaining
  completes : ∀ supply : Supply, ∃ labels final,
    (∀ label ∈ labels, ∃ caller call, label = .statement caller (supply.input call)) ∧
      (grantStore service).run store labels = some final ∧ final.Finished

theorem never_stuck (accounted : Accounted service store) : NeverStuck service store where
  holders _ _ writes := holder_runs accounted writes
  enabled := some_call_runs accounted
  bounded _ _ ofCalls reached := by
    apply Machine.run_length_le_rank _ _ accounted ofCalls reached
    · intro state label next accounted stepped
      exact accounted_step accounted stepped
    · intro state label next _ isOfCalls stepped
      exact step_remaining isOfCalls stepped
  completes supply := by
    have lowers : ∀ state label next, Accounted service state →
        (∃ caller call, label = .statement caller (supply.input call)) →
        (grantStore service).step state label = some next → next.remaining < state.remaining := by
      intro state label next _ isStatement stepped
      have ⟨caller, call, same⟩ := isStatement
      apply step_remaining _ stepped
      rw [same]
      rfl
    apply Machine.exists_run_to_end _ lowers _ store accounted
    · intro state label next accounted stepped
      exact accounted_step accounted stepped
    · intro state accounted unfinished
      have ⟨caller, call, here, runs⟩ := some_call_runs accounted unfinished
      have ⟨next, stepped⟩ := step_of_runs here runs supply
      exact ⟨_, next, ⟨caller, call, rfl⟩, stepped⟩

/-- In every store that calls, crashes, ticks and inserted conversations can lead to: a call that
holds a row does not wait, some call can go on until all are finished, and no schedule of theirs
goes on for ever. -/
theorem calls_never_deadlock (service : ExecutionService) (conversations : List Conversation)
    (clock : Int) (labels : List GrantLabel) (store : GrantStore)
    (reached : (grantStore service).run (.start conversations clock) labels = some store) :
    NeverStuck service store :=
  never_stuck (accounted_run reached)

end Progress

namespace Recorded

/-- Two calls ask for the same cancellation; the first has inserted its grant. -/
def bothAsking : List GrantLabel :=
  [.createConversation conversation, .call (.prepare cancel), .call (.prepare cancel),
    .statement 0 .nothing, .statement 1 .nothing, .statement 0 .nothing, .statement 1 .nothing,
    .statement 0 (.drawn (uuid 1) (uuid 2))]

theorem second_call_waits :
    ((grantStore orderService).run (.start [] 0) bothAsking).any (fun store =>
      ((grantStore orderService).step store (.statement 1 (.drawn (uuid 3) (uuid 4)))).isNone) =
    true := by
  decide +kernel

end Recorded

theorem calls_never_deadlock_while_waiting :
    ∃ store, (grantStore Recorded.orderService).run (.start [] 0) Recorded.bothAsking =
        some store ∧
      (grantStore Recorded.orderService).step store
        (.statement 1 (.drawn (Recorded.uuid 3) (Recorded.uuid 4))) = none ∧
      NeverStuck Recorded.orderService store := by
  have ⟨store, reached, waits⟩ := (Option.any_eq_true _ _).mp Recorded.second_call_waits
  exact ⟨store, reached, Option.isNone_iff_eq_none.mp waits,
    calls_never_deadlock Recorded.orderService [] 0 Recorded.bothAsking store reached⟩

end AgentHarness.Approval
