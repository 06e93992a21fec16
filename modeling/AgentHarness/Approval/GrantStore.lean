import AgentHarness.Approval.ApprovalRepository
import AgentHarness.Approval.CallSoundness

/-!
# All operations on the approval table

The calls of `prepare` and `decide`, statement by statement as before, now next to the legacy calls
`create_pending` and `consume_approved_grant`. The transaction of a call is again its index.
-/

namespace AgentHarness.Approval

open AgentHarness.Library AgentHarness.Conversations AgentHarness.Executions ApprovalRequest

set_option autoImplicit false

inductive CreatePhase where
  | called
  | stamped (now : Int)
  | inserted (item : ApprovalRequest)
  | refused
  | returned (row : ApprovalRequest)
  | raised (error : Raised)
  | crashed
  deriving DecidableEq, Repr

inductive ConsumePhase where
  | called
  | stamped (now : Int)
  | updated (rows : List ApprovalRequest)
  | returned (row : Option ApprovalRequest)
  | raised (error : Raised)
  | crashed
  deriving DecidableEq, Repr

inductive GrantCall where
  | approval (call : Call)
  | createPending (arguments : CreatePending) (phase : CreatePhase)
  | consumeApprovedGrant (approvalId : String) (phase : ConsumePhase)
  deriving DecidableEq, Repr

/-- The operations a client can call. -/
inductive Operation where
  | prepare (request : PrepareRequest)
  | decide (request : DecideRequest)
  | createPending (arguments : CreatePending)
  | consumeApprovedGrant (approvalId : String)
  deriving DecidableEq, Repr

namespace Operation

def begun : Operation → GrantCall
  | prepare request => .approval (.prepare request .called)
  | decide request => .approval (.decide ⟨request, .called, none, false⟩)
  | createPending arguments => .createPending arguments .called
  | consumeApprovedGrant approvalId => .consumeApprovedGrant approvalId .called

end Operation

structure GrantStore where
  conversations : List Conversation
  table : ApprovalTable
  clock : Int
  calls : List GrantCall
  deriving DecidableEq, Repr

inductive GrantLabel where
  | tick (duration : Nat)
  | createConversation (row : Conversation)
  | call (operation : Operation)
  | statement (call : Nat) (input : Input)
  | crash (call : Nat)
  deriving DecidableEq, Repr

namespace ApprovalRepository

/-- The condition of the update in `consume_approved_grant`. -/
def isApprovedLegacy (approvalId : String) (row : ApprovalRequest) : Bool :=
  row.id = approvalId && row.status = .approved && !row.structured

end ApprovalRepository

namespace GrantStore

def start (conversations : List Conversation) (clock : Int) : GrantStore where
  conversations := conversations
  table := RowStore.ofRows []
  clock := clock
  calls := []

def rows (store : GrantStore) : List ApprovalRequest := store.table.committed

/-- What the statements of `prepare` and `decide` look at. -/
def world (store : GrantStore) : World where
  conversations := store.conversations
  table := store.table
  clock := store.clock
  calls := []
  locks := []

variable (service : ExecutionService) (store : GrantStore) (caller : Nat)

/-- The next statement of a `create_pending` call. A plain insert fails where `ON CONFLICT DO
NOTHING` skips the row; the reference to the conversation is checked when the row is in. -/
def createStatement (arguments : CreatePending) :
    CreatePhase → Input → Option (CreatePhase × ApprovalTable)
  | .called, .host now => some (.stamped now, store.table)
  | .stamped now, .drawn fresh _ =>
      let item := ApprovalRepository.legacyRow arguments fresh.text now
      if !item.fitsColumns then some (.raised .dataError, store.table.rollback caller)
      else match RowStore.insertOnConflictDoNothing conflict store.table caller item with
        | .waits => none
        | .conflicted => some (.refused, store.table.rollback caller)
        | .inserted table =>
            if store.conversations.any (fun row => row.id = item.conversationId) then
              some (.inserted item, table)
            else some (.refused, store.table.rollback caller)
  | .inserted item, .nothing => some (.returned item, store.table.commit caller)
  | .refused, .nothing =>
      match ApprovalRepository.findActionable store.rows arguments.conversationId
          arguments.approvalKey with
      | some existing => some (.returned existing, store.table)
      | none => some (.raised .integrityError, store.table)
  | _, _ => none

def consumeStatement (approvalId : String) :
    ConsumePhase → Input → Option (ConsumePhase × ApprovalTable)
  | .called, .host now => some (.stamped now, store.table)
  | .stamped now, .nothing =>
      if !plain approvalId then some (.raised .dataError, store.table.rollback caller)
      else
        (store.table.updateWhere caller (ApprovalRepository.isApprovedLegacy approvalId)
          (consume now)).map fun (rows, table) => (.updated rows, table)
  | .updated rows, .nothing => some (.returned rows.head?, store.table.commit caller)
  | _, _ => none

/-- The next statement of any call. -/
def callStatement (input : Input) : GrantCall → Option (GrantCall × ApprovalTable)
  | .approval (.prepare request phase) =>
      (store.world.prepareStatement service caller request phase input).map
        fun (next, table, _) => (.approval (.prepare request next), table)
  | .approval (.decide call) =>
      (store.world.decideStatement caller call call.phase input).map
        fun (next, table) => (.approval (.decide next), table)
  | .createPending arguments phase =>
      (store.createStatement caller arguments phase input).map
        fun (next, table) => (.createPending arguments next, table)
  | .consumeApprovedGrant approvalId phase =>
      (store.consumeStatement caller approvalId phase input).map
        fun (next, table) => (.consumeApprovedGrant approvalId next, table)

def crashed : GrantCall → Option GrantCall
  | .approval call => (World.crashed call).map .approval
  | .createPending _ (.returned _) | .createPending _ (.raised _)
  | .createPending _ .crashed => none
  | .createPending arguments _ => some (.createPending arguments .crashed)
  | .consumeApprovedGrant _ (.returned _) | .consumeApprovedGrant _ (.raised _)
  | .consumeApprovedGrant _ .crashed => none
  | .consumeApprovedGrant approvalId _ => some (.consumeApprovedGrant approvalId .crashed)

def put (call : GrantCall) (table : ApprovalTable) : GrantStore :=
  { store with table := table, calls := store.calls.set caller call }

def step : GrantLabel → Option GrantStore
  | .tick duration => some { store with clock := store.clock + duration }
  | .createConversation row =>
      (ConversationRepository.create store.conversations row).map fun conversations =>
        { store with conversations := conversations }
  | .call operation => some { store with calls := store.calls ++ [operation.begun] }
  | .statement caller input =>
      (store.calls[caller]?).bind fun call =>
        (store.callStatement service caller input call).map fun (next, table) =>
          store.put caller next table
  | .crash caller =>
      (store.calls[caller]?).bind fun call =>
        (crashed call).map fun next => store.put caller next (store.table.rollback caller)

end GrantStore

def grantStore (service : ExecutionService) : Machine GrantStore GrantLabel where
  step store label := store.step service label

/-! ## The runs of `prepare` and `decide` alone -/

namespace GrantStore

def ofWorld (world : World) : GrantStore where
  conversations := world.conversations
  table := world.table
  clock := world.clock
  calls := world.calls.map .approval

def ofLabel : Label → GrantLabel
  | .tick duration => .tick duration
  | .createConversation row => .createConversation row
  | .prepare request => .call (.prepare request)
  | .decide request => .call (.decide request)
  | .statement caller input => .statement caller input
  | .crash caller => .crash caller

theorem step_of_world {service : ExecutionService} {world next : World} {label : Label}
    (stepped : (approvals service).step world label = some next) :
    (grantStore service).step (ofWorld world) (ofLabel label) = some (ofWorld next) := by
  have called : ∀ {caller : Nat} {call : Call}, world.calls[caller]? = some call →
      (ofWorld world).calls[caller]? = some (.approval call) := by
    intro caller call here
    simp only [ofWorld, List.getElem?_map, here, Option.map_some]
  cases label with
  | tick duration =>
      cases stepped
      rfl
  | createConversation row =>
      obtain ⟨conversations, created, same⟩ := Option.map_eq_some_iff.mp stepped
      subst same
      simp only [grantStore, step, ofLabel, ofWorld, created, Option.map_some]
  | prepare request =>
      cases stepped
      simp [grantStore, step, ofLabel, ofWorld, Operation.begun]
  | decide request =>
      cases stepped
      simp [grantStore, step, ofLabel, ofWorld, Operation.begun]
  | statement caller input =>
      simp only [approvals, World.step] at stepped
      split at stepped
      · rename_i request phase here
        obtain ⟨⟨after, table, locks⟩, ran, same⟩ := Option.map_eq_some_iff.mp stepped
        subst same
        have ranHere : (ofWorld world).world.prepareStatement service caller request phase input =
            some (after, table, locks) := ran
        simp only [grantStore, step, ofLabel, called here, callStatement, ranHere,
          Option.bind_some, Option.map_some]
        simp only [put, ofWorld, World.put, List.map_set]
      · rename_i call here
        obtain ⟨⟨after, table⟩, ran, same⟩ := Option.map_eq_some_iff.mp stepped
        subst same
        have ranHere : (ofWorld world).world.decideStatement caller call call.phase input =
            some (after, table) := ran
        simp only [grantStore, step, ofLabel, called here, callStatement, ranHere,
          Option.bind_some, Option.map_some]
        simp only [put, ofWorld, World.put, List.map_set]
      · cases stepped
  | crash caller =>
      obtain ⟨call, here, stops⟩ := Option.bind_eq_some_iff.mp stepped
      obtain ⟨after, stopped, same⟩ := Option.map_eq_some_iff.mp stops
      subst same
      simp only [grantStore, step, ofLabel, called here, crashed, stopped, Option.bind_some,
        Option.map_some]
      simp only [put, ofWorld, World.put, List.map_set]

/-- Every run of `prepare` and `decide` calls is a run of the whole table. -/
theorem run_of_world {service : ExecutionService} {world final : World} {labels : List Label}
    (reached : (approvals service).run world labels = some final) :
    (grantStore service).run (ofWorld world) (labels.map ofLabel) = some (ofWorld final) := by
  have simulated := Machine.run_of_abstraction (approvals service) (grantStore service) ofWorld
    (fun label => some (ofLabel label)) (fun _ => True) (fun _ _ _ _ _ => trivial)
    (fun _ _ next _ stepped => (Machine.run_cons ..).2 ⟨ofWorld next, step_of_world stepped, rfl⟩)
    trivial reached
  rw [← List.filterMap_eq_map]
  exact simulated

end GrantStore

end AgentHarness.Approval
