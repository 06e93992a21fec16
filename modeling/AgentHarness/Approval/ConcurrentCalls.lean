import AgentHarness.Conversations.ConversationRepository
import AgentHarness.Executions.ExecutionService
import AgentHarness.Library.Machine
import AgentHarness.Library.RowStore
import AgentHarness.Library.Uuid

/-!
# Calls of the approval store, statement by statement

Any number of `ExecutionService.prepare` and `ApprovalRepository.decide` calls run against one
table. One label is one SQL statement, one reading of a clock or one crash of a call, so a run is
an interleaving at the level of single statements. The transaction of a call is its index.
-/

namespace AgentHarness.Approval

open AgentHarness.Library AgentHarness.Conversations AgentHarness.Executions

set_option autoImplicit false

/-- A row as the locking read found it and the clock it was judged by. -/
structure Judgement where
  wanted : PrepareExecution
  row : ApprovalRequest
  grant : ExecutionGrant
  now : Int
  deriving DecidableEq, Repr

namespace Judgement

def issues (judgement : Judgement) : Bool :=
  judgement.row.issuesAt judgement.grant judgement.now

def decision (judgement : Judgement) : ExecutionDecision :=
  judgement.row.executionDecision judgement.grant judgement.now

end Judgement

inductive PreparePhase where
  | called
  | authorized (wanted : PrepareExecution)
  | began (wanted : PrepareExecution) (now : Int)
  | inserted (wanted : PrepareExecution)
  | locked (wanted : PrepareExecution) (row : ApprovalRequest) (grant : ExecutionGrant)
  | judged (judgement : Judgement)
  | issued (judgement : Judgement)
  | returned (judgement : Judgement)
  | raised (error : Raised)
  | crashed
  deriving DecidableEq, Repr

/-- What a guarded update that changed its row has written, and the database clock it compared the
expiry with. -/
structure Applied where
  decision : Decision
  decidedAt : Int
  matchedAt : Int
  deriving DecidableEq, Repr

inductive DecidePhase where
  | called
  | started (decision : Decision) (now : Int)
  | updated (decision : Decision) (now matchedAt : Int) (rowcount : Nat)
  | won
  | lost
  | reread (row : ApprovalRequest)
  | returned (row : ApprovalRequest)
  | raised (error : Raised)
  | crashed
  deriving DecidableEq, Repr

/-- `applied` is set by the commit of an update that changed a row. `missing` records that no
committed row had the id when the update ran. -/
structure DecideCall where
  request : DecideRequest
  phase : DecidePhase
  applied : Option Applied
  missing : Bool
  deriving DecidableEq, Repr

inductive Call where
  | prepare (request : PrepareRequest) (phase : PreparePhase)
  | decide (call : DecideCall)
  deriving DecidableEq, Repr

abbrev ApprovalTable := RowStore Nat ApprovalRequest

/-- `locks` lists the calls of `prepare` in the order their locking reads returned. -/
structure World where
  conversations : List Conversation
  table : ApprovalTable
  clock : Int
  calls : List Call
  locks : List Nat
  deriving DecidableEq, Repr

/-- What a statement takes from outside the database: drawn identifiers or the host clock. -/
inductive Input where
  | nothing
  | drawn (id executionId : Uuid)
  | host (now : Int)
  deriving DecidableEq, Repr

inductive Label where
  | tick (duration : Nat)
  | createConversation (row : Conversation)
  | prepare (request : PrepareRequest)
  | decide (request : DecideRequest)
  | statement (call : Nat) (input : Input)
  | crash (call : Nat)
  deriving DecidableEq, Repr

namespace World

/-- The store before any call: the rows of earlier releases, none of them structured. -/
def start (conversations : List Conversation) (legacy : List ApprovalRequest) (clock : Int) :
    World where
  conversations := conversations
  table := RowStore.ofRows legacy
  clock := clock
  calls := []
  locks := []

def rows (world : World) : List ApprovalRequest := world.table.committed

/-- `get` in a transaction of its own. -/
def get (world : World) (approvalId : String) : Option ApprovalRequest :=
  world.rows.find? fun row => row.id = approvalId

variable (service : ExecutionService) (world : World) (caller : Nat)

/-- The next statement of a `prepare` call, with the table it leaves and whether it took the row
lock. Leaving the `with` block commits; an exception inside it rolls back. -/
def prepareStatement (request : PrepareRequest) :
    PreparePhase → Input → Option (PreparePhase × ApprovalTable × Bool)
  | .called, .nothing =>
      match ConversationRepository.getOwned world.conversations request.conversationId
          request.tenantId request.userId with
      | none => some (.raised (.keyError request.conversationId), world.table, false)
      | some _ =>
          match service.authorize request with
          | .error error => some (.raised error, world.table, false)
          | .ok wanted => some (.authorized wanted, world.table, false)
  | .authorized wanted, .nothing => some (.began wanted world.clock, world.table, false)
  | .began wanted now, .drawn id executionId =>
      let row := ApprovalRequest.newGrant wanted id.text executionId.text now
      if !row.fitsColumns then some (.raised .dataError, world.table.rollback caller, false)
      else match RowStore.insertOnConflictDoNothing ApprovalRequest.conflict world.table caller
          row with
        | .waits => none
        | .conflicted => some (.inserted wanted, world.table, false)
        | .inserted table => some (.inserted wanted, table, false)
  | .inserted wanted, .nothing =>
      match world.table.lockWhere caller (ApprovalRequest.isGrantOf wanted) with
      | none => none
      | some ([], _) => some (.raised .noResultFound, world.table.rollback caller, false)
      | some ([row], table) =>
          row.grant.map fun grant => (.locked wanted row grant, table, true)
      | some (_ :: _ :: _, _) =>
          some (.raised .multipleResultsFound, world.table.rollback caller, false)
  | .locked wanted row grant, .nothing =>
      some (.judged ⟨wanted, row, grant, world.clock⟩, world.table, false)
  | .judged judgement, .nothing =>
      if judgement.issues then
        (world.table.updateWhere caller (fun row => row.id = judgement.row.id)
          (ApprovalRequest.consume judgement.now)).map fun (_, table) =>
            (.issued judgement, table, false)
      else some (.returned judgement, world.table.commit caller, false)
  | .issued judgement, .nothing =>
      some (.returned judgement, world.table.commit caller, false)
  | _, _ => none

/-- The next statement of a `decide` call, with the table it leaves. -/
def decideStatement (call : DecideCall) : DecidePhase → Input → Option (DecideCall × ApprovalTable)
  | .called, .host now =>
      match Decision.ofText call.request.decision with
      | none => some ({ call with
          phase := .raised (.valueError "decision 只能是 approve 或 reject") }, world.table)
      | some decision => some ({ call with phase := .started decision now }, world.table)
  | .started decision now, .nothing =>
      -- the database refuses such a text before it reads any row
      if !call.request.storable then
        some ({ call with phase := .raised .dataError }, world.table)
      else
        (world.table.updateWhere caller (ApprovalRequest.isDecidable call.request world.clock)
          (ApprovalRequest.applyDecision decision call.request.decidedBy now)).map
            fun (changed, table) =>
              ({ call with
                  phase := .updated decision now world.clock changed.length
                  missing := world.rows.all fun row => row.id ≠ call.request.approvalId }, table)
  | .updated decision now matchedAt rowcount, .nothing =>
      if rowcount = 0 then some ({ call with phase := .lost }, world.table.commit caller)
      else some ({ call with phase := .won, applied := some ⟨decision, now, matchedAt⟩ },
        world.table.commit caller)
  | .won, .nothing =>
      match world.get call.request.approvalId with
      | none => some ({ call with phase := .raised (.keyError call.request.approvalId) },
          world.table)
      | some row => some ({ call with phase := .returned row }, world.table)
  | .lost, .nothing =>
      match world.get call.request.approvalId with
      | none => some ({ call with phase := .raised (.keyError call.request.approvalId) },
          world.table)
      | some row =>
          if row.tenantId ≠ call.request.tenantId then
            some ({ call with phase := .raised (.keyError call.request.approvalId) }, world.table)
          else some ({ call with phase := .reread row }, world.table)
  | .reread row, .host now => some ({ call with phase := .raised (row.refusal now) }, world.table)
  | _, _ => none

/-- The process of the call stops, or the database ends its transaction (a deadline, a lost
connection): what is not committed is rolled back. -/
def crashed : Call → Option Call
  | .prepare _ (.returned _) | .prepare _ (.raised _) | .prepare _ .crashed => none
  | .prepare request _ => some (.prepare request .crashed)
  | .decide call =>
      match call.phase with
      | .returned _ | .raised _ | .crashed => none
      | _ => some (.decide { call with phase := .crashed })

def put (call : Call) (table : ApprovalTable) : World :=
  { world with table := table, calls := world.calls.set caller call }

def step : Label → Option World
  | .tick duration => some { world with clock := world.clock + duration }
  | .createConversation row =>
      (ConversationRepository.create world.conversations row).map fun conversations =>
        { world with conversations := conversations }
  | .prepare request =>
      some { world with calls := world.calls ++ [.prepare request .called] }
  | .decide request =>
      some { world with calls := world.calls ++ [.decide ⟨request, .called, none, false⟩] }
  | .statement caller input =>
      match world.calls[caller]? with
      | some (.prepare request phase) =>
          (world.prepareStatement service caller request phase input).map
            fun (next, table, locks) =>
              { world.put caller (.prepare request next) table with
                locks := if locks then world.locks ++ [caller] else world.locks }
      | some (.decide call) =>
          (world.decideStatement caller call call.phase input).map fun (next, table) =>
            world.put caller (.decide next) table
      | none => none
  | .crash caller =>
      (world.calls[caller]?).bind fun call =>
        (crashed call).map fun next => world.put caller next (world.table.rollback caller)

end World

def approvals (service : ExecutionService) : Machine World Label where
  step world label := world.step service label

end AgentHarness.Approval
