import AgentHarness.Conversations.ConversationRepository
import AgentHarness.Runtime.Admission
import AgentHarness.Services.OpenStream
import Mathlib.Data.Finset.Basic

/-!
# The agent service on one event loop

Each request resolves its conversation, submits one operation and leaves a consumer behind. A task
runs `execute` around the operation; what it is waiting for is its phase, and the runtime and the
thread pool decide how each wait ends. One label is one piece of code between two suspension
points, so a list of labels is one interleaving of tasks, consumers, timers and shutdown calls.
-/

namespace AgentHarness.Services

open AgentHarness.Library AgentHarness.Events AgentHarness.Runtime AgentHarness.Conversations

set_option autoImplicit false

structure ServicePrincipal where
  userId : String
  tenantId : String
  roles : Finset String
  deriving DecidableEq

/-- A call of the runtime port with the arguments it is given. -/
inductive PortCall where
  | createThread (principal : ServicePrincipal)
  | archiveThread (threadId : String)
  | readThread (threadId : String) (principal : ServicePrincipal)
  | compactThread (threadId : String) (principal : ServicePrincipal)
  | runTurn (threadId conversationId message : String) (principal : ServicePrincipal)
  | streamTurn (threadId conversationId message : String) (principal : ServicePrincipal)
  deriving DecidableEq

/-- What a port call or an operation returns. -/
inductive Value where
  | done
  | thread (threadId : String)
  | snapshot (content : Json)
  | answer (text : String)
  | conversation (row : Conversation)
  deriving DecidableEq

namespace PortCall

/-- The declared return types of the port. -/
def returns : PortCall → Value → Bool
  | createThread _, .thread _ => true
  | archiveThread _, .done => true
  | readThread _ _, .snapshot _ => true
  | compactThread _ _, .done => true
  | runTurn _ _ _ _, .answer _ => true
  | streamTurn _ _ _ _, .done => true
  | _, _ => false

def returnsResult (call : PortCall) : Except RuntimeFault Value → Bool
  | .ok value => call.returns value
  | .error _ => true

end PortCall

/-- The closure given to `submit`, with the conversation `_resolve_owned` found. -/
inductive Operation where
  | createConversation (conversationId : String) (principal : ServicePrincipal)
  | readConversation (conversation : Conversation) (principal : ServicePrincipal)
  | compactConversation (conversation : Conversation) (principal : ServicePrincipal)
  | chat (conversation : Conversation) (message : String) (principal : ServicePrincipal)
  | openStream (conversation : Conversation) (message : String) (principal : ServicePrincipal)
  deriving DecidableEq

namespace Operation

def resolved : Operation → Option (Conversation × ServicePrincipal)
  | createConversation _ _ => none
  | readConversation conversation principal => some (conversation, principal)
  | compactConversation conversation principal => some (conversation, principal)
  | chat conversation _ principal => some (conversation, principal)
  | openStream conversation _ principal => some (conversation, principal)

def key : Operation → String
  | createConversation conversationId _ => conversationId
  | readConversation conversation _ => conversation.id
  | compactConversation conversation _ => conversation.id
  | chat conversation _ _ => conversation.id
  | openStream conversation _ _ => conversation.id

def firstCall : Operation → PortCall
  | createConversation _ principal => .createThread principal
  | readConversation conversation principal => .readThread conversation.runtimeThreadId principal
  | compactConversation conversation principal =>
      .compactThread conversation.runtimeThreadId principal
  | chat conversation message principal =>
      .runTurn conversation.runtimeThreadId conversation.id message principal
  | openStream conversation message principal =>
      .streamTurn conversation.runtimeThreadId conversation.id message principal

end Operation

/-- What a task is waiting for. A task cancelled before its first step never runs its body. -/
inductive Phase where
  | scheduled
  | dropped
  | calling (call : PortCall)
  | storing (row : Conversation)
  | archiving (row : Conversation)
  deriving DecidableEq

structure Task where
  /-- The consumer the task was created for. -/
  consumer : Nat
  operation : Operation
  phase : Phase := .scheduled
  /-- A `CancelledError` is thrown at the next resumption. -/
  cancelling : Bool := false
  /-- `cancel` was called from outside. The count behind it never falls back to zero, not even where
  the operation absorbs the `CancelledError`. -/
  cancelRequested : Bool := false
  /-- The deadline of `asyncio.timeout` has passed. -/
  expired : Bool := false
  deriving DecidableEq

namespace Task

def cancel (task : Task) : Task := { task with cancelling := true, cancelRequested := true }

def cancelFor (consumer : Nat) (task : Task) : Task :=
  if task.consumer = consumer then task.cancel else task

def expire (task : Task) : Task := { task with cancelling := true, expired := true }

/-- `asyncio.timeout` turns the `CancelledError` into a `TimeoutError` only where the deadline alone
has cancelled the task. -/
def timedOut (task : Task) : Bool := task.expired && !task.cancelRequested

def started (task : Task) : Bool :=
  match task.phase with
  | .scheduled | .dropped => false
  | _ => true

/-- The port call in progress. -/
def portCall (task : Task) : Option PortCall :=
  match task.phase with
  | .calling call => some call
  | .archiving row => some (.archiveThread row.runtimeThreadId)
  | _ => none

end Task

/-- What a coroutine awaits: a task itself, or a shield around it. -/
inductive Awaitable where
  | task (consumer : Nat)
  | shield (consumer : Nat)
  deriving DecidableEq, Repr

/-- The HTTP side of one admitted operation. -/
inductive Consumer where
  | awaiting (target : Awaitable) (result : Option (Except TaskError Value))
  | streaming (stream : Stream)
  | gone
  deriving DecidableEq

inductive ConsumerAction where
  | resume
  | cancel
  | aclose
  deriving DecidableEq, Repr

structure Service where
  admission : AdmissionController Task
  conversations : List Conversation
  /-- Insert statements handed to the thread pool, neither committed nor failed. -/
  inserts : List Conversation
  /-- Threads the remote runtime has given out, with the conversation each was created for. -/
  threads : List (String × String)
  /-- Port calls in the order they were made. -/
  calls : List PortCall
  /-- Tasks that ended while their operation was unresolved. -/
  lost : List (String × Task)
  consumers : List Consumer

namespace Service

def new (limit : Nat) (positive : 1 ≤ limit) (conversations : List Conversation) : Service where
  admission := .new limit positive
  conversations := conversations
  inserts := []
  threads := conversations.map fun row => (row.runtimeThreadId, row.id)
  calls := []
  lost := []
  consumers := []

inductive Label where
  /-- A request past `_resolve_owned` calls `submit`. -/
  | submit (operation : Operation)
  /-- The first step of an admitted task. -/
  | start (key : String)
  /-- The pending port call returns or raises. -/
  | settle (key : String) (result : Except RuntimeFault Value)
  /-- `stream_turn` yields an event. -/
  | emit (key : String) (event : AgentEvent)
  /-- The database commits an insert of the thread pool. -/
  | commit (row : Conversation)
  /-- An insert of the thread pool fails or is never started: no commit follows. -/
  | insertFails (row : Conversation)
  /-- The repository call returns, raises, or is abandoned because of a cancellation. -/
  | stored (key : String)
  | storeFails (key : String)
  | storeCancelled (key : String)
  | deadline (key : String)
  | cancel (key : String)
  | drain
  | cancelAfterRuntimeClosed
  | consumer (index : Nat) (action : ConsumerAction)
  deriving DecidableEq

/-- What the task's end means for its consumer: `run` sees the task's result, and `produce` has
called `finish` on the subscription. -/
def notify (task : Task) (ending : Except RuntimeFault Value) : Consumer → Consumer
  | .awaiting target _ =>
      .awaiting target (some (AdmissionController.taskResult task.timedOut ending))
  | .streaming stream =>
      .streaming { stream with
        subscription := stream.subscription.finish
          (finishError (match ending with | .ok _ => none | .error fault => some fault)) }
  | .gone => .gone

/-- The end of a started task. -/
def leave (service : Service) (key : String) (task : Task)
    (ending : Except RuntimeFault Value) : Service :=
  { service with
    admission := service.admission.leave key ending
    lost := if AdmissionController.outcomeKnown ending then service.lost
      else service.lost ++ [(key, task)]
    consumers := service.consumers.modify task.consumer (notify task ending) }

def setTask (service : Service) (key : String) (task : Task) : Service :=
  { service with admission := service.admission.updateTask key fun _ => task }

/-- A task that goes on to its next wait: a cancellation delivered before was absorbed. -/
def proceed (service : Service) (key : String) (task : Task) (phase : Phase) : Service :=
  service.setTask key { task with phase := phase, cancelling := false }

def openConsumer (operation : Operation) (index : Nat) : Consumer :=
  match operation with
  | .openStream conversation _ _ => .streaming (.new conversation.id maxEvents)
  | _ => .awaiting (.shield index) none

/-- Rows are never changed or removed, so the conversation a request resolved earlier is the one
`get_owned` finds when it submits. -/
def resolves (service : Service) (operation : Operation) : Bool :=
  match operation.resolved with
  | none => true
  | some (conversation, principal) =>
      ConversationRepository.getOwned service.conversations conversation.id principal.tenantId
        principal.userId = some conversation

def submit (service : Service) (operation : Operation) : Option Service :=
  if service.resolves operation then
    match service.admission.submit operation.key
        { consumer := service.consumers.length, operation := operation } with
    | .error _ => some service
    | .ok admission =>
        some { service with
          admission := admission
          consumers := service.consumers ++ [openConsumer operation service.consumers.length] }
  else none

def start (service : Service) (key : String) (task : Task) : Option Service :=
  match task.phase with
  | .scheduled =>
      if task.cancelling then
        some { service.setTask key { task with phase := .dropped } with
          consumers := service.consumers.modify task.consumer fun
            | .awaiting target _ => .awaiting target (some (.error .cancelled))
            | other => other }
      else
        some { service.setTask key { task with phase := .calling task.operation.firstCall } with
          calls := service.calls ++ [task.operation.firstCall] }
  | _ => none

/-- The thread `create_thread` returned is taken to be a fresh one. -/
def threadCreated (service : Service) (key : String) (task : Task)
    (principal : ServicePrincipal) (threadId : String) : Option Service :=
  if threadId ∈ service.threads.map Prod.fst then none
  else
    let row : Conversation :=
      { id := key, tenantId := principal.tenantId, userId := principal.userId
        runtimeThreadId := threadId }
    some { service.proceed key task (.storing row) with
      inserts := service.inserts ++ [row]
      threads := service.threads ++ [(threadId, key)] }

def settle (result : Except RuntimeFault Value) (service : Service) (key : String)
    (task : Task) : Option Service :=
  match task.phase with
  | .calling call =>
      if call.returnsResult result then
        match task.operation, result with
        | .createConversation _ principal, .ok (.thread threadId) =>
            service.threadCreated key task principal threadId
        | _, _ => some (service.leave key task result)
      else none
  | .archiving row =>
      if (PortCall.archiveThread row.runtimeThreadId).returnsResult result then
        -- `finally: raise` raises the repository's error again unless archiving raised its own.
        match result with
        | .ok _ => some (service.leave key task (.error .failed))
        | .error fault => some (service.leave key task (.error fault))
      else none
  | _ => none

def emit (event : AgentEvent) (service : Service) (key : String) (task : Task) :
    Option Service :=
  match task.phase, task.operation, service.consumers[task.consumer]? with
  | .calling (.streamTurn _ _ _ _), .openStream _ _ _, some (.streaming stream) =>
      match stream.subscription.publish event with
      | .ok subscription =>
          some { service.setTask key { task with cancelling := false } with
            consumers := service.consumers.set task.consumer
              (.streaming { stream with subscription := subscription }) }
      | .error _ => some (service.leave key task (.error .failed))
  | _, _, _ => none

def stored (service : Service) (key : String) (task : Task) : Option Service :=
  match task.phase with
  | .storing row =>
      if task.cancelling || !(service.conversations.contains row) then none
      else some (service.leave key task (.ok (.conversation row)))
  | _ => none

/-- The repository's error starts the compensation. Where the answer of the transaction was lost, the
row is stored, or may still be. -/
def storeFails (service : Service) (key : String) (task : Task) : Option Service :=
  match task.phase with
  | .storing row =>
      if task.cancelling then none
      else some { service.setTask key { task with phase := .archiving row } with
        calls := service.calls ++ [.archiveThread row.runtimeThreadId] }
  | _ => none

/-- `except Exception` does not see a `CancelledError`: nothing is archived, and the thread of the
pool goes on with its insert. -/
def storeCancelled (service : Service) (key : String) (task : Task) : Option Service :=
  match task.phase with
  | .storing _ =>
      if task.cancelling then some (service.leave key task (.error .cancelled)) else none
  | _ => none

def commit (service : Service) (row : Conversation) : Option Service :=
  if row ∈ service.inserts then
    (ConversationRepository.create service.conversations row).map fun rows =>
      { service with conversations := rows, inserts := service.inserts.erase row }
  else none

/-- Where a task still waits for the insert, `storeFails` brings it the error; an insert nobody waits
for fails unnoticed. -/
def insertFails (service : Service) (row : Conversation) : Option Service :=
  if row ∈ service.inserts then some { service with inserts := service.inserts.erase row } else none

def deadline (service : Service) (key : String) (task : Task) : Option Service :=
  if task.started && !task.expired then some (service.setTask key task.expire) else none

/-- Cancelling a task that is done has no effect. -/
def cancel (service : Service) (key : String) (task : Task) : Option Service :=
  if task.phase = .dropped then none else some (service.setTask key task.cancel)

/-- Cancelling a coroutine cancels what it awaits; a shield keeps the task out of reach. -/
def cancelAwaited (service : Service) : Awaitable → Service
  | .shield _ => service
  | .task index =>
      { service with
        admission := service.admission.cancelAll (Task.cancelFor index) }

def consume (service : Service) (index : Nat) (action : ConsumerAction) : Option Service :=
  match service.consumers[index]?, action with
  | some (.awaiting _ (some _)), .resume =>
      some { service with consumers := service.consumers.set index .gone }
  | some (.awaiting target _), .cancel =>
      some { service.cancelAwaited target with consumers := service.consumers.set index .gone }
  | some (.streaming stream), action =>
      (stream.step (match action with
        | .resume => .resume
        | .cancel => .abandon
        | .aclose => .aclose)).map fun next =>
          { service with consumers := service.consumers.set index (.streaming next) }
  | _, _ => none

/-- The task a label is about. -/
def onTask (service : Service) (key : String)
    (action : Service → String → Task → Option Service) : Option Service :=
  (service.admission.tasks.get? key).bind (action service key)

def step (service : Service) : Label → Option Service
  | .submit operation => service.submit operation
  | .start key => service.onTask key start
  | .settle key result => service.onTask key (settle result)
  | .emit key event => service.onTask key (emit event)
  | .commit row => service.commit row
  | .insertFails row => service.insertFails row
  | .stored key => service.onTask key stored
  | .storeFails key => service.onTask key storeFails
  | .storeCancelled key => service.onTask key storeCancelled
  | .deadline key => service.onTask key deadline
  | .cancel key => service.onTask key cancel
  | .drain => some { service with admission := service.admission.drain }
  | .cancelAfterRuntimeClosed =>
      some { service with admission := service.admission.cancelAll Task.cancel }
  | .consumer index action => service.consume index action

def machine : Machine Service Label where
  step := step

end Service

end AgentHarness.Services
