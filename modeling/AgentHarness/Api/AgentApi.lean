import AgentHarness.Services.RuntimeAccounts
import AgentHarness.Services.ServiceAuth

/-!
# The endpoints of the agent

A request passes its dependencies, resolves its conversation in the thread pool, submits its
operation and awaits it; each of these is one step of the event loop, with steps of the service in
between. What the service raises becomes an answer in the `except` clauses of the endpoint.
-/

namespace AgentHarness.Api

open AgentHarness.Library AgentHarness.Runtime AgentHarness.Conversations AgentHarness.Services

set_option autoImplicit false

/-! ## Answers -/

inductive Detail where
  | code (code : String)
  | message (text : String)
  /-- A validation error with its location. -/
  | invalid (location : List String) (kind : String)
  deriving DecidableEq, Repr

/-- An error answer, with its `Retry-After` header if it has one. -/
structure HttpException where
  statusCode : Nat
  detail : Detail
  retryAfter : Option String := none
  deriving DecidableEq, Repr

/-- The bodies of the successful answers. -/
inductive Content where
  | created (conversationId : String)
  | snapshot (conversationId : String) (runtimeSnapshot : List (String × Json))
  | compacted (conversationId status : String)
  | turn (conversationId answer : String)
  | eventStream
  deriving DecidableEq

inductive Answer where
  | ok (content : Content)
  | error (exception : HttpException)
  /-- An exception that no handler knows. -/
  | internalError
  /-- A `CancelledError` passes every handler: the application gives no answer. -/
  | aborted
  deriving DecidableEq

def Answer.retryAfter : Answer → Option String
  | .error exception => exception.retryAfter
  | _ => none

def rejected (error : AdmissionRejected) : HttpException where
  statusCode := error.statusCode
  detail := .code error.code
  retryAfter := some "1"

def turnFailed : HttpException where
  statusCode := 502
  detail := .code "TURN_FAILED"

def outcomeUnknown : HttpException where
  statusCode := 503
  detail := .code "RUNTIME_OUTCOME_UNKNOWN"

def notFound : HttpException where
  statusCode := 404
  detail := .message "Conversation 不存在"

/-- The application's handler of `SQLAlchemyError`. -/
def databaseUnavailable : HttpException where
  statusCode := 503
  detail := .code "DATABASE_UNAVAILABLE"
  retryAfter := some "1"

/-! ## Requests -/

/-- What is asked for an existing conversation. -/
inductive Work where
  | readConversation
  | compactConversation
  | runTurn (message : String)
  | streamTurn (message : String)
  deriving DecidableEq, Repr

inductive Route where
  | createConversation
  | onConversation (conversationId : String) (work : Work)
  deriving DecidableEq, Repr

structure HttpRequest where
  route : Route
  headers : ServiceRequest
  deriving DecidableEq, Repr

def Work.operation (conversation : Conversation) (principal : ServicePrincipal) :
    Work → Operation
  | .readConversation => .readConversation conversation principal
  | .compactConversation => .compactConversation conversation principal
  | .runTurn message => .chat conversation message principal
  | .streamTurn message => .openStream conversation message principal

/-- The refusals of `require_service_principal`. -/
def unauthenticated : Nat → Answer
  | 401 => .error { statusCode := 401, detail := .message "Agent Service 认证失败" }
  | 400 => .error { statusCode := 400, detail := .message "必须提供 X-User-Id 和 X-Tenant-Id" }
  | _ => .internalError

def requireOperatorPrincipal (principal : ServicePrincipal) : Except Answer ServicePrincipal :=
  if "agent.operator" ∈ principal.roles then .ok principal
  else .error (.error { statusCode := 403, detail := .message "当前用户没有 Agent 运维权限" })

/-- The bounds of `RunTurnRequest.message`. -/
def validMessage (message : String) : Except Answer Unit :=
  if message.length < 1 then
    .error (.error
      { statusCode := 422, detail := .invalid ["body", "message"] "string_too_short" })
  else if 32000 < message.length then
    .error (.error
      { statusCode := 422, detail := .invalid ["body", "message"] "string_too_long" })
  else .ok ()

def servicePrincipal (secret : String) (request : HttpRequest) : Except Answer ServicePrincipal :=
  match requireServicePrincipal secret request.headers with
  | .ok principal => .ok principal
  | .error statusCode => .error (unauthenticated statusCode)

/-- The dependencies of an endpoint, and then its body. -/
def dependencies (secret : String) (request : HttpRequest) : Except Answer ServicePrincipal := do
  let principal ← servicePrincipal secret request
  match request.route with
  | .createConversation => .ok principal
  | .onConversation _ .readConversation => requireOperatorPrincipal principal
  | .onConversation _ .compactConversation => requireOperatorPrincipal principal
  | .onConversation _ (.runTurn message) => do
      validMessage message
      .ok principal
  | .onConversation _ (.streamTurn message) => do
      validMessage message
      .ok principal

/-! ## From exceptions to answers -/

inductive Raised where
  | admissionRejected (error : AdmissionRejected)
  | executionFailed
  | runtimeUnavailable
  | keyError
  | sqlAlchemyError
  | cancelledError
  deriving DecidableEq, Repr

/-- The clauses of the endpoints that await their operation. -/
def awaited : Raised → Option HttpException
  | .admissionRejected error => some (rejected error)
  | .executionFailed => some turnFailed
  | .runtimeUnavailable => some outcomeUnknown
  | _ => none

namespace Clauses

def createConversation : Raised → Option HttpException := awaited

def readConversation : Raised → Option HttpException
  | .keyError => some notFound
  | raised => awaited raised

def compactConversation : Raised → Option HttpException := readConversation

def runTurn : Raised → Option HttpException := readConversation

/-- `open_stream` returns before its operation has begun. -/
def streamTurn : Raised → Option HttpException
  | .keyError => some notFound
  | .admissionRejected error => some (rejected error)
  | _ => none

end Clauses

namespace Route

def clauses : Route → Raised → Option HttpException
  | .createConversation => Clauses.createConversation
  | .onConversation _ .readConversation => Clauses.readConversation
  | .onConversation _ .compactConversation => Clauses.compactConversation
  | .onConversation _ (.runTurn _) => Clauses.runTurn
  | .onConversation _ (.streamTurn _) => Clauses.streamTurn

/-- The answer where the endpoint's body raises. -/
def raise (route : Route) (raised : Raised) : Answer :=
  match route.clauses raised, raised with
  | some exception, _ => .error exception
  | none, .sqlAlchemyError => .error databaseUnavailable
  | none, .cancelledError => .aborted
  | none, _ => .internalError

/-- The body of the answer for what the operation returned. The response model takes nothing but a
dictionary for the snapshot. -/
def content : Route → Value → Option Content
  | .createConversation, .conversation row => some (.created row.id)
  | .onConversation conversationId .readConversation, .snapshot (.obj entries) =>
      some (.snapshot conversationId entries)
  | .onConversation conversationId .compactConversation, .done =>
      some (.compacted conversationId "COMPACTION_COMPLETED")
  | .onConversation conversationId (.runTurn _), .answer text => some (.turn conversationId text)
  | _, _ => none

/-- The answer once the awaited task has ended. -/
def conclude (route : Route) : Except TaskError Value → Answer
  | .ok value =>
      match route.content value with
      | some content => .ok content
      | none => .internalError
  | .error .executionFailed => route.raise .executionFailed
  | .error .runtimeUnavailable => route.raise .runtimeUnavailable
  | .error .cancelled => route.raise .cancelledError

end Route

/-! ## Handlers -/

/-- Where the handling of a request stands. -/
inductive Stage where
  /-- The dependencies have let the request through. -/
  | received (principal : ServicePrincipal)
  /-- `_resolve_owned` has found the conversation. -/
  | found (operation : Operation)
  | awaiting (consumer : Nat)
  /-- The headers of the event stream are sent. -/
  | streaming (consumer : Nat)
  | answered (consumer : Option Nat) (answer : Answer)
  /-- The coroutine of the request was cancelled. -/
  | gone (consumer : Option Nat)
  deriving DecidableEq

namespace Stage

/-- The consumer of the operation the request has submitted. -/
def consumer? : Stage → Option Nat
  | .received _ | .found _ => none
  | .awaiting consumer | .streaming consumer => some consumer
  | .answered consumer _ | .gone consumer => consumer

def answer? : Stage → Option Answer
  | .streaming _ => some (.ok .eventStream)
  | .answered _ answer => some answer
  | _ => none

end Stage

structure Handler where
  request : HttpRequest
  stage : Stage
  deriving DecidableEq

/-- The service behind the router, and the requests it has taken. -/
structure Router where
  service : Service
  /-- The requests in the order they came. -/
  handlers : List Handler

namespace Router

def new (limit : Nat) (positive : 1 ≤ limit) (conversations : List Conversation) : Router where
  service := .new limit positive conversations
  handlers := []

inductive Label where
  | receive (request : HttpRequest)
  /-- `_resolve_owned` returns or raises, or the database does. -/
  | resolve (handler : Nat) (unavailable : Bool)
  /-- A creation takes a new id and submits its operation. -/
  | create (handler : Nat) (conversationId : String)
  | submit (handler : Nat)
  /-- The awaited task has ended. -/
  | reply (handler : Nat)
  | cancel (handler : Nat)
  /-- The body of an event stream goes on. -/
  | stream (handler : Nat) (action : ConsumerAction)
  /-- Tasks, timers, the thread pool and shutdown calls. -/
  | work (label : Service.Label)
  deriving DecidableEq

/-- The labels of the service that no request stands behind. -/
def internal : Service.Label → Bool
  | .submit _ | .consumer _ _ => false
  | _ => true

/-- The step of the service a label stands for. -/
def serviceLabel (router : Router) : Label → Option Service.Label
  | .receive _ | .resolve _ _ => none
  | .create index conversationId =>
      (router.handlers[index]?).bind fun handler =>
        match handler.stage with
        | .received principal => some (.submit (.createConversation conversationId principal))
        | _ => none
  | .submit index =>
      (router.handlers[index]?).bind fun handler =>
        match handler.stage with
        | .found operation => some (.submit operation)
        | _ => none
  | .reply index =>
      (router.handlers[index]?).bind fun handler =>
        handler.stage.consumer?.map fun consumer => .consumer consumer .resume
  | .cancel index =>
      (router.handlers[index]?).bind fun handler =>
        handler.stage.consumer?.map fun consumer => .consumer consumer .cancel
  | .stream index action =>
      (router.handlers[index]?).bind fun handler =>
        handler.stage.consumer?.map fun consumer => .consumer consumer action
  | .work label => some label

def setStage (router : Router) (index : Nat) (handler : Handler) (stage : Stage) : Router :=
  { router with handlers := router.handlers.set index { handler with stage := stage } }

def receive (secret : String) (router : Router) (request : HttpRequest) : Router :=
  { router with
    handlers := router.handlers ++
      [{ request := request
         stage := match dependencies secret request with
          | .ok principal => .received principal
          | .error answer => .answered none answer }] }

def resolve (unavailable : Bool) (router : Router) (index : Nat) (handler : Handler) :
    Option Router :=
  match handler.request.route, handler.stage with
  | .onConversation conversationId work, .received principal =>
      let route := handler.request.route
      if unavailable then
        some (router.setStage index handler (.answered none (route.raise .sqlAlchemyError)))
      else
        match ConversationRepository.getOwned router.service.conversations conversationId
            principal.tenantId principal.userId with
        | none => some (router.setStage index handler (.answered none (route.raise .keyError)))
        | some conversation =>
            some (router.setStage index handler (.found (work.operation conversation principal)))
  | _, _ => none

/-- Where a request stands that has submitted its operation. -/
def submitted (operation : Operation) (consumer : Nat) : Stage :=
  match operation with
  | .openStream _ _ _ => .streaming consumer
  | _ => .awaiting consumer

/-- The call of `submit`, with no suspension before or after it. -/
def enter (operation : Operation) (router : Router) (index : Nat) (handler : Handler) :
    Option Router :=
  (router.service.submit operation).map fun service =>
    { router.setStage index handler
        (match router.service.admission.submit operation.key
            { consumer := router.service.consumers.length, operation := operation } with
        | .error error =>
            .answered none (handler.request.route.raise (.admissionRejected error))
        | .ok _ => submitted operation router.service.consumers.length) with
      service := service }

def create (conversationId : String) (router : Router) (index : Nat) (handler : Handler) :
    Option Router :=
  match handler.request.route, handler.stage with
  | .createConversation, .received principal =>
      router.enter (.createConversation conversationId principal) index handler
  | _, _ => none

def submit (router : Router) (index : Nat) (handler : Handler) : Option Router :=
  match handler.stage with
  | .found operation => router.enter operation index handler
  | _ => none

def reply (router : Router) (index : Nat) (handler : Handler) : Option Router :=
  match handler.stage with
  | .awaiting consumer =>
      match router.service.consumers[consumer]? with
      | some (.awaiting _ (some result)) =>
          (router.service.consume consumer .resume).map fun service =>
            { router.setStage index handler
                (.answered (some consumer) (handler.request.route.conclude result)) with
              service := service }
      | _ => none
  | _ => none

def cancel (router : Router) (index : Nat) (handler : Handler) : Option Router :=
  match handler.stage with
  | .received _ | .found _ => some (router.setStage index handler (.gone none))
  | .awaiting consumer =>
      (router.service.consume consumer .cancel).map fun service =>
        { router.setStage index handler (.gone (some consumer)) with service := service }
  | _ => none

def stream (action : ConsumerAction) (router : Router) (_ : Nat) (handler : Handler) :
    Option Router :=
  match handler.stage with
  | .streaming consumer =>
      (router.service.consume consumer action).map fun service => { router with service := service }
  | _ => none

/-- The handler a label is about. -/
def onHandler (router : Router) (index : Nat) (action : Router → Nat → Handler → Option Router) :
    Option Router :=
  (router.handlers[index]?).bind (action router index)

def step (secret : String) (router : Router) : Label → Option Router
  | .receive request => some (router.receive secret request)
  | .resolve index unavailable => router.onHandler index (resolve unavailable)
  | .create index conversationId => router.onHandler index (create conversationId)
  | .submit index => router.onHandler index submit
  | .reply index => router.onHandler index reply
  | .cancel index => router.onHandler index cancel
  | .stream index action => router.onHandler index (stream action)
  | .work label =>
      if internal label then
        (router.service.step label).map fun service => { router with service := service }
      else none

def machine (secret : String) : Machine Router Label where
  step := step secret

/-- The books of the service, with the steps requests make for it. -/
def note (router : Router) (label : Label) : Option Note :=
  (router.serviceLabel label).bind router.service.note

def booked (secret : String) : Machine (Router × List Note) Label :=
  (machine secret).withHistory note

end Router

end AgentHarness.Api
