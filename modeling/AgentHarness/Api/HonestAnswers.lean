import AgentHarness.Api.AgentApi

/-!
# What the answers of the agent API tell

A client knows of its request nothing but the answer. Each answer is compared with what the runtime
was asked for that request, in every state the service can get into: an answer that invites to try
again was given without a call, and a success carries what the call for this very request returned.
-/

namespace AgentHarness.Api

open AgentHarness.Library AgentHarness.Runtime AgentHarness.Conversations AgentHarness.Services

set_option autoImplicit false

/-- The operation is the one the request asks for, on behalf of the user its headers name. -/
inductive Fits (secret : String) (rows : List Conversation) (request : HttpRequest) :
    Operation → Prop where
  | creation (conversationId : String) (principal : ServicePrincipal)
      (route : request.route = .createConversation)
      (authentic : dependencies secret request = .ok principal) :
      Fits secret rows request (.createConversation conversationId principal)
  | existing (conversation : Conversation) (work : Work) (principal : ServicePrincipal)
      (route : request.route = .onConversation conversation.id work)
      (authentic : dependencies secret request = .ok principal)
      (stored : conversation ∈ rows) (owned : OwnedBy conversation principal) :
      Fits secret rows request (work.operation conversation principal)

/-- Neither a success nor an answer about an operation that was admitted. -/
def Answer.Refusal (answer : Answer) : Prop :=
  (∀ content, answer ≠ .ok content) ∧ answer ≠ .error turnFailed ∧
    answer ≠ .error outcomeUnknown ∧ answer ≠ .aborted

/-- The exchanges with the runtime that an answer to a request stands for. -/
inductive Honest (secret : String) (service : Service) (request : HttpRequest) :
    List Exchange → Answer → Prop where
  | refused (answer : Answer) (refusal : answer.Refusal) : Honest secret service request [] answer
  | created (conversationId : String) (principal : ServicePrincipal) (threadId : String)
      (fits : Fits secret service.conversations request
        (.createConversation conversationId principal))
      (stored : conversationRow conversationId principal threadId ∈ service.conversations) :
      Honest secret service request
        [.admitted (.createConversation conversationId principal),
          .called (.createThread principal), .ended (.ok (.thread threadId))]
        (.ok (.created conversationId))
  | returned (operation : Operation) (value : Value) (content : Content)
      (fits : Fits secret service.conversations request operation)
      (existing : operation.resolved ≠ none) (body : request.route.content value = some content) :
      Honest secret service request
        [.admitted operation, .called operation.firstCall, .ended (.ok value)] (.ok content)
  | streams (operation : Operation) (later : List Exchange)
      (fits : Fits secret service.conversations request operation) :
      Honest secret service request (.admitted operation :: later) (.ok .eventStream)
  | turnFailed (operation : Operation) (before : List Exchange)
      (fits : Fits secret service.conversations request operation) :
      Honest secret service request
        (.admitted operation :: before ++ [.ended (.error .executionFailed)]) (.error turnFailed)
  | outcomeUnknown (operation : Operation) (later : List Exchange)
      (fits : Fits secret service.conversations request operation)
      (closed : service.admission.accepting = false) :
      Honest secret service request
        (.admitted operation :: .called operation.firstCall :: later) (.error outcomeUnknown)
  | unreadable (operation : Operation) (snapshot : Json)
      (fits : Fits secret service.conversations request operation)
      (noDictionary : ∀ entries, snapshot ≠ .obj entries) :
      Honest secret service request
        [.admitted operation, .called operation.firstCall, .ended (.ok (.snapshot snapshot))]
        .internalError
  | aborted (operation : Operation) (later : List Exchange)
      (fits : Fits secret service.conversations request operation)
      (closed : later = [] ∨ service.admission.accepting = false) :
      Honest secret service request (.admitted operation :: later) .aborted

/-- What the runtime was asked for a request. -/
def madeFor (notes : List Note) (consumer : Option Nat) : List Exchange :=
  match consumer with
  | none => []
  | some consumer => exchanges notes consumer

/-! ## Answers to courses -/

variable {secret : String} {rows : List Conversation} {request : HttpRequest}
  {service : Service} {operation : Operation}

theorem fits_mono {more : List Conversation} (grow : ∀ row ∈ rows, row ∈ more)
    (fits : Fits secret rows request operation) : Fits secret more request operation := by
  cases fits with
  | creation conversationId principal route authentic =>
      exact .creation conversationId principal route authentic
  | existing conversation work principal route authentic stored owned =>
      exact .existing conversation work principal route authentic (grow _ stored) owned

/-- The endpoints that await an operation know everything the task can raise. -/
def awaits (request : HttpRequest) : Prop :=
  request.route.raise .executionFailed = .error turnFailed ∧
    request.route.raise .runtimeUnavailable = .error outcomeUnknown ∧
    request.route.raise .cancelledError = .aborted

theorem fits_awaits (fits : Fits secret rows request operation)
    (noStream : ∀ conversation message principal,
      operation ≠ .openStream conversation message principal) : awaits request := by
  cases fits with
  | creation conversationId principal route authentic =>
      rw [awaits, route]
      exact ⟨rfl, rfl, rfl⟩
  | existing conversation work principal route authentic stored owned =>
      rw [awaits, route]
      cases work with
      | streamTurn message => exact absurd rfl (noStream conversation message principal)
      | _ => exact ⟨rfl, rfl, rfl⟩

/-- A value of the declared type makes a body, but for a snapshot that is no dictionary. -/
theorem content_of_returned (fits : Fits secret rows request operation)
    (noStream : ∀ conversation message principal,
      operation ≠ .openStream conversation message principal)
    (existing : operation.resolved ≠ none) {value : Value}
    (returns : operation.firstCall.returns value = true) :
    (∃ content, request.route.content value = some content) ∨
      request.route.content value = none ∧
        ∃ snapshot, value = .snapshot snapshot ∧ ∀ entries, snapshot ≠ .obj entries := by
  cases fits with
  | creation conversationId principal route authentic => exact absurd rfl existing
  | existing conversation work principal route authentic stored owned =>
      rw [route]
      cases work with
      | readConversation =>
          cases value with
          | snapshot snapshot =>
              cases snapshot with
              | obj entries => exact Or.inl ⟨_, rfl⟩
              | _ => exact Or.inr ⟨rfl, _, rfl, fun _ same => by cases same⟩
          | _ => cases returns
      | compactConversation =>
          cases value with
          | done => exact Or.inl ⟨_, rfl⟩
          | _ => cases returns
      | runTurn message =>
          cases value with
          | answer text => exact Or.inl ⟨_, rfl⟩
          | _ => cases returns
      | streamTurn message => exact absurd rfl (noStream conversation message principal)

/-- The answer of an endpoint that has awaited its operation is honest. -/
theorem honest_of_told (fits : Fits secret service.conversations request operation)
    (noStream : ∀ conversation message principal,
      operation ≠ .openStream conversation message principal)
    {course later : List Exchange} (begun : course = .admitted operation :: later)
    {result : Except TaskError Value} (told : Service.Told service course result) :
    Honest secret service request course (request.route.conclude result) := by
  obtain ⟨failed, unknown, cancelled⟩ := fits_awaits fits noStream
  have abort : later = [] ∨ service.admission.accepting = false →
      Honest secret service request course (request.route.conclude (.error .cancelled)) := by
    intro closed
    rw [begun, Route.conclude, cancelled]
    exact .aborted operation later fits closed
  have lost : ∀ rest, later = .called operation.firstCall :: rest →
      service.admission.accepting = false →
      Honest secret service request course
        (request.route.conclude (.error .runtimeUnavailable)) := by
    intro rest isLater closed
    rw [begun, isLater, Route.conclude, unknown]
    exact .outcomeUnknown operation rest fits closed
  have gone : ∀ rest timedOut, later = .called operation.firstCall :: rest →
      service.admission.accepting = false →
      Honest secret service request course
        (request.route.conclude
          (AdmissionController.taskResult timedOut (.error .cancelled))) := by
    intro rest timedOut isLater closed
    cases timedOut with
    | true => exact lost rest isLater closed
    | false => exact abort (Or.inr closed)
  have refused : ∀ before, later = before ++ [.ended (.error .executionFailed)] →
      Honest secret service request course (request.route.conclude (.error .executionFailed)) := by
    intro before isLater
    rw [begun, isLater, Route.conclude, failed, ← List.cons_append]
    exact .turnFailed operation before fits
  have faulty : ∀ before fault timedOut, later = before ++ [.ended (.error fault)] →
      (∃ rest, later = .called operation.firstCall :: rest) →
      (AdmissionController.outcomeKnown (.error fault : Except RuntimeFault Value) = false →
        service.admission.accepting = false) →
      Honest secret service request course
        (request.route.conclude (AdmissionController.taskResult timedOut (.error fault))) := by
    rintro before fault timedOut isLater ⟨rest, isCalled⟩ closes
    cases fault with
    | executionFailed => exact refused before isLater
    | failed => exact lost rest isCalled (closes rfl)
    | cancelled => exact gone rest timedOut isCalled (closes rfl)
  cases told with
  | dropped other unstarted =>
      apply abort
      rw [unstarted] at begun
      exact Or.inl (List.cons.inj begun).2.symm
  | left ending timedOut taken closes =>
      cases taken with
      | called other result returns existing =>
          cases begun
          cases ending with
          | error fault =>
              exact faulty [.called operation.firstCall] fault timedOut rfl ⟨_, rfl⟩ closes
          | ok value =>
              rw [AdmissionController.taskResult, Route.conclude]
              rcases content_of_returned fits noStream (existing value rfl) returns with
                ⟨content, body⟩ | ⟨body, snapshot, isSnapshot, noDictionary⟩
              · rw [body]
                exact .returned operation value content fits (existing value rfl) body
              · rw [body, isSnapshot]
                exact .unreadable operation snapshot fits noDictionary
      | stored conversationId principal threadId inserted =>
          cases begun
          have route : request.route = .createConversation := by
            generalize isCreation : Operation.createConversation conversationId principal = made
              at fits
            cases fits with
            | creation _ _ route _ => exact route
            | existing conversation work _ _ _ _ _ => cases work <;> cases isCreation
          rw [AdmissionController.taskResult, Route.conclude, route]
          exact .created conversationId principal threadId fits inserted
      | storeCancelled conversationId principal threadId =>
          cases begun
          exact gone _ timedOut rfl (closes rfl)
      | archived conversationId principal threadId value =>
          cases begun
          exact lost _ rfl (closes rfl)
      | archiveFailed conversationId principal threadId fault =>
          cases begun
          exact faulty [_, _, _] fault timedOut rfl ⟨_, rfl⟩ closes

/-! ## What a step keeps of the books -/

/-- A state of the service, with its books, after another one. -/
structure Later (before : Service) (notes : List Note) (after : Service) (more : List Note) :
    Prop where
  booked : after.Booked more
  rows : ∀ row ∈ before.conversations, row ∈ after.conversations
  closed : before.admission.accepting = false → after.admission.accepting = false
  begun : ∀ consumer operation later, exchanges notes consumer = .admitted operation :: later →
    ∃ latest, exchanges more consumer = .admitted operation :: latest
  quiet : ∀ consumer, consumer < before.consumers.length → before.Quiet consumer →
    after.Quiet consumer ∧ exchanges more consumer = exchanges notes consumer

variable {next : Service} {notes more : List Note}

theorem later_refl (booked : service.Booked notes) : Later service notes service notes where
  booked := booked
  rows _ member := member
  closed closed := closed
  begun _ _ later begun := ⟨later, begun⟩
  quiet _ _ quiet := ⟨quiet, rfl⟩

theorem later_step {label : Service.Label} (booked : service.Booked notes)
    (stepped : service.step label = some next) :
    Later service notes next (notes ++ (service.note label).toList) where
  booked := Service.booked_step booked stepped
  rows := Service.conversations_grow stepped
  closed := Service.closed_effect (Service.step_effect stepped)
  begun consumer operation later begun := by
    rw [exchanges_append, begun]
    exact ⟨_, rfl⟩
  quiet consumer inside quiet := by
    obtain ⟨still, nothing⟩ :=
      Service.quiet_booking booked (Service.booking stepped) inside quiet
    rw [exchanges_append, nothing, List.append_nil]
    exact ⟨still, rfl⟩

theorem honest_later (after : Later service notes next more) {course : List Exchange}
    {answer : Answer} (honest : Honest secret service request course answer) :
    Honest secret next request course answer := by
  cases honest with
  | refused _ refusal => exact .refused _ refusal
  | created conversationId principal threadId fits stored =>
      exact .created conversationId principal threadId (fits_mono after.rows fits)
        (after.rows _ stored)
  | returned operation value content fits existing body =>
      exact .returned operation value content (fits_mono after.rows fits) existing body
  | streams operation later fits => exact .streams operation later (fits_mono after.rows fits)
  | turnFailed operation before fits =>
      exact .turnFailed operation before (fits_mono after.rows fits)
  | outcomeUnknown operation later fits closed =>
      exact .outcomeUnknown operation later (fits_mono after.rows fits) (after.closed closed)
  | unreadable operation snapshot fits noDictionary =>
      exact .unreadable operation snapshot (fits_mono after.rows fits) noDictionary
  | aborted operation later fits closed =>
      exact .aborted operation later (fits_mono after.rows fits) (closed.imp_right after.closed)

/-! ## Where the requests stand -/

/-- The consumer works for the request. -/
def WorksFor (secret : String) (service : Service) (notes : List Note) (request : HttpRequest)
    (consumer : Nat) (awaited : Operation → Prop) : Prop :=
  ∃ operation later, exchanges notes consumer = .admitted operation :: later ∧
    Fits secret service.conversations request operation ∧ awaited operation

def NoStream (operation : Operation) : Prop :=
  ∀ conversation message principal, operation ≠ .openStream conversation message principal

def Standing (secret : String) (service : Service) (notes : List Note) (handler : Handler) :
    Prop :=
  match handler.stage with
  | .received principal => dependencies secret handler.request = .ok principal
  | .found operation => Fits secret service.conversations handler.request operation
  | .awaiting consumer => WorksFor secret service notes handler.request consumer NoStream
  | .streaming consumer => WorksFor secret service notes handler.request consumer fun _ => True
  | .answered consumer answer =>
      (∀ index, consumer = some index → service.Quiet index) ∧
        Honest secret service handler.request (madeFor notes consumer) answer
  | .gone _ => True

theorem works_for_later (after : Later service notes next more) {consumer : Nat}
    {awaited : Operation → Prop} (works : WorksFor secret service notes request consumer awaited) :
    WorksFor secret next more request consumer awaited := by
  obtain ⟨operation, later, begun, fits, isAwaited⟩ := works
  obtain ⟨latest, stillBegun⟩ := after.begun consumer operation later begun
  exact ⟨operation, latest, stillBegun, fits_mono after.rows fits, isAwaited⟩

theorem standing_later (after : Later service notes next more) {handler : Handler}
    (inside : ∀ consumer, handler.stage.consumer? = some consumer →
      consumer < service.consumers.length)
    (standing : Standing secret service notes handler) : Standing secret next more handler := by
  obtain ⟨request, stage⟩ := handler
  cases stage with
  | received principal => exact standing
  | found operation => exact fits_mono after.rows standing
  | awaiting consumer => exact works_for_later after standing
  | streaming consumer => exact works_for_later after standing
  | answered consumer answer =>
      obtain ⟨quiet, honest⟩ := standing
      cases consumer with
      | none =>
          refine ⟨?_, honest_later after honest⟩
          intro index same
          cases same
      | some consumer =>
          obtain ⟨still, same⟩ := after.quiet consumer (inside consumer rfl) (quiet consumer rfl)
          refine ⟨?_, ?_⟩
          · intro index isConsumer
            rwa [← Option.some.inj isConsumer]
          · have kept := honest_later after honest
            simp only [madeFor] at kept ⊢
            rwa [same]
  | gone consumer => trivial

/-- Nothing was asked for a request that was refused. -/
theorem standing_refused (request : HttpRequest) {answer : Answer} (refusal : answer.Refusal) :
    Standing secret service notes { request := request, stage := .answered none answer } := by
  refine ⟨?_, .refused answer refusal⟩
  intro index same
  cases same

/-- Every consumer works for exactly one request. -/
structure Assigned (consumers : List (Option Nat)) (count : Nat) : Prop where
  apart : ∀ left right consumer : Nat, consumers[left]? = some (some consumer) →
    consumers[right]? = some (some consumer) → left = right
  inside : ∀ consumer, some consumer ∈ consumers → consumer < count
  covered : ∀ consumer, consumer < count → some consumer ∈ consumers

namespace Router

def consumers (router : Router) : List (Option Nat) :=
  router.handlers.map fun handler => handler.stage.consumer?

/-- The books say for each request what its stage says. -/
structure Accountable (secret : String) (router : Router) (notes : List Note) : Prop where
  booked : router.service.Booked notes
  standing : ∀ handler ∈ router.handlers, Standing secret router.service notes handler
  assigned : Assigned router.consumers router.service.consumers.length

end Router

/-! ## What the handlers answer -/

theorem refusal_of_status {exception : HttpException} (client : exception.statusCode < 500) :
    (Answer.error exception).Refusal := by
  refine ⟨?_, ?_, ?_, ?_⟩
  · intro content same
    cases same
  · intro same
    rw [Answer.error.inj same] at client
    exact absurd client (by decide)
  · intro same
    rw [Answer.error.inj same] at client
    exact absurd client (by decide)
  · intro same
    cases same

theorem refusal_of_retry {exception : HttpException} {seconds : String}
    (again : exception.retryAfter = some seconds) : (Answer.error exception).Refusal := by
  refine ⟨?_, ?_, ?_, ?_⟩
  · intro content same
    cases same
  · intro same
    rw [Answer.error.inj same] at again
    cases again
  · intro same
    rw [Answer.error.inj same] at again
    cases again
  · intro same
    cases same

theorem refusal_internal : Answer.internalError.Refusal := by
  refine ⟨?_, ?_, ?_, ?_⟩ <;> intros <;> intro same <;> cases same

theorem unauthenticated_refusal (statusCode : Nat) : (unauthenticated statusCode).Refusal := by
  unfold unauthenticated
  split
  · exact refusal_of_status (by decide)
  · exact refusal_of_status (by decide)
  · exact refusal_internal

theorem operator_refusal {principal : ServicePrincipal} {answer : Answer}
    (refused : requireOperatorPrincipal principal = .error answer) : answer.Refusal := by
  unfold requireOperatorPrincipal at refused
  split_ifs at refused
  cases refused
  exact refusal_of_status (by decide)

theorem message_refusal {message : String} {answer : Answer}
    (refused : validMessage message = .error answer) : answer.Refusal := by
  unfold validMessage at refused
  split_ifs at refused
  · cases refused
    exact refusal_of_status (by decide)
  · cases refused
    exact refusal_of_status (by decide)

/-- What is answered before the endpoint's body runs. -/
theorem dependencies_refusal {answer : Answer}
    (refused : dependencies secret request = .error answer) : answer.Refusal := by
  unfold dependencies at refused
  cases isPrincipal : servicePrincipal secret request with
  | error other =>
      rw [isPrincipal] at refused
      cases refused
      unfold servicePrincipal at isPrincipal
      split at isPrincipal
      · cases isPrincipal
      · cases isPrincipal
        exact unauthenticated_refusal _
  | ok principal =>
      rw [isPrincipal] at refused
      have message : ∀ text,
          (do validMessage text; .ok principal : Except Answer ServicePrincipal) = .error answer →
            answer.Refusal := by
        intro text isRefused
        cases valid : validMessage text with
        | error other =>
            rw [valid] at isRefused
            cases isRefused
            exact message_refusal valid
        | ok _ =>
            rw [valid] at isRefused
            cases isRefused
      cases route : request.route with
      | createConversation =>
          rw [route] at refused
          cases refused
      | onConversation conversationId work =>
          rw [route] at refused
          cases work with
          | readConversation => exact operator_refusal refused
          | compactConversation => exact operator_refusal refused
          | runTurn text => exact message text refused
          | streamTurn text => exact message text refused

theorem raise_rejected (route : Route) (error : AdmissionRejected) :
    route.raise (.admissionRejected error) = .error (rejected error) := by
  cases route with
  | createConversation => rfl
  | onConversation conversationId work => cases work <;> rfl

theorem raise_database (route : Route) :
    route.raise .sqlAlchemyError = .error databaseUnavailable := by
  cases route with
  | createConversation => rfl
  | onConversation conversationId work => cases work <;> rfl

theorem raise_absent (conversationId : String) (work : Work) :
    (Route.onConversation conversationId work).raise .keyError = .error notFound := by
  cases work <;> rfl

/-! ## Steps of the router -/

theorem assigned_append {consumers : List (Option Nat)} {count : Nat}
    (assigned : Assigned consumers count) : Assigned (consumers ++ [none]) count where
  apart := by
    have old : ∀ index consumer : Nat, (consumers ++ [none])[index]? = some (some consumer) →
        consumers[index]? = some (some consumer) := by
      intro index consumer there
      rw [List.getElem?_append] at there
      split_ifs at there
      · exact there
      · cases List.mem_singleton.mp (List.mem_of_getElem? there)
    intro left right consumer atLeft atRight
    exact assigned.apart left right consumer (old _ _ atLeft) (old _ _ atRight)
  inside := by
    intro consumer member
    rcases List.mem_append.mp member with old | added
    · exact assigned.inside consumer old
    · cases List.mem_singleton.mp added
  covered := fun consumer inside => List.mem_append_left _ (assigned.covered consumer inside)

/-- A request without a consumer gets the next one. -/
theorem assigned_next {consumers : List (Option Nat)} {count index : Nat}
    (assigned : Assigned consumers count) (free : consumers[index]? = some none) :
    Assigned (consumers.set index (some count)) (count + 1) where
  apart := by
    have here : ∀ place consumer : Nat, (consumers.set index (some count))[place]? =
        some (some consumer) → (place = index ∧ consumer = count) ∨
          consumers[place]? = some (some consumer) := by
      intro place consumer there
      rw [List.getElem?_set] at there
      split_ifs at there with same inside
      · exact Or.inl ⟨same.symm, (Option.some.inj (Option.some.inj there)).symm⟩
      · exact Or.inr there
    have older : ∀ place consumer : Nat, consumers[place]? = some (some consumer) →
        consumer ≠ count := by
      intro place consumer there
      exact Nat.ne_of_lt (assigned.inside consumer (List.mem_of_getElem? there))
    intro left right consumer atLeft atRight
    rcases here left consumer atLeft with ⟨isLeft, isCount⟩ | oldLeft
    · rcases here right consumer atRight with ⟨isRight, -⟩ | oldRight
      · exact isLeft.trans isRight.symm
      · exact absurd isCount (older right consumer oldRight)
    · rcases here right consumer atRight with ⟨-, isCount⟩ | oldRight
      · exact absurd isCount (older left consumer oldLeft)
      · exact assigned.apart left right consumer oldLeft oldRight
  inside := by
    intro consumer member
    rcases List.mem_or_eq_of_mem_set member with old | added
    · exact Nat.lt_succ_of_lt (assigned.inside consumer old)
    · rw [Option.some.inj added]
      exact Nat.lt_succ_self count
  covered := by
    intro consumer inside
    rcases Nat.lt_succ_iff_lt_or_eq.mp inside with old | isCount
    · obtain ⟨place, there⟩ := List.mem_iff_getElem?.mp (assigned.covered consumer old)
      refine List.mem_iff_getElem?.mpr ⟨place, ?_⟩
      rw [List.getElem?_set_ne]
      · exact there
      · intro same
        rw [← same, free] at there
        cases there
    · rw [isCount]
      obtain ⟨bound, -⟩ := List.getElem?_eq_some_iff.mp free
      exact List.mem_set bound _

theorem set_unchanged {Item : Type} {items : List Item} {index : Nat} {item : Item}
    (there : items[index]? = some item) : items.set index item = items := by
  obtain ⟨inside, isItem⟩ := List.getElem?_eq_some_iff.mp there
  rw [← isItem]
  exact List.set_getElem_self inside

namespace Router

variable {router after : Router} {label : Label}

theorem consumer_inside (accountable : Accountable secret router notes) {handler : Handler}
    (member : handler ∈ router.handlers) {consumer : Nat}
    (isConsumer : handler.stage.consumer? = some consumer) :
    consumer < router.service.consumers.length := by
  apply accountable.assigned.inside
  rw [← isConsumer]
  exact List.mem_map_of_mem member

/-- The service goes on while the requests stand where they stood. -/
theorem accountable_served (accountable : Accountable secret router notes)
    (later : Later router.service notes next more)
    (length : next.consumers.length = router.service.consumers.length) :
    Accountable secret { router with service := next } more where
  booked := later.booked
  standing handler member :=
    standing_later later (fun _ => consumer_inside accountable member)
      (accountable.standing handler member)
  assigned := by
    rw [length]
    exact accountable.assigned

/-- One request moves on and keeps its consumer. -/
theorem accountable_moved (accountable : Accountable secret router notes)
    (later : Later router.service notes next more)
    (length : next.consumers.length = router.service.consumers.length) {index : Nat}
    {handler : Handler} {stage : Stage} (found : router.handlers[index]? = some handler)
    (same : stage.consumer? = handler.stage.consumer?)
    (standing : Standing secret next more { handler with stage := stage }) :
    Accountable secret { router.setStage index handler stage with service := next } more where
  booked := later.booked
  standing other member := by
    rcases List.mem_or_eq_of_mem_set member with old | isNew
    · exact standing_later later (fun _ => consumer_inside accountable old)
        (accountable.standing other old)
    · rw [isNew]
      exact standing
  assigned := by
    have unchanged : consumers { router.setStage index handler stage with service := next } =
        router.consumers := by
      simp only [consumers, setStage, List.map_set, same]
      apply set_unchanged
      rw [List.getElem?_map, found]
      rfl
    rw [unchanged, length]
    exact accountable.assigned

theorem accountable_receive (accountable : Accountable secret router notes)
    (request : HttpRequest) : Accountable secret (router.receive secret request) notes where
  booked := accountable.booked
  standing handler member := by
    rcases List.mem_append.mp member with old | added
    · exact accountable.standing handler old
    · rw [List.mem_singleton.mp added]
      cases passed : dependencies secret request with
      | ok principal => exact passed
      | error answer => exact standing_refused request (dependencies_refusal passed)
  assigned := by
    have longer : (router.receive secret request).consumers = router.consumers ++ [none] := by
      simp only [consumers, receive, List.map_append, List.map_cons, List.map_nil]
      cases dependencies secret request <;> rfl
    rw [longer]
    exact assigned_append accountable.assigned

theorem accountable_resolve (accountable : Accountable secret router notes) {index : Nat}
    {handler : Handler} {unavailable : Bool} (found : router.handlers[index]? = some handler)
    (resolved : router.resolve unavailable index handler = some after) :
    Accountable secret after notes := by
  unfold resolve at resolved
  split at resolved
  · rename_i conversationId work principal route stage
    have standing := accountable.standing handler (List.mem_of_getElem? found)
    simp only [Standing, stage] at standing
    have free : handler.stage.consumer? = none := by
      rw [stage]
      rfl
    have moved : ∀ next : Stage, next.consumer? = none →
        Standing secret router.service notes { handler with stage := next } →
        Accountable secret (router.setStage index handler next) notes := by
      intro next noConsumer stands
      exact accountable_moved accountable (later_refl accountable.booked) rfl found
        (noConsumer.trans free.symm) stands
    split_ifs at resolved
    · cases resolved
      apply moved _ rfl
      apply standing_refused
      rw [raise_database]
      exact refusal_of_retry rfl
    · split at resolved
      · cases resolved
        apply moved _ rfl
        apply standing_refused
        rw [route, raise_absent]
        exact refusal_of_status (by decide)
      · rename_i conversation isFound
        cases resolved
        apply moved _ rfl
        obtain ⟨stored, isId, tenant, user⟩ := ConversationRepository.get_owned_sound isFound
        exact .existing conversation work principal (by rw [route, isId]) standing stored
          ⟨tenant, user⟩
  · cases resolved

theorem submitted_consumer (operation : Operation) (consumer : Nat) :
    (submitted operation consumer).consumer? = some consumer := by
  cases operation <;> rfl

/-- `submit` refuses the operation, or a new consumer works for the request. -/
theorem accountable_enter (accountable : Accountable secret router notes) {index : Nat}
    {handler : Handler} (found : router.handlers[index]? = some handler)
    (free : handler.stage.consumer? = none)
    (fits : Fits secret router.service.conversations handler.request operation)
    (entered : router.enter operation index handler = some after) :
    Accountable secret after (notes ++ (router.service.note (.submit operation)).toList) := by
  obtain ⟨next, submits, isAfter⟩ := Option.map_eq_some_iff.mp entered
  have stepped : router.service.step (.submit operation) = some next := submits
  have later := later_step accountable.booked stepped
  have decided := submits
  unfold Service.submit at decided
  split_ifs at decided
  subst isAfter
  cases admits : router.service.admission.submit operation.key
      { consumer := router.service.consumers.length, operation := operation } with
  | error error =>
      rw [admits] at decided
      dsimp only at decided
      cases decided
      refine accountable_moved accountable later rfl found free.symm (standing_refused _ ?_)
      rw [raise_rejected]
      exact refusal_of_retry rfl
  | ok admission =>
      rw [admits] at decided
      dsimp only at decided
      cases decided
      have noted : router.service.note (.submit operation) =
          some (router.service.consumers.length, .admitted operation) := by
        simp only [Service.note, admits]
      rw [noted] at later ⊢
      have begun : exchanges (notes ++
          (some (router.service.consumers.length, Exchange.admitted operation)).toList)
            router.service.consumers.length = [.admitted operation] := by
        rw [exchanges_append, exchanges_unknown fun entry member =>
          Nat.ne_of_lt (accountable.booked.known entry member)]
        exact exchanges_own _ _
      refine ⟨later.booked, ?_, ?_⟩
      · intro other member
        rcases List.mem_or_eq_of_mem_set member with old | isNew
        · exact standing_later later (fun _ => consumer_inside accountable old)
            (accountable.standing other old)
        · rw [isNew]
          cases operation with
          | openStream conversation message principal =>
              exact ⟨_, [], begun, fits_mono later.rows fits, trivial⟩
          | _ =>
              refine ⟨_, [], begun, fits_mono later.rows fits, ?_⟩
              intro conversation message principal same
              cases same
      · have waiting : router.consumers[index]? = some none := by
          rw [consumers, List.getElem?_map, found, Option.map_some, free]
        have assigned := assigned_next accountable.assigned waiting
        have longer : (router.service.consumers ++
            [Service.openConsumer operation router.service.consumers.length]).length =
              router.service.consumers.length + 1 := by simp
        rw [longer]
        simpa only [consumers, setStage, List.map_set, submitted_consumer] using assigned

theorem admitted_label {label : Service.Label} {consumer : Nat}
    (noted : service.note label = some (consumer, .admitted operation)) :
    ∃ asked, label = .submit asked := by
  cases label with
  | submit asked => exact ⟨asked, rfl⟩
  | start key =>
      obtain ⟨task, -, same⟩ := Option.bind_eq_some_iff.mp noted
      split_ifs at same
      cases same
  | settle key result =>
      obtain ⟨task, -, same⟩ := Option.map_eq_some_iff.mp noted
      cases same
  | storeFails key =>
      obtain ⟨task, -, same⟩ := Option.bind_eq_some_iff.mp noted
      split at same <;> cases same
  | _ => cases noted

/-- Only `submit` adds a consumer. -/
theorem consumers_length {label : Service.Label} (stepped : service.step label = some next)
    (noSubmit : ∀ asked, label ≠ .submit asked) :
    next.consumers.length = service.consumers.length := by
  have books := Service.booking stepped
  generalize noted : service.note label = entry at books
  cases books with
  | same tasks consumers calls => exact consumers.length
  | admitted operation tasks consumers calls =>
      obtain ⟨asked, isSubmit⟩ := admitted_label noted
      exact absurd isSubmit (noSubmit asked)
  | goes key task changed exchange found goesOn tasks consumers calls => rw [consumers]
  | dropped key task found scheduled tasks consumers calls => rw [consumers, List.length_modify]
  | left key task exchange ending found leaves leaving =>
      rw [leaving]
      exact List.length_modify _ _ _

theorem later_consume (booked : service.Booked notes) {index : Nat} {action : ConsumerAction}
    (consumed : service.consume index action = some next) :
    Later service notes next notes ∧ next.consumers.length = service.consumers.length := by
  have stepped : service.step (.consumer index action) = some next := consumed
  have later := later_step booked stepped
  rw [show service.note (.consumer index action) = none from rfl, Option.toList_none,
    List.append_nil] at later
  exact ⟨later, consumers_length stepped fun _ same => by cases same⟩

theorem accountable_reply (accountable : Accountable secret router notes) {index : Nat}
    {handler : Handler} (found : router.handlers[index]? = some handler)
    (replied : router.reply index handler = some after) : Accountable secret after notes := by
  unfold reply at replied
  split at replied
  · rename_i consumer stage
    split at replied
    · rename_i target result there
      obtain ⟨next, consumed, isAfter⟩ := Option.map_eq_some_iff.mp replied
      subst isAfter
      obtain ⟨later, length⟩ := later_consume accountable.booked consumed
      have standing := accountable.standing handler (List.mem_of_getElem? found)
      simp only [Standing, stage] at standing
      obtain ⟨operation, rest, begun, fits, noStream⟩ := standing
      obtain ⟨told, quiet⟩ := accountable.booked.told consumer target result there
      have isConsumer : handler.stage.consumer? = some consumer := by
        rw [stage]
        rfl
      have inside := consumer_inside accountable (List.mem_of_getElem? found) isConsumer
      refine accountable_moved accountable later length found isConsumer.symm ?_
      apply standing_later later
      · intro other isOther
        rwa [← Option.some.inj isOther]
      · refine ⟨?_, honest_of_told fits noStream begun told⟩
        intro other isOther
        rwa [← Option.some.inj isOther]
    · cases replied
  · cases replied

theorem accountable_cancel (accountable : Accountable secret router notes) {index : Nat}
    {handler : Handler} (found : router.handlers[index]? = some handler)
    (cancelled : router.cancel index handler = some after) : Accountable secret after notes := by
  have idle : handler.stage.consumer? = none →
      Accountable secret (router.setStage index handler (.gone none)) notes := fun free =>
    accountable_moved accountable (later_refl accountable.booked) rfl found free.symm trivial
  unfold cancel at cancelled
  split at cancelled
  · rename_i principal stage
    cases cancelled
    apply idle
    rw [stage]
    rfl
  · rename_i operation stage
    cases cancelled
    apply idle
    rw [stage]
    rfl
  · rename_i consumer stage
    obtain ⟨next, consumed, isAfter⟩ := Option.map_eq_some_iff.mp cancelled
    subst isAfter
    obtain ⟨later, length⟩ := later_consume accountable.booked consumed
    refine accountable_moved accountable later length found ?_ trivial
    rw [stage]
    rfl
  · cases cancelled

theorem accountable_stream (accountable : Accountable secret router notes) {index : Nat}
    {handler : Handler} {action : ConsumerAction}
    (streamed : router.stream action index handler = some after) :
    Accountable secret after notes := by
  unfold stream at streamed
  split at streamed
  · obtain ⟨next, consumed, isAfter⟩ := Option.map_eq_some_iff.mp streamed
    subst isAfter
    obtain ⟨later, length⟩ := later_consume accountable.booked consumed
    exact accountable_served accountable later length
  · cases streamed

theorem on_handler_eq_some {index : Nat} {action : Router → Nat → Handler → Option Router}
    (acted : router.onHandler index action = some after) :
    ∃ handler, router.handlers[index]? = some handler ∧
      action router index handler = some after :=
  Option.bind_eq_some_iff.mp acted

/-- The steps of requests that the service books nothing for. -/
theorem unnoted {index : Nat} {handler : Handler} {action : ConsumerAction}
    (found : router.handlers[index]? = some handler)
    (stands : router.serviceLabel label = (router.handlers[index]?).bind fun handler =>
      handler.stage.consumer?.map fun consumer => .consumer consumer action) :
    router.note label = none := by
  rw [note, stands, found, Option.bind_some]
  cases handler.stage.consumer? <;> rfl

theorem accountable_step (accountable : Accountable secret router notes)
    (stepped : step secret router label = some after) :
    Accountable secret after (notes ++ (router.note label).toList) := by
  have quiet : router.note label = none → Accountable secret after notes →
      Accountable secret after (notes ++ (router.note label).toList) := by
    intro nothing kept
    rwa [nothing, Option.toList_none, List.append_nil]
  cases label with
  | receive request =>
      cases stepped
      exact quiet rfl (accountable_receive accountable request)
  | resolve index unavailable =>
      obtain ⟨handler, found, resolved⟩ := on_handler_eq_some stepped
      exact quiet rfl (accountable_resolve accountable found resolved)
  | create index conversationId =>
      obtain ⟨handler, found, created⟩ := on_handler_eq_some stepped
      unfold create at created
      split at created
      · rename_i principal route stage
        have noted : router.note (.create index conversationId) =
            router.service.note (.submit (.createConversation conversationId principal)) := by
          simp only [note, serviceLabel, found, Option.bind_some, stage]
        have standing := accountable.standing handler (List.mem_of_getElem? found)
        simp only [Standing, stage] at standing
        rw [noted]
        refine accountable_enter accountable found ?_ ?_ created
        · rw [stage]
          rfl
        · exact .creation conversationId principal route standing
      · cases created
  | submit index =>
      obtain ⟨handler, found, submits⟩ := on_handler_eq_some stepped
      unfold submit at submits
      split at submits
      · rename_i operation stage
        have noted : router.note (.submit index) = router.service.note (.submit operation) := by
          simp only [note, serviceLabel, found, Option.bind_some, stage]
        have standing := accountable.standing handler (List.mem_of_getElem? found)
        simp only [Standing, stage] at standing
        rw [noted]
        refine accountable_enter accountable found ?_ standing submits
        rw [stage]
        rfl
      · cases submits
  | reply index =>
      obtain ⟨handler, found, replied⟩ := on_handler_eq_some stepped
      exact quiet (unnoted found rfl) (accountable_reply accountable found replied)
  | cancel index =>
      obtain ⟨handler, found, cancelled⟩ := on_handler_eq_some stepped
      exact quiet (unnoted found rfl) (accountable_cancel accountable found cancelled)
  | stream index action =>
      obtain ⟨handler, found, streamed⟩ := on_handler_eq_some stepped
      exact quiet (unnoted found rfl) (accountable_stream accountable streamed)
  | work label =>
      simp only [step] at stepped
      split_ifs at stepped with isInternal
      obtain ⟨next, worked, isAfter⟩ := Option.map_eq_some_iff.mp stepped
      subst isAfter
      refine accountable_served accountable (later_step accountable.booked worked) ?_
      apply consumers_length worked
      intro asked same
      rw [same] at isInternal
      cases isInternal

theorem accountable_new (limit : Nat) (positive : 1 ≤ limit) (conversations : List Conversation) :
    Accountable secret (new limit positive conversations) [] where
  booked := Service.booked_new limit positive conversations
  standing handler member := by cases member
  assigned :=
    { apart := by
        intro left right consumer there
        cases there
      inside := by
        intro consumer member
        cases member
      covered := by
        intro consumer inside
        cases inside }

theorem accountable_run {start final : Router × List Note} {labels : List Label}
    (accountable : Accountable secret start.1 start.2)
    (reached : (booked secret).run start labels = some final) :
    Accountable secret final.1 final.2 := by
  refine (booked secret).run_invariant (fun current => Accountable secret current.1 current.2) ?_
    accountable reached
  intro current label next before stepped
  obtain ⟨moved, history⟩ := ((machine secret).with_history_step note current.1 current.2 label
    next).mp stepped
  rw [history]
  exact accountable_step before moved

end Router

/-- An answer that invites to try again stands for no exchange. -/
theorem nothing_made_before_retry {course : List Exchange} {answer : Answer}
    (honest : Honest secret service request course answer) (again : answer.retryAfter ≠ none) :
    course = [] := by
  cases honest with
  | refused _ refusal => rfl
  | _ => exact absurd rfl again

/-- In every state that requests, tasks, timers, the database and shutdown can lead to: each answer
given so far is honest about what the runtime was asked for its request; an answer with
`Retry-After` was given to a request nothing was asked for; and every call the runtime got is in the
books of exactly one request. -/
theorem answers_are_honest (secret : String) (limit : Nat) (positive : 1 ≤ limit)
    (conversations : List Conversation) (labels : List Router.Label) (router : Router)
    (notes : List Note)
    (reached : (Router.booked secret).run (Router.new limit positive conversations, []) labels =
      some (router, notes)) :
    (∀ handler ∈ router.handlers, ∀ answer, handler.stage.answer? = some answer →
      Honest secret router.service handler.request (madeFor notes handler.stage.consumer?) answer ∧
        (answer.retryAfter ≠ none →
          ∀ entry ∈ notes, handler.stage.consumer? ≠ some entry.1)) ∧
      router.service.calls = (notes.filterMap fun entry => entry.2.call?) ∧
      ∀ entry ∈ notes, ∃! index : Nat, router.consumers[index]? = some (some entry.1) := by
  have accountable : Router.Accountable secret router notes :=
    Router.accountable_run (Router.accountable_new limit positive conversations) reached
  refine ⟨?_, accountable.booked.calls, ?_⟩
  · intro handler member answer isAnswer
    have honest : Honest secret router.service handler.request
        (madeFor notes handler.stage.consumer?) answer := by
      have standing := accountable.standing handler member
      cases stage : handler.stage with
      | streaming consumer =>
          simp only [Standing, stage] at standing
          rw [stage] at isAnswer
          obtain ⟨operation, later, begun, fits, -⟩ := standing
          rw [← Option.some.inj isAnswer]
          simp only [Stage.consumer?, madeFor, begun]
          exact .streams operation later fits
      | answered consumer given =>
          simp only [Standing, stage] at standing
          rw [stage] at isAnswer
          rw [← Option.some.inj isAnswer]
          exact standing.2
      | _ =>
          rw [stage] at isAnswer
          cases isAnswer
    refine ⟨honest, ?_⟩
    intro again entry booked isConsumer
    have nothing := nothing_made_before_retry honest again
    rw [isConsumer] at nothing
    have own : entry.2 ∈ exchanges notes entry.1 :=
      List.mem_filterMap.mpr ⟨entry, booked, if_pos rfl⟩
    rw [show exchanges notes entry.1 = [] from nothing] at own
    cases own
  · intro entry member
    have inside := accountable.booked.known entry member
    obtain ⟨index, there⟩ := List.mem_iff_getElem?.mp (accountable.assigned.covered _ inside)
    refine ⟨index, there, ?_⟩
    intro other atOther
    exact accountable.assigned.apart other index entry.1 atOther there

namespace Router

/-- A conversation is created, a second request for it comes while its turn is running. -/
def busyConversation : List Label :=
  let headers : ServiceRequest :=
    { credentials := some ⟨"Bearer", "s"⟩, userId := some "u", tenantId := some "t", roles := none }
  let turn : HttpRequest := ⟨.onConversation "c" (.runTurn "hi"), headers⟩
  [.receive ⟨.createConversation, headers⟩, .create 0 "c", .work (.start "c"),
    .work (.settle "c" (.ok (.thread "r"))), .work (.commit ⟨"c", "t", "u", "r"⟩),
    .work (.stored "c"), .reply 0, .receive turn, .receive turn, .resolve 1 false,
    .resolve 2 false, .submit 2, .submit 1, .work (.start "c"),
    .work (.settle "c" (.ok (.answer "hello"))), .reply 2]

end Router

theorem answers_are_honest_busy :
    ∃ router notes, (Router.booked "s").run (Router.new 2 (by decide) [], [])
        Router.busyConversation = some (router, notes) ∧
      router.handlers.map (fun handler => handler.stage.answer?) =
        [some (.ok (.created "c")), some (.error (rejected .conversationBusy)),
          some (.ok (.turn "c" "hello"))] ∧
      router.service.calls = notes.filterMap (fun entry => entry.2.call?) ∧
      ∀ entry ∈ notes, ∃! index : Nat, router.consumers[index]? = some (some entry.1) := by
  have reached : ((Router.booked "s").run (Router.new 2 (by decide) [], [])
      Router.busyConversation).isSome = true := by
    decide +kernel
  have honest := answers_are_honest "s" 2 (by decide) [] Router.busyConversation _ _
    (Option.some_get reached).symm
  refine ⟨_, _, (Option.some_get reached).symm, ?_, honest.2⟩
  decide +kernel

end AgentHarness.Api
