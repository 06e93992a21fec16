import AgentHarness.Gate.AuthorizationGate

/-!
# Every POST is authorized

A cancel request is answered by calls for its own action only, so the execution id the adapter
sends is that of an approved grant of the order, the requester and the conversation.
-/

namespace AgentHarness.Gate

open AgentHarness.Library AgentHarness.Conversations AgentHarness.Executions
open AgentHarness.Approval AgentHarness.Approval.ApprovalRequest
open AgentHarness.Adapter (Cancel CancelPost CancelOutcome McpHeaders McpRequest)

set_option autoImplicit false

/-! ## Identities on the way -/

/-- A header value as the adapter keeps it. -/
structure Kept (value : String) : Prop where
  ascii : value.toList.all fieldChar = true
  trimmed : Text.strip Text.javaTrimmed value = value

theorem kept_of_read {read : String} (ascii : read.toList.all fieldChar = true) :
    Kept (Text.strip Text.javaTrimmed read) where
  ascii := by
    rw [List.all_eq_true] at ascii ⊢
    intro c member
    exact ascii c (Text.mem_of_mem_strip member)
  trimmed := Text.strip_strip _ _

/-- No blank of the network or of Python surrounds such a value. -/
theorem Kept.strip {value : String} (kept : Kept value) {blank : Char → Bool}
    (known : ∀ c, fieldChar c = true → blank c = true → Text.javaTrimmed c = true) :
    Text.strip blank value = value := by
  apply Text.strip_of_fewer kept.trimmed
  intro c member isBlank
  exact known c (List.all_eq_true.mp kept.ascii c member) isBlank

theorem field_blank_trimmed (c : Char) (_ : fieldChar c = true) (isBlank : fieldBlank c = true) :
    Text.javaTrimmed c = true := by
  simp only [fieldBlank, Bool.or_eq_true, decide_eq_true_eq] at isBlank
  simp only [Text.javaTrimmed, decide_eq_true_eq]
  omega

theorem python_space_trimmed (c : Char) (isField : fieldChar c = true)
    (isSpace : Text.pythonSpace c = true) : Text.javaTrimmed c = true := by
  simp only [fieldChar, Bool.or_eq_true, Bool.and_eq_true, decide_eq_true_eq] at isField
  simp only [Text.pythonSpace, Bool.or_eq_true, Bool.and_eq_true, decide_eq_true_eq] at isSpace
  simp only [Text.javaTrimmed, decide_eq_true_eq]
  omega

variable {deployment : Deployment} {headers : McpHeaders} {orderId : Option String}
  {cancel : Cancel}

structure Trusted (cancel : Cancel) : Prop where
  userId : Kept cancel.identity.userId
  tenantId : Kept cancel.identity.tenantId

theorem accept_trusted (documented : deployment.network.Documented)
    (accepted : deployment.accept headers orderId = some cancel) : Trusted cancel := by
  obtain ⟨request, filtered, isCancel⟩ := Option.bind_eq_some_iff.mp accepted
  unfold Adapter.doFilter at filtered
  split_ifs at filtered
  cases filtered
  rw [Adapter.to_option_eq_some_iff] at isCancel
  obtain ⟨isIdentity, _⟩ := Adapter.cancel_order_ok isCancel
  obtain ⟨_, ⟨userId, userRead, isUser⟩, tenantId, tenantRead, isTenant⟩ :=
    McpRequest.current_identity_ok isIdentity
  obtain ⟨_, _, sentUser⟩ := Option.bind_eq_some_iff.mp userRead
  obtain ⟨_, _, sentTenant⟩ := Option.bind_eq_some_iff.mp tenantRead
  constructor
  · rw [isUser]
    exact kept_of_read (documented.ascii _ _ sentUser)
  · rw [isTenant]
    exact kept_of_read (documented.ascii _ _ sentTenant)

/-- The call of `prepare` for the cancel request. -/
def prepareFor (cancel : Cancel) : PrepareRequest where
  conversationId := cancel.conversationId.text
  userId := cancel.identity.userId
  tenantId := cancel.identity.tenantId
  operation := "order.cancel"
  arguments := cancel.arguments

/-- What reaches the service is the request of the adapter. -/
theorem prepare_request_eq (documented : deployment.network.Documented) (trusted : Trusted cancel)
    {request : PrepareRequest} (received : deployment.prepareRequest cancel = some request) :
    request = prepareFor cancel := by
  obtain ⟨arrived, sent, isRequest⟩ := Option.bind_eq_some_iff.mp received
  simp only [Cancel.httpRequest] at sent
  split at sent
  · rename_i userId tenantId isUser isTenant
    cases sent
    have user := documented.trimmed _ _ trusted.userId.ascii isUser
    have tenant := documented.trimmed _ _ trusted.tenantId.ascii isTenant
    rw [trusted.userId.strip field_blank_trimmed] at user
    rw [trusted.tenantId.strip field_blank_trimmed] at tenant
    subst user tenant
    rw [Adapter.to_option_eq_some_iff] at isRequest
    obtain ⟨conversationId, userId, tenantId, parsed, sameUser, sameTenant, rfl⟩ :=
      receive_ok isRequest
    cases sameUser
    cases sameTenant
    rw [Uuid.parse_text] at parsed
    cases parsed
    rw [trusted.userId.strip python_space_trimmed, trusted.tenantId.strip python_space_trimmed]
    rfl
  · cases sent

/-! ## What one step can do -/

inductive SystemStep (deployment : Deployment) (system : System) : SystemLabel → System → Prop
  | store (label : Label) (world : World)
      (stepped : (approvals deployment.service).step system.world label = some world) :
      SystemStep deployment system (.store label) { system with world := world }
  | quiet (label : SystemLabel) : SystemStep deployment system label system
  | accepted (headers : McpHeaders) (orderId : Option String) (cancel : Cancel)
      (accepted : deployment.accept headers orderId = some cancel) :
      SystemStep deployment system (.cancelOrder headers orderId)
        { system with waiting := system.waiting ++ [⟨cancel, []⟩] }
  | delivered (index : Nat) (waiting : Waiting) (request : PrepareRequest) (world : World)
      (here : system.waiting[index]? = some waiting)
      (received : deployment.prepareRequest waiting.cancel = some request)
      (stepped : (approvals deployment.service).step system.world (.prepare request) =
        some world) :
      SystemStep deployment system (.deliver index)
        { system with
          world := world
          waiting := system.waiting.set index
            { waiting with calls := waiting.calls ++ [system.world.calls.length] } }
  | posted (index caller : Nat) (now : Int) (waiting : Waiting) (call : Call)
      (answer : Except Raised Approval.ExecutionDecision) (post : CancelPost)
      (here : system.waiting[index]? = some waiting)
      (called : system.world.calls[caller]? = some call) (isAnswer : result call = some answer)
      (own : caller ∈ waiting.calls)
      (posted : waiting.cancel.conclude (respond answer) now = .posted post) :
      SystemStep deployment system (.reply index caller now)
        { system with posts := system.posts ++ [post] }

theorem system_step_of_step {system next : System} {label : SystemLabel}
    (stepped : (gate deployment).step system label = some next) :
    SystemStep deployment system label next := by
  cases label with
  | store label =>
      obtain ⟨world, moved, rfl⟩ := Option.map_eq_some_iff.mp stepped
      exact .store label world moved
  | cancelOrder headers orderId =>
      simp only [gate, Deployment.step] at stepped
      split at stepped
      · cases stepped
        exact .quiet _
      · rename_i cancel accepted
        cases stepped
        exact .accepted headers orderId cancel accepted
  | deliver index =>
      obtain ⟨waiting, here, stepped⟩ := Option.bind_eq_some_iff.mp stepped
      split at stepped
      · cases stepped
        exact .quiet _
      · rename_i request received
        obtain ⟨world, moved, rfl⟩ := Option.map_eq_some_iff.mp stepped
        exact .delivered index waiting request world here received moved
  | reply index caller now =>
      simp only [gate, Deployment.step] at stepped
      split at stepped
      · rename_i waiting answer here isAnswer
        split_ifs at stepped with own
        obtain ⟨call, called, isResult⟩ := Option.bind_eq_some_iff.mp isAnswer
        split at stepped
        · rename_i post posted
          cases stepped
          exact .posted index caller now waiting call answer post here called isResult own posted
        · cases stepped
          exact .quiet _
      · cases stepped

/-! ## The invariant -/

/-- Every call that answers a cancel request was made for it. -/
structure Guarded (deployment : Deployment) (system : System) : Prop where
  governed : Governed deployment.service system.world
  trusted : ∀ waiting ∈ system.waiting, Trusted waiting.cancel
  asked : ∀ waiting ∈ system.waiting, ∀ caller ∈ waiting.calls,
    ∃ phase, system.world.calls[caller]? = some (.prepare (prepareFor waiting.cancel) phase)

theorem guarded_start (conversations : List Conversation) {legacy : List ApprovalRequest}
    (isLegacy : Legacy legacy) (clock : Int) :
    Guarded deployment (System.start conversations legacy clock) where
  governed := governed_start conversations isLegacy clock
  trusted := by
    intro waiting member
    cases member
  asked := by
    intro waiting member
    cases member

theorem guarded_step (documented : deployment.network.Documented) {system next : System}
    {label : SystemLabel} (guarded : Guarded deployment system)
    (stepped : (gate deployment).step system label = some next) : Guarded deployment next := by
  have later : ∀ {label : Label} {world : World},
      (approvals deployment.service).step system.world label = some world →
        ∀ waiting ∈ system.waiting, ∀ caller ∈ waiting.calls,
          ∃ phase, world.calls[caller]? = some (.prepare (prepareFor waiting.cancel) phase) := by
    intro label world moved waiting member caller own
    obtain ⟨phase, here⟩ := guarded.asked waiting member caller own
    exact prepares_later moved here
  cases system_step_of_step stepped with
  | store label world moved =>
      exact ⟨governed_step guarded.governed moved, guarded.trusted, later moved⟩
  | quiet => exact guarded
  | accepted headers orderId cancel accepted =>
      refine ⟨guarded.governed, ?_, ?_⟩
      · intro waiting member
        rcases List.mem_append.mp member with old | added
        · exact guarded.trusted waiting old
        · rw [List.mem_singleton.mp added]
          exact accept_trusted documented accepted
      · intro waiting member caller own
        rcases List.mem_append.mp member with old | added
        · exact guarded.asked waiting old caller own
        · rw [List.mem_singleton.mp added] at own
          cases own
  | delivered index waiting request world here received moved =>
      have member := List.mem_of_getElem? here
      have isRequest := prepare_request_eq documented (guarded.trusted waiting member) received
      refine ⟨governed_step guarded.governed moved, ?_, ?_⟩
      · intro other otherMem
        rcases List.mem_or_eq_of_mem_set otherMem with old | rfl
        · exact guarded.trusted other old
        · exact guarded.trusted waiting member
      · intro other otherMem caller own
        rcases List.mem_or_eq_of_mem_set otherMem with old | rfl
        · exact later moved other old caller own
        · rcases List.mem_append.mp own with old | added
          · exact later moved waiting member caller old
          · rw [List.mem_singleton.mp added]
            cases moved
            exact ⟨.called, by rw [← isRequest]; simp⟩
  | posted index caller now waiting call answer post here called isAnswer own posted =>
      exact ⟨guarded.governed, guarded.trusted, guarded.asked⟩

/-! ## The grant of a POST -/

/-- An accepted cancellation is bound to one order. -/
theorem cancel_arguments {service : ExecutionService} {request : PrepareRequest}
    {wanted : PrepareExecution} (registered : service.operations = orderOperations)
    (asks : service.Asks request wanted) (operation : wanted.operation = "order.cancel") :
    ∃ value, Json.lookup "orderId" request.arguments = some (.str value) ∧
      wanted.arguments = [("orderId", .str value)] := by
  obtain ⟨validator, isValidator, accepted⟩ := asks.validated
  rw [registered, ← asks.operation, operation, orderOperations, if_pos rfl] at isValidator
  cases isValidator
  obtain ⟨value, found, _, isArguments⟩ := validate_cancel_order_ok accepted
  exact ⟨value, found, isArguments⟩

theorem sorted_order_id (value : String) :
    JsonText.sortKeys (.obj [("orderId", .str value)]) = .obj [("orderId", .str value)] := by
  simp only [JsonText.sortKeys, JsonText.sortKeysEntries, JsonText.sortEntries,
    List.insertionSort_cons, List.insertionSort_nil, List.orderedInsert]

structure GrantFor (post : CancelPost) (row : ApprovalRequest) (grant : ExecutionGrant) :
    Prop where
  isGrant : row.grant = some grant
  executionId : grant.executionId = post.idempotencyKey
  conversationId : row.conversationId = post.conversationId
  userId : row.requesterUserId = post.userId
  tenantId : row.tenantId = post.tenantId
  operation : grant.operation = "order.cancel"
  arguments : grant.operationArguments = [("orderId", .str post.orderId)]

/-- A `prepare` call has answered with the execution id before the grant expired. -/
structure IssuedBy (world : World) (post : CancelPost) (grant : ExecutionGrant) (caller : Nat)
    (request : PrepareRequest) (judgement : Judgement) : Prop where
  here : world.calls[caller]? = some (.prepare request (.returned judgement))
  status : judgement.decision.status = "AUTHORIZED"
  executionId : judgement.decision.executionId = some post.idempotencyKey
  isGrant : judgement.grant = grant
  inTime : judgement.now < grant.expiresAt

/-- What the adapter reads in an authorized reply is what the service has decided. -/
theorem posted_decision {decision : Approval.ExecutionDecision} {now : Int} {post : CancelPost}
    (readable : Readable decision)
    (posted : cancel.conclude (respond (.ok decision)) now = .posted post) :
    decision.status = "AUTHORIZED" ∧ decision.executionId = some post.idempotencyKey ∧
      post.orderId = cancel.orderId ∧ post.userId = cancel.identity.userId ∧
      post.tenantId = cancel.identity.tenantId ∧
      post.conversationId = cancel.conversationId.text := by
  obtain ⟨body, read, executionId, isBody, isRead, isAuthorized, isKey, _, rfl⟩ :=
    Adapter.Cancel.conclude_posted posted
  obtain ⟨response, accepted, validated, acceptedRead, sameStatus, _, sameKey, _⟩ :=
    readable.accepted
  simp only [respond, validated] at isBody
  cases isBody
  rw [isRead] at acceptedRead
  cases acceptedRead
  rw [isAuthorized] at sameStatus
  rw [isKey] at sameKey
  exact ⟨sameStatus.symm, sameKey.symm, rfl, rfl, rfl, rfl⟩

/-- The row an authorized answer was read from is the grant of the cancel request. -/
theorem authorized_row {service : ExecutionService} {world : World}
    (collisionFree : service.CollisionFree) (registered : service.operations = orderOperations)
    (sound : Sound service world) {caller : Nat} {judgement : Judgement}
    (returned : world.calls[caller]? =
      some (.prepare (prepareFor cancel) (.returned judgement)))
    (authorized : judgement.decision.status = "AUTHORIZED") :
    world.Owned cancel.conversationId.text cancel.identity.tenantId cancel.identity.userId ∧
      judgement.now < judgement.grant.expiresAt ∧
      ∃ row ∈ world.rows, row.grant = some judgement.grant ∧
        (row.status = .approved ∨ row.status = .consumed) ∧
        row.conversationId = cancel.conversationId.text ∧
        row.requesterUserId = cancel.identity.userId ∧
        row.tenantId = cancel.identity.tenantId ∧
        judgement.grant.operation = "order.cancel" ∧
        judgement.grant.operationArguments = [("orderId", .str cancel.orderId)] := by
  obtain ⟨prepared, located, _, row, member, advances, _⟩ := sound.calls caller _ returned
  obtain ⟨inTime, isApproved⟩ := (judge_eq_authorized_iff _ _ _).mp authorized
  have isGrant : row.grant = some judgement.grant := advances.grant.trans located.grant
  have asks := prepared.asks
  -- the row keeps what the locking read asked for
  obtain ⟨conversation, key, _, tenant, user⟩ := (is_grant_of_eq_true_iff _ _).mp located.isGrantOf
  have operation : judgement.wanted.operation = "order.cancel" := asks.operation
  -- its inserter asked for the same action
  obtain ⟨_, inserter, inserted, action, insertedKey, _⟩ :=
    (sound.minted_row member).origin isGrant
  have same := (ExecutionService.key_eq_iff collisionFree inserted.asks asks).mp
    (insertedKey.symm.trans (advances.approval_key.trans key))
  have sameOperation : inserter.operation = "order.cancel" := same.operation.trans operation
  obtain ⟨value, found, isArguments⟩ := cancel_arguments registered asks operation
  obtain ⟨other, _, otherArguments⟩ := cancel_arguments registered inserted.asks sameOperation
  have isOrder : value = cancel.orderId := by
    simp only [prepareFor, Cancel.arguments, Json.lookup] at found
    simpa using found.symm
  have sameValue : other = value := by
    have sorted := same.arguments
    simp only [actionOf, isArguments, otherArguments, sorted_order_id] at sorted
    cases sorted
    rfl
  refine ⟨prepared.owned, inTime, row, member, isGrant, ?_, ?_, ?_, ?_, ?_, ?_⟩
  · have leads := advances.status
    rcases isApproved with status | status <;> rw [status] at leads <;>
      cases current : row.status <;> rw [current] at leads <;>
      first | exact Or.inl rfl | exact Or.inr rfl | cases leads
  · exact advances.conversation_id.trans (conversation.trans asks.conversationId)
  · exact advances.requester_user_id.trans (user.trans asks.userId)
  · exact advances.tenant_id.trans (tenant.trans asks.tenantId)
  · exact (congrArg Action.operation action).trans sameOperation
  · rw [← isOrder, ← sameValue]
    exact (congrArg Action.arguments action).trans otherArguments

/-- A POST of the adapter is sent for a stored grant of the very order, requester and conversation,
approved by one approver of the tenant and issued in time. -/
theorem posts_are_authorized (deployment : Deployment) (documented : deployment.network.Documented)
    (collisionFree : deployment.service.CollisionFree)
    (registered : deployment.service.operations = orderOperations)
    (conversations : List Conversation) (legacy : List ApprovalRequest) (isLegacy : Legacy legacy)
    (clock : Int) (labels : List SystemLabel) (label : SystemLabel) (system next : System)
    (reached : (gate deployment).run (System.start conversations legacy clock) labels =
      some system)
    (stepped : (gate deployment).step system label = some next) (post : CancelPost)
    (sent : next.posts = system.posts ++ [post]) :
    ∃ row ∈ system.world.rows, ∃ grant, GrantFor post row grant ∧
      system.world.Owned post.conversationId post.tenantId post.userId ∧
      (row.status = .approved ∨ row.status = .consumed) ∧
      (∃ caller call applied, OnlyApproval system.world row grant caller call applied) ∧
      ∃ caller request judgement, IssuedBy system.world post grant caller request judgement := by
  have guarded : Guarded deployment system :=
    (gate deployment).run_invariant (Guarded deployment)
      (fun _ _ _ before moved => guarded_step documented before moved)
      (guarded_start conversations isLegacy clock) reached
  have sound := guarded.governed.sound
  have unsent : system.posts ≠ system.posts ++ [post] := by simp
  cases system_step_of_step stepped with
  | store label world moved => exact absurd sent unsent
  | quiet => exact absurd sent unsent
  | accepted headers orderId cancel accepted => exact absurd sent unsent
  | delivered index waiting request world here received moved => exact absurd sent unsent
  | posted index caller now waiting call answer last here called isAnswer own posted =>
      obtain ⟨phase, asked⟩ :=
        guarded.asked waiting (List.mem_of_getElem? here) caller own
      have isPost : last = post := by simpa using sent
      subst isPost
      rw [asked] at called
      cases called
      cases phase with
      | returned judgement =>
          cases isAnswer
          obtain ⟨authorized, isKey, isOrder, isUser, isTenant, isConversation⟩ :=
            posted_decision (sound.readable asked) posted
          obtain ⟨owned, inTime, row, member, isGrant, status, conversation, user, tenant,
            operation, arguments⟩ := authorized_row collisionFree registered sound asked authorized
          have key := execution_id_of_decision isKey
          refine ⟨row, member, judgement.grant, ?_, ?_, status,
            guarded.governed.approval member isGrant status,
            caller, _, judgement, asked, authorized, isKey, rfl, inTime⟩
          · exact ⟨isGrant, key.symm, conversation.trans isConversation.symm,
              user.trans isUser.symm, tenant.trans isTenant.symm, operation,
              by rw [isOrder]; exact arguments⟩
          · rw [isConversation, isTenant, isUser]
            exact owned
      | raised error =>
          cases isAnswer
          obtain ⟨body, _, _, isBody, _⟩ := Adapter.Cancel.conclude_posted posted
          cases error <;> cases isBody
      | _ => cases isAnswer

/-! ## A recorded cancellation -/

namespace Recorded

/-- A header value between two processes that take visible ASCII only. -/
def carry (value : String) : Option String :=
  if value.toList.all fieldChar then some (Text.strip fieldBlank value) else none

def network : Network := ⟨carry, carry⟩

theorem network_documented : network.Documented where
  ascii := by
    intro value read sent
    simp only [network, carry] at sent
    split_ifs at sent with ascii
    cases sent
    rw [List.all_eq_true] at ascii ⊢
    intro c member
    exact ascii c (Text.mem_of_mem_strip member)
  trimmed := by
    intro value read ascii sent
    simp only [network, carry, ascii, if_true, Option.some.injEq] at sent
    exact sent.symm

def conversation : Conversation := ⟨(Recorded.uuid 7).text, "t-1", "u-1", "thread-1"⟩

/-- The service with the SHA-256 value of the one action of this history. -/
def cancelService : ExecutionService where
  operations := orderOperations
  digest := recordedDigest
    (Action.canonical ⟨(Recorded.uuid 7).text, "u-1", "t-1", "order.cancel",
      [("orderId", .str "o-1")]⟩)
    "d9d43c6868472ae9a291358c7ae2c022a88fcf30a3d35d3515ab9539fc956264"
  ttlSeconds := 86400
  ttlPositive := Recorded.orderService.ttlPositive

theorem cancel_collision_free : cancelService.CollisionFree :=
  recorded_collision_free _ _ _ _ _ (by decide)

def cancelDeployment : Deployment where
  service := cancelService
  network := network
  mcpServiceToken := "mcp"
  executionServiceToken := "execution"
  executionServiceSecret := "execution"

def toolCall : SystemLabel :=
  .cancelOrder ⟨some "Bearer mcp", some "u-1 ", some "t-1", some "support.agent",
    some (Recorded.uuid 7).text⟩
    (some "o-1")

/-- A delivery with the statements of the call it leads to. -/
def delivered (call : Nat) (value other : Fin 16) (after : Nat) : List SystemLabel :=
  .deliver 0 :: (Recorded.statements call 2 ++
    .statement call (.drawn (Recorded.uuid value) (Recorded.uuid other)) ::
      Recorded.statements call after).map .store

/-- A cancellation is asked for, approved and asked for again; the first reply is repeated. -/
def approvedCancel : List SystemLabel :=
  toolCall :: (delivered 0 1 2 3 ++ [.reply 0 0 0] ++
    (Recorded.decide 1 "approve" 0).map .store ++ delivered 2 3 4 4 ++ [.reply 0 0 0])

def cancelPost : CancelPost :=
  ⟨"o-1", "u-1", "t-1", (Recorded.uuid 7).text, (Recorded.uuid 2).text⟩

/-- Nothing is posted before the reply of the second call. -/
theorem approved_cancel_posts :
    ((gate cancelDeployment).run (System.start [conversation] [] 0) approvedCancel).map
      (fun system => (system.posts,
        ((gate cancelDeployment).step system (.reply 0 2 0)).map System.posts)) =
      some ([], some [cancelPost]) := by
  decide +kernel

end Recorded

theorem posts_are_authorized_approved_cancel :
    ∃ system next row grant,
      (gate Recorded.cancelDeployment).run (System.start [Recorded.conversation] [] 0)
        Recorded.approvedCancel = some system ∧
      (gate Recorded.cancelDeployment).step system (.reply 0 2 0) = some next ∧
      next.posts = [Recorded.cancelPost] ∧ row ∈ system.world.rows ∧
      GrantFor Recorded.cancelPost row grant := by
  obtain ⟨system, reached, posts⟩ := Option.map_eq_some_iff.mp Recorded.approved_cancel_posts
  obtain ⟨unsent, replied⟩ := Prod.mk.inj posts
  obtain ⟨next, stepped, sent⟩ := Option.map_eq_some_iff.mp replied
  obtain ⟨row, member, grant, isGrant, _⟩ := posts_are_authorized Recorded.cancelDeployment
    Recorded.network_documented Recorded.cancel_collision_free rfl [Recorded.conversation] []
    legacy_nil 0 Recorded.approvedCancel _ _ _ reached stepped Recorded.cancelPost
    (by rw [sent, unsent]; rfl)
  exact ⟨system, next, row, grant, reached, stepped, sent, member, isGrant⟩

end AgentHarness.Gate
