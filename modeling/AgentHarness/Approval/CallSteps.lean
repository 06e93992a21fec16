import AgentHarness.Approval.ConcurrentCalls

/-!
# What one statement can do

Every statement of a call is one of these cases, with the answers it got from the database.
-/

namespace AgentHarness.Approval

open AgentHarness.Library AgentHarness.Conversations AgentHarness.Executions

set_option autoImplicit false

section Statements

variable (service : ExecutionService) (world : World) (caller : Nat)

inductive PrepareStep (request : PrepareRequest) :
    PreparePhase → PreparePhase → ApprovalTable → Bool → Prop
  | refused (error : Raised) : PrepareStep request .called (.raised error) world.table false
  | authorize (row : Conversation) (wanted : PrepareExecution)
      (owned : ConversationRepository.getOwned world.conversations request.conversationId
        request.tenantId request.userId = some row)
      (authorized : service.authorize request = .ok wanted) :
      PrepareStep request .called (.authorized wanted) world.table false
  | begin (wanted : PrepareExecution) :
      PrepareStep request (.authorized wanted) (.began wanted world.clock) world.table false
  | tooWide (wanted : PrepareExecution) (now : Int) :
      PrepareStep request (.began wanted now) (.raised .dataError) (world.table.rollback caller)
        false
  | conflicted (wanted : PrepareExecution) (now : Int) :
      PrepareStep request (.began wanted now) (.inserted wanted) world.table false
  | insert (wanted : PrepareExecution) (now : Int) (id executionId : Uuid) (table : ApprovalTable)
      (inserted : RowStore.insertOnConflictDoNothing ApprovalRequest.conflict world.table caller
        (ApprovalRequest.newGrant wanted id.text executionId.text now) = .inserted table) :
      PrepareStep request (.began wanted now) (.inserted wanted) table false
  | notOne (wanted : PrepareExecution) (error : Raised) :
      PrepareStep request (.inserted wanted) (.raised error) (world.table.rollback caller) false
  | lock (wanted : PrepareExecution) (row : ApprovalRequest) (grant : ExecutionGrant)
      (table : ApprovalTable) (isGrant : row.grant = some grant)
      (locked : world.table.lockWhere caller (ApprovalRequest.isGrantOf wanted) =
        some ([row], table)) :
      PrepareStep request (.inserted wanted) (.locked wanted row grant) table true
  | readClock (wanted : PrepareExecution) (row : ApprovalRequest) (grant : ExecutionGrant) :
      PrepareStep request (.locked wanted row grant) (.judged ⟨wanted, row, grant, world.clock⟩)
        world.table false
  | issue (judgement : Judgement) (rows : List ApprovalRequest) (table : ApprovalTable)
      (issues : judgement.issues = true)
      (updated : world.table.updateWhere caller (fun row => row.id = judgement.row.id)
        (ApprovalRequest.consume judgement.now) = some (rows, table)) :
      PrepareStep request (.judged judgement) (.issued judgement) table false
  | answer (judgement : Judgement) (keeps : judgement.issues = false) :
      PrepareStep request (.judged judgement) (.returned judgement) (world.table.commit caller)
        false
  | finish (judgement : Judgement) :
      PrepareStep request (.issued judgement) (.returned judgement) (world.table.commit caller)
        false

theorem prepare_statement_step (request : PrepareRequest) (phase next : PreparePhase)
    (input : Input) (table : ApprovalTable) (locks : Bool)
    (ran : world.prepareStatement service caller request phase input =
      some (next, table, locks)) :
    PrepareStep service world caller request phase next table locks := by
  cases phase <;> cases input
  case called.nothing =>
    simp only [World.prepareStatement] at ran
    split at ran
    · cases ran
      exact .refused _
    · rename_i row owned
      split at ran
      · cases ran
        exact .refused _
      · rename_i wanted authorized
        cases ran
        exact .authorize row wanted owned authorized
  case authorized.nothing wanted =>
    cases ran
    exact .begin wanted
  case began.drawn wanted now id executionId =>
    simp only [World.prepareStatement] at ran
    split_ifs at ran
    · cases ran
      exact .tooWide wanted now
    · split at ran
      · cases ran
      · cases ran
        exact .conflicted wanted now
      · rename_i inserted
        cases ran
        exact .insert wanted now id executionId _ inserted
  case inserted.nothing wanted =>
    simp only [World.prepareStatement] at ran
    split at ran
    · cases ran
    · cases ran
      exact .notOne wanted _
    · rename_i row next locked
      obtain ⟨grant, isGrant, same⟩ := Option.map_eq_some_iff.mp ran
      cases same
      exact .lock wanted row grant _ isGrant locked
    · cases ran
      exact .notOne wanted _
  case locked.nothing wanted row grant =>
    cases ran
    exact .readClock wanted row grant
  case judged.nothing judgement =>
    simp only [World.prepareStatement] at ran
    split_ifs at ran with issues
    · obtain ⟨⟨rows, written⟩, updated, same⟩ := Option.map_eq_some_iff.mp ran
      cases same
      exact .issue judgement rows _ issues updated
    · cases ran
      exact .answer judgement (by simpa using issues)
  case issued.nothing judgement =>
    cases ran
    exact .finish judgement
  -- no other phase goes on with such an input
  all_goals cases ran

/-- The statements of `decide` with the input they took. -/
inductive DecideStep (call : DecideCall) :
    DecidePhase → Input → DecideCall → ApprovalTable → Prop
  | unknown (now : Int) (other : Decision.ofText call.request.decision = none) :
      DecideStep call .called (.host now)
        { call with phase := .raised (.valueError "decision 只能是 approve 或 reject") } world.table
  | start (decision : Decision) (now : Int)
      (known : Decision.ofText call.request.decision = some decision) :
      DecideStep call .called (.host now) { call with phase := .started decision now } world.table
  | unstorable (decision : Decision) (now : Int) (refused : call.request.storable = false) :
      DecideStep call (.started decision now) .nothing
        { call with phase := .raised .dataError } world.table
  | update (decision : Decision) (now : Int) (rows : List ApprovalRequest) (table : ApprovalTable)
      (storable : call.request.storable = true)
      (updated : world.table.updateWhere caller
        (ApprovalRequest.isDecidable call.request world.clock)
        (ApprovalRequest.applyDecision decision call.request.decidedBy now) = some (rows, table)) :
      DecideStep call (.started decision now) .nothing
        { call with
            phase := .updated decision now world.clock rows.length
            missing := world.rows.all fun row => row.id ≠ call.request.approvalId } table
  | lose (decision : Decision) (now matchedAt : Int) :
      DecideStep call (.updated decision now matchedAt 0) .nothing { call with phase := .lost }
        (world.table.commit caller)
  | win (decision : Decision) (now matchedAt : Int) (rowcount : Nat) (changed : rowcount ≠ 0) :
      DecideStep call (.updated decision now matchedAt rowcount) .nothing
        { call with phase := .won, applied := some ⟨decision, now, matchedAt⟩ }
        (world.table.commit caller)
  | gone (absent : world.get call.request.approvalId = none) :
      DecideStep call .won .nothing
        { call with phase := .raised (.keyError call.request.approvalId) } world.table
  | answer (row : ApprovalRequest) (found : world.get call.request.approvalId = some row) :
      DecideStep call .won .nothing { call with phase := .returned row } world.table
  | notFound (absent : world.get call.request.approvalId = none) :
      DecideStep call .lost .nothing
        { call with phase := .raised (.keyError call.request.approvalId) } world.table
  | otherTenant (row : ApprovalRequest) (found : world.get call.request.approvalId = some row)
      (other : row.tenantId ≠ call.request.tenantId) :
      DecideStep call .lost .nothing
        { call with phase := .raised (.keyError call.request.approvalId) } world.table
  | reread (row : ApprovalRequest) (found : world.get call.request.approvalId = some row)
      (own : row.tenantId = call.request.tenantId) :
      DecideStep call .lost .nothing { call with phase := .reread row } world.table
  | refuse (row : ApprovalRequest) (now : Int) :
      DecideStep call (.reread row) (.host now)
        { call with phase := .raised (row.refusal now) } world.table

theorem decide_statement_step (call : DecideCall) (phase : DecidePhase) (input : Input)
    (next : DecideCall) (table : ApprovalTable)
    (ran : world.decideStatement caller call phase input = some (next, table)) :
    DecideStep world caller call phase input next table := by
  cases phase <;> cases input
  case called.host now =>
    simp only [World.decideStatement] at ran
    split at ran
    · rename_i other
      cases ran
      exact .unknown now other
    · rename_i decision known
      cases ran
      exact .start decision now known
  case started.nothing decision now =>
    simp only [World.decideStatement] at ran
    split_ifs at ran with refused
    · cases ran
      exact .unstorable decision now (by simpa using refused)
    · obtain ⟨⟨rows, written⟩, updated, same⟩ := Option.map_eq_some_iff.mp ran
      cases same
      exact .update decision now rows _ (by simpa using refused) updated
  case updated.nothing decision now matchedAt rowcount =>
    simp only [World.decideStatement] at ran
    split_ifs at ran with unchanged
    · cases ran
      subst unchanged
      exact .lose decision now matchedAt
    · cases ran
      exact .win decision now matchedAt rowcount unchanged
  case won.nothing =>
    simp only [World.decideStatement] at ran
    split at ran
    · rename_i absent
      cases ran
      exact .gone absent
    · rename_i row found
      cases ran
      exact .answer row found
  case lost.nothing =>
    simp only [World.decideStatement] at ran
    split at ran
    · rename_i absent
      cases ran
      exact .notFound absent
    · rename_i row found
      split_ifs at ran with other
      · cases ran
        exact .otherTenant row found other
      · cases ran
        exact .reread row found (by simpa using other)
  case reread.host row now =>
    cases ran
    exact .refuse row now
  all_goals cases ran

end Statements

/-- The steps of the whole store. -/
inductive WorldStep (service : ExecutionService) (world : World) : Label → World → Prop
  | tick (duration : Nat) :
      WorldStep service world (.tick duration) { world with clock := world.clock + duration }
  | createConversation (row : Conversation) (conversations : List Conversation)
      (created : ConversationRepository.create world.conversations row = some conversations) :
      WorldStep service world (.createConversation row)
        { world with conversations := conversations }
  | prepare (request : PrepareRequest) :
      WorldStep service world (.prepare request)
        { world with calls := world.calls ++ [.prepare request .called] }
  | decide (request : DecideRequest) :
      WorldStep service world (.decide request)
        { world with calls := world.calls ++ [.decide ⟨request, .called, none, false⟩] }
  | prepareStatement (caller : Nat) (input : Input) (request : PrepareRequest)
      (phase next : PreparePhase) (table : ApprovalTable) (locks : Bool)
      (here : world.calls[caller]? = some (.prepare request phase))
      (ran : PrepareStep service world caller request phase next table locks) :
      WorldStep service world (.statement caller input)
        { world.put caller (.prepare request next) table with
          locks := if locks then world.locks ++ [caller] else world.locks }
  | decideStatement (caller : Nat) (input : Input) (call next : DecideCall)
      (table : ApprovalTable) (here : world.calls[caller]? = some (.decide call))
      (ran : DecideStep world caller call call.phase input next table) :
      WorldStep service world (.statement caller input) (world.put caller (.decide next) table)
  | crash (caller : Nat) (call next : Call) (here : world.calls[caller]? = some call)
      (stops : World.crashed call = some next) :
      WorldStep service world (.crash caller)
        (world.put caller next (world.table.rollback caller))

theorem world_step_of_step (service : ExecutionService) (world next : World) (label : Label)
    (stepped : (approvals service).step world label = some next) :
    WorldStep service world label next := by
  simp only [approvals] at stepped
  cases label with
  | tick duration =>
      cases stepped
      exact .tick duration
  | createConversation row =>
      obtain ⟨conversations, created, same⟩ := Option.map_eq_some_iff.mp stepped
      subst same
      exact .createConversation row conversations created
  | prepare request =>
      cases stepped
      exact .prepare request
  | decide request =>
      cases stepped
      exact .decide request
  | statement caller input =>
      simp only [World.step] at stepped
      split at stepped
      · rename_i request phase here
        obtain ⟨⟨after, table, locks⟩, ran, same⟩ := Option.map_eq_some_iff.mp stepped
        subst same
        exact .prepareStatement caller input request phase after table locks here
          (prepare_statement_step service world caller request phase after input table locks ran)
      · rename_i call here
        obtain ⟨⟨after, table⟩, ran, same⟩ := Option.map_eq_some_iff.mp stepped
        subst same
        exact .decideStatement caller input call after table here
          (decide_statement_step world caller call call.phase input after table ran)
      · cases stepped
  | crash caller =>
      obtain ⟨call, here, stops⟩ := Option.bind_eq_some_iff.mp stepped
      obtain ⟨after, stopped, same⟩ := Option.map_eq_some_iff.mp stops
      subst same
      exact .crash caller call after here stopped

/-! ## One call across a step -/

inductive CallBegun : Call → Prop
  | prepare (request : PrepareRequest) : CallBegun (.prepare request .called)
  | decide (request : DecideRequest) : CallBegun (.decide ⟨request, .called, none, false⟩)

/-- A step of one call, with the table it leaves. -/
inductive CallStep (service : ExecutionService) (world : World) (caller : Nat) :
    Label → Call → Call → ApprovalTable → Prop
  | prepare (input : Input) (request : PrepareRequest) (phase after : PreparePhase)
      (table : ApprovalTable) (locks : Bool)
      (ran : PrepareStep service world caller request phase after table locks) :
      CallStep service world caller (.statement caller input) (.prepare request phase)
        (.prepare request after) table
  | decide (input : Input) (call after : DecideCall) (table : ApprovalTable)
      (ran : DecideStep world caller call call.phase input after table) :
      CallStep service world caller (.statement caller input) (.decide call) (.decide after) table
  | crash (call after : Call) (table : ApprovalTable) (stops : World.crashed call = some after)
      (rolledBack : table = world.table.rollback caller) :
      CallStep service world caller (.crash caller) call after table

section Across

variable {service : ExecutionService} {world next : World} {label : Label} {index : Nat}

/-- A step begins a call, moves one call or leaves the calls alone. -/
theorem calls_step (stepped : (approvals service).step world label = some next) :
    next.calls = world.calls ∨
      (∃ added, CallBegun added ∧ next.calls = world.calls ++ [added]) ∨
      ∃ caller before after, world.calls[caller]? = some before ∧
        next.calls = world.calls.set caller after ∧
        CallStep service world caller label before after next.table := by
  cases world_step_of_step service world next label stepped with
  | tick duration => exact Or.inl rfl
  | createConversation row conversations created => exact Or.inl rfl
  | prepare request => exact Or.inr (Or.inl ⟨_, .prepare request, rfl⟩)
  | decide request => exact Or.inr (Or.inl ⟨_, .decide request, rfl⟩)
  | prepareStatement caller input request phase after table locks here ran =>
      exact Or.inr (Or.inr ⟨caller, _, _, here, rfl,
        .prepare input request phase after table locks ran⟩)
  | decideStatement caller input call after table here ran =>
      exact Or.inr (Or.inr ⟨caller, _, _, here, rfl, .decide input call after table ran⟩)
  | crash caller call after here stops =>
      exact Or.inr (Or.inr ⟨caller, _, _, here, rfl, .crash call after _ stops rfl⟩)

/-- Where a call goes. -/
theorem call_later {call : Call} (stepped : (approvals service).step world label = some next)
    (here : world.calls[index]? = some call) :
    next.calls[index]? = some call ∨ ∃ after, next.calls[index]? = some after ∧
      CallStep service world index label call after next.table := by
  have inRange := (List.getElem?_eq_some_iff.mp here).1
  rcases calls_step stepped with same | ⟨added, _, appended⟩ |
    ⟨caller, before, after, present, changed, ran⟩
  · left
    rw [same]
    exact here
  · left
    rw [appended, List.getElem?_append_left inRange]
    exact here
  · by_cases same : index = caller
    · subst same
      rw [here] at present
      cases present
      exact Or.inr ⟨after, by rw [changed, List.getElem?_set_self inRange], ran⟩
    · left
      rw [changed, List.getElem?_set_ne (Ne.symm same)]
      exact here

/-- Where a call comes from. -/
theorem call_origin {after : Call} (stepped : (approvals service).step world label = some next)
    (present : next.calls[index]? = some after) :
    world.calls[index]? = some after ∨ CallBegun after ∨
      ∃ before, world.calls[index]? = some before ∧
        CallStep service world index label before after next.table := by
  rcases calls_step stepped with same | ⟨added, begun, appended⟩ |
    ⟨caller, before, moved, here, changed, ran⟩
  · rw [same] at present
    exact Or.inl present
  · rw [appended] at present
    by_cases inRange : index < world.calls.length
    · rw [List.getElem?_append_left inRange] at present
      exact Or.inl present
    · rw [List.getElem?_append_right (by omega)] at present
      have isAdded := List.mem_singleton.mp (List.mem_of_getElem? present)
      rw [isAdded]
      exact Or.inr (Or.inl begun)
  · rw [changed] at present
    by_cases same : index = caller
    · subst same
      rw [List.getElem?_set_self (List.getElem?_eq_some_iff.mp here).1] at present
      cases present
      exact Or.inr (Or.inr ⟨before, here, ran⟩)
    · rw [List.getElem?_set_ne (Ne.symm same)] at present
      exact Or.inl present

end Across

end AgentHarness.Approval
