import AgentHarness.Gate.AuthorizationGate
import AgentHarness.Services.ServiceAuth

/-!
# The identity on its way

Three readers and two writers of identity headers in two languages, each with its own blanks. What
the first reader keeps of a legal value has no blanks around it for any of the others.
-/

namespace AgentHarness.Gate

open AgentHarness.Library AgentHarness.Services AgentHarness.Executions
open AgentHarness.Adapter (Cancel McpHeaders McpRequest BusinessIdentity)

set_option autoImplicit false

/-! ## Headers between the processes -/

/-- Visible ASCII, space, tab and the bytes from 0x80 on, as the servers decode them. -/
def legalChar (c : Char) : Bool := fieldChar c || (128 ≤ c.toNat && c.toNat < 256)

def Legal (value : String) : Prop := ∀ c ∈ value.toList, legalChar c = true

/-- What is read is what was sent up to surrounding spaces and tabs, and no character was added. -/
structure Transmitted (sent read : String) : Prop where
  same : Text.strip fieldBlank read = Text.strip fieldBlank sent
  noLonger : read.length ≤ sent.length

/-- A header may go missing only where its value is blank. -/
def Delivers (sent : String) : Option String → Prop
  | some read => Transmitted sent read
  | none => Text.strip fieldBlank sent = ""

structure Network.Transparent (network : Network) : Prop where
  toAdapter : ∀ value, Legal value → Delivers value (network.toAdapter value)
  toService : ∀ value, Legal value → Delivers value (network.toService value)

theorem field_blank_space (c : Char) (isBlank : fieldBlank c = true) :
    Text.pythonSpace c = true := by
  simp only [fieldBlank, Bool.or_eq_true, decide_eq_true_eq] at isBlank
  simp only [Text.pythonSpace, Bool.or_eq_true, Bool.and_eq_true, decide_eq_true_eq]
  omega

theorem field_blank_trim (c : Char) (isBlank : fieldBlank c = true) :
    Text.javaTrimmed c = true := by
  simp only [fieldBlank, Bool.or_eq_true, decide_eq_true_eq] at isBlank
  simp only [Text.javaTrimmed, decide_eq_true_eq]
  omega

theorem field_blank_whitespace (c : Char) (isBlank : fieldBlank c = true) :
    Text.javaWhitespace c = true := by
  simp only [fieldBlank, Bool.or_eq_true, decide_eq_true_eq] at isBlank
  simp only [Text.javaWhitespace, Bool.or_eq_true, Bool.and_eq_true, decide_eq_true_eq]
  omega

theorem trimmed_space (c : Char) (legal : legalChar c = true)
    (isTrimmed : Text.javaTrimmed c = true) : Text.pythonSpace c = true := by
  simp only [legalChar, fieldChar, Bool.or_eq_true, Bool.and_eq_true, decide_eq_true_eq] at legal
  simp only [Text.javaTrimmed, decide_eq_true_eq] at isTrimmed
  simp only [Text.pythonSpace, Bool.or_eq_true, Bool.and_eq_true, decide_eq_true_eq]
  omega

theorem whitespace_space (c : Char) (isBlank : Text.javaWhitespace c = true) :
    Text.pythonSpace c = true := by
  simp only [Text.javaWhitespace, Bool.or_eq_true, Bool.and_eq_true, decide_eq_true_eq] at isBlank
  simp only [Text.pythonSpace, Bool.or_eq_true, Bool.and_eq_true, decide_eq_true_eq]
  omega

/-! ## Names -/

/-- A user, a tenant or a role as `require_service_principal` keeps it. -/
structure Named (value : String) : Prop where
  legal : Legal value
  nonempty : value ≠ ""
  bare : Text.strip Text.pythonSpace value = value

theorem named_strip {value : String} (legal : Legal value)
    (nonempty : Text.strip Text.pythonSpace value ≠ "") :
    Named (Text.strip Text.pythonSpace value) where
  legal c member := legal c (Text.mem_of_mem_strip member)
  nonempty := nonempty
  bare := Text.strip_strip _ _

namespace Named

variable {sent read : String} {blank : Char → Bool}

theorem strip (named : Named sent)
    (known : ∀ c, legalChar c = true → blank c = true → Text.pythonSpace c = true) :
    Text.strip blank sent = sent := by
  apply Text.strip_of_fewer named.bare
  intro c member isBlank
  exact known c (named.legal c member) isBlank

/-- Every later reader finds the name again. -/
theorem strip_read (named : Named sent) (transmitted : Transmitted sent read)
    (field : ∀ c, fieldBlank c = true → blank c = true)
    (known : ∀ c, legalChar c = true → blank c = true → Text.pythonSpace c = true) :
    Text.strip blank read = sent := by
  rw [← Text.strip_strip_of_fewer read field, transmitted.same,
    named.strip fun c _ isBlank => field_blank_space c isBlank]
  exact named.strip known

theorem not_blank (named : Named sent) (transmitted : Transmitted sent read) :
    Text.isBlank Text.javaWhitespace read = false := by
  by_contra isBlank
  have gone := (Text.strip_eq_empty_iff Text.javaWhitespace read).mpr
    ((Bool.not_eq_false _).mp isBlank)
  rw [named.strip_read transmitted field_blank_whitespace fun c _ => whitespace_space c] at gone
  exact named.nonempty gone

theorem not_blank_self (named : Named sent) : Text.isBlank Text.javaWhitespace sent = false :=
  named.not_blank ⟨rfl, Nat.le_refl _⟩

/-- A header that carries a name arrives. -/
theorem delivered (named : Named sent) {arrived : Option String}
    (delivers : Delivers sent arrived) : ∃ read, arrived = some read ∧ Transmitted sent read := by
  cases arrived with
  | none =>
      have kept := named.strip fun c _ isBlank => field_blank_space c isBlank
      exact absurd (kept.symm.trans delivers) named.nonempty
  | some read => exact ⟨read, rfl, delivers⟩

end Named

/-! ## Roles -/

/-- The roles of a principal, as a header can carry them. -/
structure NamedRoles (roles : Finset String) : Prop where
  named : ∀ role ∈ roles, Named role
  apart : ∀ role ∈ roles, ',' ∉ role.toList

theorem legal_get_d {header : Option String} (legal : ∀ value ∈ header, Legal value) :
    Legal (header.getD "") := by
  cases header with
  | none => exact fun c member => nomatch member
  | some value => exact legal value rfl

theorem named_roles {rolesHeader : Option String} (legal : ∀ value ∈ rolesHeader, Legal value) :
    NamedRoles (principalRoles rolesHeader) := by
  have origin : ∀ role ∈ principalRoles rolesHeader, role ≠ "" ∧
      ∃ piece ∈ Text.split ',' (rolesHeader.getD ""), Text.strip Text.pythonSpace piece = role := by
    intro role member
    simp only [principalRoles, List.mem_toFinset, List.mem_filter, List.mem_map,
      decide_eq_true_eq] at member
    exact ⟨member.2, member.1⟩
  have legalHeader := legal_get_d legal
  constructor
  · intro role member
    obtain ⟨nonempty, piece, isPiece, rfl⟩ := origin role member
    apply named_strip _ nonempty
    intro c inPiece
    exact legalHeader c (Text.mem_of_mem_split isPiece c inPiece).1
  · intro role member separator
    obtain ⟨-, piece, isPiece, rfl⟩ := origin role member
    exact (Text.mem_of_mem_split isPiece ',' (Text.mem_of_mem_strip separator)).2 rfl

namespace NamedRoles

variable {roles : Finset String} {read : String} {blank : Char → Bool}

theorem legal (named : NamedRoles roles) : Legal (",".intercalate roles.sort) := by
  intro c member
  rcases Text.mem_intercalate member with separator | ⟨role, isRole, inRole⟩
  · have comma : c = ',' := by simpa using separator
    rw [comma]
    decide
  · exact (named.named role ((Finset.mem_sort _).mp isRole)).legal c inRole

/-- The pieces of the header are the roles again, up to the blanks at its ends. -/
theorem pieces (named : NamedRoles roles) (someRole : roles.Nonempty)
    (transmitted : Transmitted (",".intercalate roles.sort) read)
    (field : ∀ c, fieldBlank c = true → blank c = true) (kept : blank ',' = false)
    (known : ∀ c, legalChar c = true → blank c = true → Text.pythonSpace c = true) :
    (Text.split ',' read).map (Text.strip blank) = roles.sort := by
  have sorted (role : String) (member : role ∈ roles.sort) : role ∈ roles :=
    (Finset.mem_sort _).mp member
  have nonempty : roles.sort ≠ [] := by
    obtain ⟨role, isRole⟩ := someRole
    exact List.ne_nil_of_mem ((Finset.mem_sort _).mpr isRole)
  generalize roles.sort = parts at *
  have split : Text.split ',' (",".intercalate parts) = parts :=
    Text.split_intercalate ',' parts nonempty fun role isRole =>
      named.apart role (sorted role isRole)
  calc (Text.split ',' read).map (Text.strip blank)
      = (Text.split ',' (Text.strip fieldBlank read)).map (Text.strip blank) :=
        (Text.map_strip_split_strip kept field read).symm
    _ = (Text.split ',' (Text.strip fieldBlank (",".intercalate parts))).map (Text.strip blank) := by
        rw [transmitted.same]
    _ = (Text.split ',' (",".intercalate parts)).map (Text.strip blank) :=
        Text.map_strip_split_strip kept field _
    _ = parts.map (Text.strip blank) := by rw [split]
    _ = parts.map fun role => role := by
        apply List.map_congr_left
        intro role isRole
        exact (named.named role (sorted role isRole)).strip known
    _ = parts := List.map_id _

theorem not_blank (named : NamedRoles roles) (someRole : roles.Nonempty)
    (transmitted : Transmitted (",".intercalate roles.sort) read) :
    Text.isBlank Text.javaWhitespace read = false := by
  have pieces := named.pieces someRole transmitted field_blank_whitespace (by decide)
    fun c _ => whitespace_space c
  obtain ⟨role, isRole⟩ := someRole
  have isSorted : role ∈ (Text.split ',' read).map (Text.strip Text.javaWhitespace) :=
    pieces ▸ (Finset.mem_sort _).mpr isRole
  obtain ⟨piece, isPiece, stripped⟩ := List.mem_map.mp isSorted
  by_contra isBlank
  have blanks := List.all_eq_true.mp ((Bool.not_eq_false _).mp isBlank)
  have gone : Text.strip Text.javaWhitespace piece = "" := by
    rw [Text.strip_eq_empty_iff, Text.isBlank, List.all_eq_true]
    intro c member
    exact blanks c (Text.mem_of_mem_split isPiece c member).1
  exact (named.named role isRole).nonempty (stripped.symm.trans gone)

/-- The adapter reads the roles that were sent. -/
theorem current_roles (named : NamedRoles roles) {arrived : Option String}
    (delivers : Delivers (",".intercalate roles.sort) arrived) :
    McpRequest.currentRoles arrived = roles := by
  rcases roles.eq_empty_or_nonempty with rfl | someRole
  · have empty : ",".intercalate (∅ : Finset String).sort = "" := by
      rw [Finset.sort_empty]
      rfl
    rw [empty] at delivers
    cases arrived with
    | none => rfl
    | some read =>
        have gone : Text.strip fieldBlank read = "" := delivers.same
        have blanks := List.all_eq_true.mp ((Text.strip_eq_empty_iff fieldBlank read).mp gone)
        have isBlank : Text.isBlank Text.javaWhitespace read = true :=
          List.all_eq_true.mpr fun c member => field_blank_whitespace c (blanks c member)
        rw [McpRequest.currentRoles, if_pos isBlank]
  · cases arrived with
    | none =>
        have nothing : Transmitted (",".intercalate roles.sort) "" :=
          ⟨delivers.symm, Nat.zero_le _⟩
        have kept := named.not_blank someRole nothing
        cases kept
    | some read =>
        have pieces := named.pieces someRole delivers field_blank_trim (by decide) trimmed_space
        have kept : ∀ piece ∈ Text.split ',' read, piece ≠ "" := by
          intro piece isPiece gone
          have isRole : Text.strip Text.javaTrimmed piece ∈ roles.sort :=
            pieces ▸ List.mem_map_of_mem isPiece
          rw [gone] at isRole
          exact (named.named _ ((Finset.mem_sort _).mp isRole)).nonempty rfl
        have all : (roles.sort.filter fun value => !Text.isBlank Text.javaWhitespace value) =
            roles.sort := by
          rw [List.filter_eq_self]
          intro role isRole
          have kept := (named.named role ((Finset.mem_sort _).mp isRole)).not_blank_self
          simp [kept]
        rw [McpRequest.currentRoles, named.not_blank someRole delivers, if_neg Bool.false_ne_true,
          Text.java_split_eq ',' read kept, pieces, all, Finset.sort_toFinset]

end NamedRoles

/-! ## The hops -/

theorem require_header_read {sent read : String} (named : Named sent)
    (transmitted : Transmitted sent read) (name : String) :
    McpRequest.requireHeader (some read) name = .ok sent := by
  rw [McpRequest.requireHeader, named.not_blank transmitted, if_neg Bool.false_ne_true,
    named.strip_read transmitted field_blank_trim trimmed_space]

/-- The adapter reads back what the runtime wrote. -/
theorem current_identity_read {headers : McpHeaders} {userId tenantId : String}
    {roles : Finset String} (user : Named userId) (tenant : Named tenantId)
    (isRoles : NamedRoles roles) (userRead : Delivers userId headers.userId)
    (tenantRead : Delivers tenantId headers.tenantId)
    (rolesRead : Delivers (",".intercalate roles.sort) headers.roles) :
    ∃ identity, McpRequest.currentIdentity ⟨headers, true⟩ = .ok identity ∧
      identity.userId = userId ∧ identity.tenantId = tenantId ∧ identity.roles = roles := by
  obtain ⟨userText, userArrived, userSame⟩ := user.delivered userRead
  obtain ⟨tenantText, tenantArrived, tenantSame⟩ := tenant.delivered tenantRead
  let identity : BusinessIdentity :=
    ⟨userId, tenantId, roles, user.not_blank_self, tenant.not_blank_self⟩
  have created : BusinessIdentity.new userId tenantId roles = .ok identity := by
    rw [BusinessIdentity.new, dif_pos user.not_blank_self, dif_pos tenant.not_blank_self]
  refine ⟨identity, ?_, rfl, rfl, rfl⟩
  rw [McpRequest.currentIdentity, userArrived, tenantArrived, require_header_read user userSame,
    require_header_read tenant tenantSame, isRoles.current_roles rolesRead]
  exact created

theorem arrived_identity {deployment : Deployment} (transparent : deployment.network.Transparent)
    (headers : McpHeaders) {userId tenantId : String} {roles : Finset String} (user : Named userId)
    (tenant : Named tenantId) (isRoles : NamedRoles roles) (sentUser : headers.userId = some userId)
    (sentTenant : headers.tenantId = some tenantId)
    (sentRoles : headers.roles = some (",".intercalate roles.sort)) :
    ∃ identity, McpRequest.currentIdentity ⟨deployment.arrived headers, true⟩ = .ok identity ∧
      identity.userId = userId ∧ identity.tenantId = tenantId ∧ identity.roles = roles := by
  apply current_identity_read user tenant isRoles
  · rw [Deployment.arrived, sentUser]
    exact transparent.toAdapter _ user.legal
  · rw [Deployment.arrived, sentTenant]
    exact transparent.toAdapter _ tenant.legal
  · rw [Deployment.arrived, sentRoles]
    exact transparent.toAdapter _ isRoles.legal

/-- The endpoint reads back what the adapter wrote, unless it cannot compare the secret. -/
theorem require_execution_principal_read {secret userId tenantId : String} {call : HttpRequest}
    (user : Named userId) (tenant : Named tenantId) (shortUser : userId.length ≤ 128)
    (shortTenant : tenantId.length ≤ 128) (credentials : call.credentials = some secret)
    {userText tenantText : String} (userArrived : call.userId = some userText)
    (userSame : Transmitted userId userText) (tenantArrived : call.tenantId = some tenantText)
    (tenantSame : Transmitted tenantId tenantText) :
    requireExecutionPrincipal secret call =
      if secret.toList.all (fun c => c.toNat < 128) then .ok ⟨userId, tenantId, ∅⟩
      else .error 500 := by
  have userFits : ¬ 128 < userText.length := by
    have noLonger := userSame.noLonger
    omega
  have tenantFits : ¬ 128 < tenantText.length := by
    have noLonger := tenantSame.noLonger
    omega
  have userKept := user.strip_read userSame field_blank_space fun _ _ isBlank => isBlank
  have tenantKept := tenant.strip_read tenantSame field_blank_space fun _ _ isBlank => isBlank
  cases ascii : secret.toList.all (fun c => c.toNat < 128) with
  | true =>
      simp [requireExecutionPrincipal, userArrived, tenantArrived, userFits, tenantFits,
        credentials, compare_digest_self, ascii, userKept, tenantKept, user.nonempty,
        tenant.nonempty]
  | false =>
      simp [requireExecutionPrincipal, userArrived, tenantArrived, userFits, tenantFits,
        credentials, compare_digest_self, ascii]

/-- The tool server reads the principal that the agent accepted, and the endpoint reads the owner
again: the conversation was created with the names of the principal. A service secret outside ASCII,
which `compare_digest` does not take, is refused with status 500 whatever the names. -/
theorem identity_survives (deployment : Deployment) (transparent : deployment.network.Transparent)
    (secret : String) (request : ServiceRequest) (principal : ServicePrincipal)
    (legalUser : ∀ value ∈ request.userId, Legal value)
    (legalTenant : ∀ value ∈ request.tenantId, Legal value)
    (legalRoles : ∀ value ∈ request.roles, Legal value)
    (accepted : requireServicePrincipal secret request = .ok principal)
    (shortUser : principal.userId.length ≤ 128) (shortTenant : principal.tenantId.length ≤ 128)
    (servers : List McpServer) (conversationId : Option String) (entry : String × McpHeaders)
    (sent : entry ∈ mcpRequestConfig servers principal.userId principal.tenantId principal.roles
      conversationId) :
    ∃ identity, McpRequest.currentIdentity ⟨deployment.arrived entry.2, true⟩ = .ok identity ∧
      identity.userId = principal.userId ∧ identity.tenantId = principal.tenantId ∧
      identity.roles = principal.roles ∧
      ∀ cancel : Cancel, cancel.identity = identity → ∃ call,
        cancel.httpRequest deployment.network.toService deployment.executionServiceToken =
          some call ∧
        requireExecutionPrincipal deployment.executionServiceToken call =
          if deployment.executionServiceToken.toList.all (fun c => c.toNat < 128) then
            .ok ⟨principal.userId, principal.tenantId, ∅⟩
          else .error 500 := by
  obtain ⟨userId, userNonempty, tenantId, tenantNonempty, roles⟩ :=
    require_service_principal_ok accepted
  have user : Named principal.userId := by
    rw [userId] at userNonempty ⊢
    exact named_strip (legal_get_d legalUser) userNonempty
  have tenant : Named principal.tenantId := by
    rw [tenantId] at tenantNonempty ⊢
    exact named_strip (legal_get_d legalTenant) tenantNonempty
  have isRoles : NamedRoles principal.roles := by
    rw [roles]
    exact named_roles legalRoles
  obtain ⟨server, -, rfl⟩ := List.mem_map.mp sent
  let headers : McpHeaders := ⟨some ("Bearer " ++ server.serviceToken), some principal.userId,
    some principal.tenantId, some (",".intercalate principal.roles.sort), conversationId⟩
  obtain ⟨identity, read, sameUser, sameTenant, sameRoles⟩ :=
    arrived_identity transparent headers user tenant isRoles rfl rfl rfl
  refine ⟨identity, read, sameUser, sameTenant, sameRoles, ?_⟩
  intro cancel same
  obtain ⟨userText, userArrived, userSame⟩ :=
    user.delivered (transparent.toService _ user.legal)
  obtain ⟨tenantText, tenantArrived, tenantSame⟩ :=
    tenant.delivered (transparent.toService _ tenant.legal)
  let call : HttpRequest := ⟨some deployment.executionServiceToken, some userText, some tenantText,
    cancel.conversationId.text, "order.cancel", cancel.arguments⟩
  refine ⟨call, ?_, ?_⟩
  · rw [Cancel.httpRequest, same, sameUser, sameTenant, userArrived, tenantArrived]
  · exact require_execution_principal_read user tenant shortUser shortTenant rfl rfl userSame rfl
      tenantSame

/-! ## A recorded request -/

namespace Recorded

/-- Servers that take the blanks around a value away. -/
def trimming : Network where
  toAdapter value := some (Text.strip fieldBlank value)
  toService value := some (Text.strip fieldBlank value)

theorem trimming_transparent : trimming.Transparent where
  toAdapter value _ := ⟨Text.strip_strip fieldBlank value, Text.strip_length_le fieldBlank value⟩
  toService value _ := ⟨Text.strip_strip fieldBlank value, Text.strip_length_le fieldBlank value⟩

def trimmingDeployment : Deployment where
  service := Approval.Recorded.orderService
  network := trimming
  mcpServiceToken := "mcp"
  executionServiceToken := "execution"
  executionServiceSecret := "execution"

/-- The user ends in a no-break space, which only the first reader strips. -/
def namedRequest : ServiceRequest :=
  ⟨some ⟨"Bearer", "shared"⟩, some "u-1\u00a0", some "\tt-1", some "agent.approver, ,support.agent "⟩

def namedPrincipal : ServicePrincipal :=
  ⟨"u-1", "t-1", ["agent.approver", "support.agent"].toFinset⟩

theorem named_request_accepted :
    requireServicePrincipal "shared" namedRequest = .ok namedPrincipal :=
  (Adapter.to_option_eq_some_iff _ _).mp (by decide +kernel)

theorem legal_of_all {header : Option String}
    (all : (header.getD "").toList.all legalChar = true) : ∀ value ∈ header, Legal value := by
  intro value isValue
  cases isValue
  exact List.all_eq_true.mp all

/-- The one entry of the configuration. -/
def namedEntry : String × McpHeaders :=
  ("mcp_servers.order.http_headers", ⟨some "Bearer mcp", some "u-1", some "t-1",
    some "agent.approver,support.agent", none⟩)

theorem named_entry_sent : namedEntry ∈ mcpRequestConfig [⟨"order", "mcp"⟩] namedPrincipal.userId
    namedPrincipal.tenantId namedPrincipal.roles none := by
  have sorted : namedPrincipal.roles.sort = ["agent.approver", "support.agent"] :=
    (List.toFinset_sort (· ≤ ·) (by decide)).mpr (by decide +kernel)
  rw [mcpRequestConfig, sorted]
  decide +kernel

theorem identity_survives_named : ∃ identity,
    McpRequest.currentIdentity ⟨trimmingDeployment.arrived namedEntry.2, true⟩ = .ok identity ∧
      identity.userId = "u-1" ∧ identity.tenantId = "t-1" ∧
      identity.roles = namedPrincipal.roles ∧
      ∀ cancel : Cancel, cancel.identity = identity → ∃ call,
        cancel.httpRequest trimming.toService "execution" = some call ∧
        requireExecutionPrincipal "execution" call = .ok ⟨"u-1", "t-1", ∅⟩ :=
  identity_survives trimmingDeployment trimming_transparent "shared" namedRequest namedPrincipal
    (legal_of_all (by decide +kernel)) (legal_of_all (by decide +kernel))
    (legal_of_all (by decide +kernel)) named_request_accepted (by decide) (by decide)
    [⟨"order", "mcp"⟩] none namedEntry named_entry_sent

end Recorded

end AgentHarness.Gate
