import AgentHarness.Library.Text
import AgentHarness.Library.Uuid
import Mathlib.Data.Finset.Insert
import Mathlib.Data.Finset.Dedup
import Mathlib.Tactic.SplitIfs

/-!
# The trusted request of the adapter

A tool call of the model carries an order id only. Who asks, and in which conversation, the adapter
reads from the headers of a request that its filter has authenticated.
-/

namespace AgentHarness.Adapter

open AgentHarness.Library

set_option autoImplicit false

/-- A chain of checks that succeeds has passed its first check. -/
theorem bind_ok {Error Value Result : Type} {first : Except Error Value}
    {rest : Value → Except Error Result} {result : Result}
    (succeeded : (first >>= rest) = .ok result) :
    ∃ value, first = .ok value ∧ rest value = .ok result := by
  cases first with
  | error error => cases succeeded
  | ok value => exact ⟨value, rfl, succeeded⟩

theorem to_option_eq_some_iff {Error Result : Type} (checked : Except Error Result)
    (result : Result) : checked.toOption = some result ↔ checked = .ok result := by
  cases checked <;> simp [Except.toOption]

/-- The headers of an MCP request, as a sender sets them or as a receiver reads them. -/
structure McpHeaders where
  authorization : Option String
  userId : Option String
  tenantId : Option String
  roles : Option String
  conversationId : Option String
  deriving DecidableEq, Repr

/-- The MCP request as the tools see it. -/
structure McpRequest where
  headers : McpHeaders
  authenticated : Bool
  deriving DecidableEq, Repr

structure BusinessIdentity where
  userId : String
  tenantId : String
  roles : Finset String
  userNamed : Text.isBlank Text.javaWhitespace userId = false
  tenantNamed : Text.isBlank Text.javaWhitespace tenantId = false
  deriving DecidableEq

namespace BusinessIdentity

def new (userId tenantId : String) (roles : Finset String) : Except String BusinessIdentity :=
  if userNamed : Text.isBlank Text.javaWhitespace userId = false then
    if tenantNamed : Text.isBlank Text.javaWhitespace tenantId = false then
      .ok ⟨userId, tenantId, roles, userNamed, tenantNamed⟩
    else .error "缺少可信 tenantId"
  else .error "缺少可信 userId"

theorem new_ok {userId tenantId : String} {roles : Finset String} {identity : BusinessIdentity}
    (created : new userId tenantId roles = .ok identity) :
    identity.userId = userId ∧ identity.tenantId = tenantId := by
  unfold new at created
  split_ifs at created
  cases created
  exact ⟨rfl, rfl⟩

end BusinessIdentity

/-- `McpServiceAuthenticationFilter`, for a path under `/mcp`. -/
def doFilter (serviceToken : String) (headers : McpHeaders) : Option McpRequest :=
  if headers.authorization = some ("Bearer " ++ serviceToken) then some ⟨headers, true⟩ else none

namespace McpRequest

def requireAuthenticated (request : McpRequest) : Except String Unit :=
  if request.authenticated then .ok () else .error "MCP 请求尚未通过服务认证"

def requireHeader (value : Option String) (name : String) : Except String String :=
  match value with
  | none => .error ("可信 MCP 请求缺少 Header: " ++ name)
  | some value =>
      if Text.isBlank Text.javaWhitespace value then
        .error ("可信 MCP 请求缺少 Header: " ++ name)
      else .ok (Text.strip Text.javaTrimmed value)

/-- The roles of `X-Roles`, which may be missing. -/
def currentRoles (rolesHeader : Option String) : Finset String :=
  match rolesHeader with
  | none => ∅
  | some rolesHeader =>
      if Text.isBlank Text.javaWhitespace rolesHeader then ∅
      else (((Text.javaSplit ',' rolesHeader).map (Text.strip Text.javaTrimmed)).filter
        fun value => !Text.isBlank Text.javaWhitespace value).toFinset

def currentIdentity (request : McpRequest) : Except String BusinessIdentity := do
  request.requireAuthenticated
  let userId ← requireHeader request.headers.userId "X-User-Id"
  let tenantId ← requireHeader request.headers.tenantId "X-Tenant-Id"
  BusinessIdentity.new userId tenantId (currentRoles request.headers.roles)

/-- The result is the text of the identifier. -/
def currentConversationId (request : McpRequest) : Except String Uuid := do
  request.requireAuthenticated
  let value ← requireHeader request.headers.conversationId "X-Conversation-Id"
  match Uuid.fromString value with
  | some uuid => .ok uuid
  | none => .error ("Invalid UUID string: " ++ value)

theorem require_header_ok {value : Option String} {name text : String}
    (accepted : requireHeader value name = .ok text) :
    ∃ read, value = some read ∧ text = Text.strip Text.javaTrimmed read := by
  cases value with
  | none => cases accepted
  | some read =>
      simp only [requireHeader] at accepted
      split_ifs at accepted
      cases accepted
      exact ⟨read, rfl, rfl⟩

/-- The identity is what the headers name, without surrounding blanks. -/
theorem current_identity_ok {request : McpRequest} {identity : BusinessIdentity}
    (read : request.currentIdentity = .ok identity) :
    request.authenticated = true ∧
      (∃ userId, request.headers.userId = some userId ∧
        identity.userId = Text.strip Text.javaTrimmed userId) ∧
      ∃ tenantId, request.headers.tenantId = some tenantId ∧
        identity.tenantId = Text.strip Text.javaTrimmed tenantId := by
  obtain ⟨_, isAuthenticated, read⟩ := bind_ok read
  obtain ⟨userId, isUser, read⟩ := bind_ok read
  obtain ⟨tenantId, isTenant, created⟩ := bind_ok read
  obtain ⟨sameUser, sameTenant⟩ := BusinessIdentity.new_ok created
  rw [sameUser, sameTenant]
  refine ⟨?_, require_header_ok isUser, require_header_ok isTenant⟩
  unfold requireAuthenticated at isAuthenticated
  split_ifs at isAuthenticated with authenticated
  exact authenticated

end McpRequest

end AgentHarness.Adapter
