import AgentHarness.Adapter.TrustedRequest
import AgentHarness.Services.AgentService
import Mathlib.Data.Finset.Sort
import Mathlib.Data.String.Basic

/-!
# The identity of a request

The business system names the user, the tenant and the roles in three headers. The runtime hands
them to the tool servers in headers of the same names.
-/

namespace AgentHarness.Services

open AgentHarness.Library
open AgentHarness.Adapter (McpHeaders)

set_option autoImplicit false

structure HttpAuthorizationCredentials where
  scheme : String
  credentials : String
  deriving DecidableEq, Repr

/-- The headers an endpoint of the agent depends on. -/
structure ServiceRequest where
  credentials : Option HttpAuthorizationCredentials
  userId : Option String
  tenantId : Option String
  roles : Option String
  deriving DecidableEq, Repr

/-- `secrets.compare_digest` compares ASCII strings only. Its `TypeError` ends in status 500. -/
def compareDigest (given expected : String) : Except Nat Bool :=
  if (given ++ expected).toList.all (fun c => c.toNat < 128) then .ok (given = expected)
  else .error 500

theorem compare_digest_self (text : String) :
    compareDigest text text =
      if text.toList.all (fun c => c.toNat < 128) then .ok true else .error 500 := by
  simp [compareDigest]

def authenticated (secret : String) (credentials : Option HttpAuthorizationCredentials) :
    Except Nat Bool :=
  match credentials with
  | none => .ok false
  | some credentials =>
      if credentials.scheme.toList.map Char.toLower ≠ "bearer".toList then .ok false
      else compareDigest credentials.credentials secret

/-- The roles of `X-Roles`, which may be missing. -/
def principalRoles (rolesHeader : Option String) : Finset String :=
  (((Text.split ',' (rolesHeader.getD "")).map (Text.strip Text.pythonSpace)).filter
    fun role => role ≠ "").toFinset

/-- The caller, or the status code of the refusal. -/
def requireServicePrincipal (secret : String) (request : ServiceRequest) :
    Except Nat ServicePrincipal := do
  if !(← authenticated secret request.credentials) then .error 401
  else
    let userId := Text.strip Text.pythonSpace (request.userId.getD "")
    let tenantId := Text.strip Text.pythonSpace (request.tenantId.getD "")
    if userId = "" || tenantId = "" then .error 400
    else .ok ⟨userId, tenantId, principalRoles request.roles⟩

structure McpServer where
  name : String
  serviceToken : String
  deriving DecidableEq, Repr

/-- The header table of every configured tool server. -/
def mcpRequestConfig (servers : List McpServer) (userId tenantId : String) (roles : Finset String)
    (conversationId : Option String) : List (String × McpHeaders) :=
  servers.map fun server =>
    ("mcp_servers." ++ server.name ++ ".http_headers",
      { authorization := some ("Bearer " ++ server.serviceToken)
        userId := some userId
        tenantId := some tenantId
        roles := some (",".intercalate roles.sort)
        conversationId := conversationId })

/-- The names a principal carries are parts of the headers, without surrounding blanks. -/
theorem require_service_principal_ok {secret : String} {request : ServiceRequest}
    {principal : ServicePrincipal}
    (accepted : requireServicePrincipal secret request = .ok principal) :
    principal.userId = Text.strip Text.pythonSpace (request.userId.getD "") ∧
      principal.userId ≠ "" ∧
      principal.tenantId = Text.strip Text.pythonSpace (request.tenantId.getD "") ∧
      principal.tenantId ≠ "" ∧ principal.roles = principalRoles request.roles := by
  obtain ⟨known, -, accepted⟩ := Adapter.bind_ok accepted
  split at accepted
  · cases accepted
  · dsimp only at accepted
    split at accepted
    · cases accepted
    · rename_i named
      cases accepted
      simp only [Bool.or_eq_true, decide_eq_true_eq, not_or] at named
      exact ⟨rfl, named.1, rfl, named.2, rfl⟩

end AgentHarness.Services
