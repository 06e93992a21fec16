import Mathlib.Data.List.Basic

/-!
# The conversation table

Rows are inserted and read; nothing updates or deletes one. The creation stamp is left out.
-/

namespace AgentHarness.Conversations

set_option autoImplicit false

structure Conversation where
  id : String
  tenantId : String
  userId : String
  runtimeThreadId : String
  deriving DecidableEq, Repr

namespace ConversationRepository

/-- The `VARCHAR` widths of the table. -/
def fitsColumns (row : Conversation) : Bool :=
  row.id.length ≤ 36 && row.tenantId.length ≤ 128 && row.userId.length ≤ 128 &&
    row.runtimeThreadId.length ≤ 128

/-- The primary key and the unique thread column. -/
def conflicts (rows : List Conversation) (row : Conversation) : Bool :=
  rows.any fun other => other.id = row.id || other.runtimeThreadId = row.runtimeThreadId

/-- The insert of `create`, or nothing when the database refuses the row. -/
def create (rows : List Conversation) (row : Conversation) : Option (List Conversation) :=
  if fitsColumns row && !conflicts rows row then some (rows ++ [row]) else none

def getOwned (rows : List Conversation) (conversationId tenantId userId : String) :
    Option Conversation :=
  rows.find? fun row =>
    row.id = conversationId && row.tenantId = tenantId && row.userId = userId

theorem get_owned_sound {rows : List Conversation} {conversationId tenantId userId : String}
    {row : Conversation} (found : getOwned rows conversationId tenantId userId = some row) :
    row ∈ rows ∧ row.id = conversationId ∧ row.tenantId = tenantId ∧ row.userId = userId := by
  have member := List.mem_of_find?_eq_some found
  have named := List.find?_some found
  simp only [Bool.and_eq_true, decide_eq_true_eq] at named
  exact ⟨member, named.1.1, named.1.2, named.2⟩

theorem create_appends {rows next : List Conversation} {row : Conversation}
    (created : create rows row = some next) : next = rows ++ [row] := by
  unfold create at created
  split_ifs at created
  exact (Option.some.inj created).symm

/-- An insert does not change what an earlier read found. -/
theorem get_owned_create {rows next : List Conversation} {row found : Conversation}
    {conversationId tenantId userId : String}
    (before : getOwned rows conversationId tenantId userId = some found)
    (created : create rows row = some next) :
    getOwned next conversationId tenantId userId = some found := by
  unfold create at created
  split_ifs at created
  cases created
  simp only [getOwned] at before
  simp [getOwned, List.find?_append, before]

end ConversationRepository

end AgentHarness.Conversations
