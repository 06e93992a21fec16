import AgentHarness.Library.Json

/-!
# Agent events

The stable event shape the service exposes. The creation stamp is a clock reading no decision
looks at, so events are modelled up to it.
-/

namespace AgentHarness.Events

open AgentHarness.Library

set_option autoImplicit false

structure AgentEvent where
  type : String
  conversationId : String
  data : List (String × Json) := []
  deriving DecidableEq, Repr

end AgentHarness.Events
