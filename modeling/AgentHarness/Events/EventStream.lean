import AgentHarness.Library.JsonText
import AgentHarness.Library.Utf8

/-!
# The event stream

The text the streaming endpoint sends for its events. Here an event keeps its creation stamp, which
is written in the form its `isoformat` gives.
-/

namespace AgentHarness.Events

open AgentHarness.Library

set_option autoImplicit false

/-- An `AgentEvent` with all four fields. -/
structure StampedEvent (Stamp : Type) where
  type : String
  conversationId : String
  data : Json
  createdAt : Stamp

namespace StampedEvent

variable {Stamp : Type} (isoformat : Stamp → String)

def toDict (event : StampedEvent Stamp) : Json :=
  .obj [("type", .str event.type), ("conversation_id", .str event.conversationId),
    ("data", event.data), ("created_at", .str (isoformat event.createdAt))]

def payload (event : StampedEvent Stamp) : String :=
  JsonText.dumps .default (event.toDict isoformat)

def frame (event : StampedEvent Stamp) : String :=
  "event: " ++ event.type ++ "\ndata: " ++ event.payload isoformat ++ "\n\n"

/-- The bytes of the response. -/
def eventStream (events : List (StampedEvent Stamp)) : List UInt8 :=
  Utf8.encode (String.join (events.map (frame isoformat)))

end StampedEvent

end AgentHarness.Events
