import AgentHarness.Evaluation.EventRecords
import AgentHarness.Library.PythonJson

/-!
# Observing a turn

`AgentObservation.consume` and the loop of `_stream_turn` around it. The loop stops at the first
error and at the record that completes the turn.
-/

namespace AgentHarness.Evaluation

open AgentHarness.Library
open AgentHarness.Library.PythonJson (CodePoints codePoints Limits Value)

set_option autoImplicit false

/-- How `_stream_turn` can fail. -/
inductive StreamFault where
  | evaluation (error : StreamError)
  | httpStatusError
  | recursionError
  deriving DecidableEq, Repr

structure AgentObservation where
  conversationId : CodePoints
  responseText : CodePoints
  toolCalls : List CodePoints
  events : List String
  completed : Bool
  deriving DecidableEq, Repr

namespace AgentObservation

def new (conversationId : CodePoints) : AgentObservation := ⟨conversationId, [], [], [], false⟩

/-- The value of a record as `json.loads` reads it, if it is a dictionary whose `data` is one. -/
def payloadOf (limits : Limits) (payloadText : String) :
    Except StreamFault (List (CodePoints × Value) × List (CodePoints × Value)) :=
  match PythonJson.loads limits payloadText with
  | .valueError => .error (.evaluation .invalidEventJson)
  | .recursionError => .error .recursionError
  | .value (.dict payload) =>
      match Value.get "data" payload with
      | some (.dict data) => .ok (payload, data)
      | _ => .error (.evaluation .invalidEventSchema)
  | .value _ => .error (.evaluation .invalidEventSchema)

/-- What a record adds, by its name. -/
def apply (observation : AgentObservation) (eventName : String)
    (data : List (CodePoints × Value)) : Except StreamFault AgentObservation :=
  let observation := { observation with events := observation.events ++ [eventName] }
  if eventName = "message.delta" then
    match Value.get "delta" data with
    | some (.str delta) =>
        .ok { observation with responseText := observation.responseText ++ delta }
    | _ => .error (.evaluation .invalidMessageDelta)
  else if eventName = "tool.started" then
    match Value.get "tool_name" data with
    | some (.str name) =>
        if name = [] then .error (.evaluation .invalidToolName)
        else .ok { observation with toolCalls := observation.toolCalls ++ [name] }
    | _ => .error (.evaluation .invalidToolName)
  else if eventName = "turn.completed" then
    if !Value.isStr (codePoints "completed") (Value.get "status" data) ||
        (Value.get "error" data).any Value.truthy then
      .error (.evaluation .turnNotSuccessful)
    else .ok { observation with completed := true }
  else .ok observation

def consume (limits : Limits) (observation : AgentObservation) (record : EventRecord) :
    Except StreamFault AgentObservation :=
  if record.eventName = "error" then .error (.evaluation .agentStreamError)
  else if record.payloadText = "" then .error (.evaluation .emptyEvent)
  else match payloadOf limits record.payloadText with
    | .error fault => .error fault
    | .ok (payload, data) =>
        if !Value.isStr observation.conversationId (Value.get "conversation_id" payload) then
          .error (.evaluation .conversationMismatch)
        else if !Value.isStr (codePoints record.eventName) (Value.get "type" payload) then
          .error (.evaluation .eventTypeMismatch)
        else if observation.completed then .error (.evaluation .eventAfterCompletion)
        else observation.apply record.eventName data

end AgentObservation

/-- The loop over the lines, with the error the line reader ends with. -/
def consumeLines (limits : Limits) (ending : Option StreamError) :
    AgentObservation → RecordState → List String → Except StreamFault AgentObservation
  | observation, _, [] =>
      match ending with
      | some error => .error (.evaluation error)
      | none =>
          if observation.completed then .ok observation
          else .error (.evaluation .incompleteStream)
  | observation, state, line :: lines =>
      match (state.readLine line).2 with
      | none => consumeLines limits ending observation (state.readLine line).1 lines
      | some record =>
          match observation.consume limits record with
          | .error fault => .error fault
          | .ok observation =>
              if observation.completed then .ok observation
              else consumeLines limits ending observation (state.readLine line).1 lines

/-- The response to the request of `_stream_turn`. -/
structure StreamResponse where
  statusCode : Nat
  contentType : Option String
  chunks : List Chunk
  deriving DecidableEq, Repr

namespace StreamResponse

def succeeded (response : StreamResponse) : Bool :=
  200 ≤ response.statusCode && response.statusCode < 300

def mediaType (response : StreamResponse) : Option String :=
  (Text.split ';' (response.contentType.getD "")).head?

/-- `_stream_turn`, from the response on. -/
def streamTurn (limits : Limits) (conversationId : CodePoints) (response : StreamResponse) :
    Except StreamFault AgentObservation :=
  if !response.succeeded then .error .httpStatusError
  else if response.mediaType ≠ some "text/event-stream" then
    .error (.evaluation .expectedEventStream)
  else
    let stream := boundedLines response.chunks
    consumeLines limits stream.ending (.new conversationId) .start stream.lines

end StreamResponse

end AgentHarness.Evaluation
