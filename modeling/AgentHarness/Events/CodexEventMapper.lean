import AgentHarness.Events.Models

/-!
# The notification mapper

`CodexEventMapper.map` turns one SDK notification into a stable event, or drops it. Payloads are
read through `_to_dict`; a model is represented by the mapping its JSON dump gives. The set test
on the item type hashes that value, so a list or a mapping there raises.
-/

namespace AgentHarness.Events

open AgentHarness.Library

set_option autoImplicit false

inductive Payload where
  | none
  | dict (entries : List (String × Json))
  | model (dump : List (String × Json))
  | other
  deriving DecidableEq, Repr

structure Notification where
  method : Option String
  payload : Payload := .none
  deriving DecidableEq, Repr

inductive MapFault where
  | unhashableItemType
  deriving DecidableEq, Repr

namespace CodexEventMapper

def supportedMethods : List String :=
  ["turn/started", "turn/completed", "item/started", "item/completed",
    "item/agentMessage/delta"]

def toDict : Payload → List (String × Json)
  | .none => []
  | .dict entries => entries
  | .model dump => dump
  | .other => []

/-- `_to_dict` of a value inside a decoded mapping. -/
def toDictValue : Option Json → List (String × Json)
  | some (.obj entries) => entries
  | _ => []

def pick (source : List (String × Json)) (keys : List String) : List (String × Json) :=
  keys.filterMap fun key =>
    match Json.lookup key source with
    | none | some .null => none
    | some value => some (key, value)

def hashable : Json → Bool
  | .arr _ | .obj _ => false
  | _ => true

def turnCompletedData (params : List (String × Json)) : List (String × Json) :=
  let turn := toDictValue (Json.lookup "turn" params)
  let data := pick turn ["status", "durationMs"]
  if ((Json.lookup "error" turn).getD .null).truthy then
    data ++ [("error", .obj [("code", .str "TURN_FAILED")])]
  else data

def mcpToolTypes : List Json := [.str "mcpToolCall", .str "mcp_tool_call"]

def mapItem (method conversationId : String) (params : List (String × Json)) :
    Except MapFault AgentEvent :=
  let item := toDictValue (Json.lookup "item" params)
  let itemType := (Json.lookup "type" item).getD (.str "unknown")
  let data := [("item_id", (Json.lookup "id" item).getD .null), ("item_type", itemType)]
  if !hashable itemType then .error .unhashableItemType
  else if itemType ∈ mcpToolTypes then
    .ok {
      type := if method = "item/started" then "tool.started" else "tool.completed"
      conversationId := conversationId
      data := data ++
        [("server", (Json.lookup "server" item).getD .null),
          ("tool_name", (Json.lookup "tool" item).getD .null),
          ("status", (Json.lookup "status" item).getD .null)] }
  else
    .ok {
      type := if method = "item/started" then "item.started" else "item.completed"
      conversationId := conversationId
      data := data }

def map (notification : Notification) (conversationId : String) :
    Except MapFault (Option AgentEvent) :=
  match notification.method with
  | none => .ok none
  | some method =>
      if method ∉ supportedMethods then .ok none
      else
        let params := toDict notification.payload
        if method = "turn/started" then
          .ok (some { type := "turn.started", conversationId := conversationId })
        else if method = "turn/completed" then
          .ok (some {
            type := "turn.completed"
            conversationId := conversationId
            data := turnCompletedData params })
        else if method = "item/agentMessage/delta" then
          .ok (some {
            type := "message.delta"
            conversationId := conversationId
            data := [("delta", (Json.lookup "delta" params).getD (.str ""))] })
        else (mapItem method conversationId params).map some

def supported (notification : Notification) : Bool :=
  notification.method.any (· ∈ supportedMethods)

/-- The notification the stream counts as the end of the turn. -/
def completes (notification : Notification) : Bool :=
  notification.method = some "turn/completed"

/-- Mapping this notification does not raise. -/
def readable (notification : Notification) : Bool :=
  (map notification "").isOk

theorem map_item_readable (method conversationId : String) (params : List (String × Json)) :
    (mapItem method conversationId params).isOk = (mapItem method "" params).isOk := by
  simp only [mapItem]
  split_ifs <;> rfl

theorem map_readable (notification : Notification) (conversationId : String) :
    (map notification conversationId).isOk = readable notification := by
  unfold readable map
  split
  · rfl
  · rename_i method _
    split_ifs <;> try rfl
    have same := map_item_readable method conversationId (toDict notification.payload)
    cases left : mapItem method conversationId (toDict notification.payload) <;>
      cases right : mapItem method "" (toDict notification.payload) <;>
      simp_all [Except.map, Except.isOk, Except.toBool]

theorem map_item_event {method conversationId : String} {params : List (String × Json)}
    {event : AgentEvent} (mapped : mapItem method conversationId params = .ok event) :
    event.conversationId = conversationId ∧
      event.type ∈ ["item.started", "item.completed", "tool.started", "tool.completed"] := by
  simp only [mapItem] at mapped
  split_ifs at mapped <;> cases mapped <;> simp

/-- What one call of the mapper can answer. -/
inductive Mapped (notification : Notification) (conversationId : String) :
    Except MapFault (Option AgentEvent) → Prop where
  | dropped (unsupported : supported notification = false)
      (quiet : completes notification = false) : Mapped notification conversationId (.ok none)
  | event (mapped : AgentEvent) (isSupported : supported notification = true)
      (conversation : mapped.conversationId = conversationId)
      (notError : mapped.type ≠ "error")
      (terminal : mapped.type = "turn.completed" ↔ completes notification = true) :
      Mapped notification conversationId (.ok (some mapped))
  | raised (fault : MapFault) (quiet : completes notification = false) :
      Mapped notification conversationId (.error fault)

theorem map_cases (notification : Notification) (conversationId : String) :
    Mapped notification conversationId (map notification conversationId) := by
  cases named : notification.method with
  | none =>
      simp only [map, named]
      exact .dropped (by simp [supported, named]) (by simp [completes, named])
  | some method =>
      have completes_eq : completes notification = decide (method = "turn/completed") := by
        simp [completes, named]
      by_cases known : method ∈ supportedMethods
      · have isSupported : supported notification = true := by simp [supported, named, known]
        simp only [map, named, known, not_true_eq_false, if_false]
        split_ifs with started completed delta
        · exact .event _ isSupported rfl (by simp) (by simp [completes_eq, started])
        · exact .event _ isSupported rfl (by simp) (by simp [completes_eq, completed])
        · exact .event _ isSupported rfl (by simp) (by simp [completes_eq, completed])
        · have quiet : completes notification = false := by simp [completes_eq, completed]
          cases item : mapItem method conversationId (toDict notification.payload) with
          | error fault => exact .raised fault quiet
          | ok event =>
              obtain ⟨conversation, itemType⟩ := map_item_event item
              refine .event event isSupported conversation ?_ ?_
              · intro isError
                simp [isError] at itemType
              · rw [quiet]
                refine iff_of_false ?_ (by simp)
                intro isCompleted
                simp [isCompleted] at itemType
      · have other : method ≠ "turn/completed" := by
          rintro rfl
          exact known (by decide)
        simp only [map, named, known, not_false_eq_true, if_true]
        exact .dropped (by simp [supported, named, known]) (by simp [completes_eq, other])

end CodexEventMapper

end AgentHarness.Events
