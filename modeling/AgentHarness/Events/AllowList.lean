import AgentHarness.Events.CodexEventMapper

/-!
# The allow-list of the mapper

What an event may tell about a payload, and that it tells nothing else: the event is a function of
the allow-listed parts, so two notifications that agree on them cannot be told apart.
-/

namespace AgentHarness.Events

open AgentHarness.Library

set_option autoImplicit false

namespace CodexEventMapper

/-- The parts of an item that only the call of an MCP tool shows. -/
structure ToolParts where
  server : Option Json
  tool : Option Json
  status : Option Json
  deriving DecidableEq, Repr

/-- Of an error of a turn only its presence is allowed. -/
inductive AllowListed where
  | nothing
  | delta (value : Option Json)
  | turn (status durationMs : Option Json) (failed : Bool)
  | item (id type : Option Json) (call : Option ToolParts)
  deriving DecidableEq, Repr

def isMcpToolCall (type : Option Json) : Bool := type.any (· ∈ mcpToolTypes)

def allowListedTurn (turn : List (String × Json)) : AllowListed :=
  .turn (Json.lookup "status" turn) (Json.lookup "durationMs" turn)
    ((Json.lookup "error" turn).any Json.truthy)

def allowListedItem (item : List (String × Json)) : AllowListed :=
  .item (Json.lookup "id" item) (Json.lookup "type" item)
    (if isMcpToolCall (Json.lookup "type" item) then
      some ⟨Json.lookup "server" item, Json.lookup "tool" item, Json.lookup "status" item⟩
    else none)

def allowListed (notification : Notification) : AllowListed :=
  let params := toDict notification.payload
  if notification.method = some "item/agentMessage/delta" then .delta (Json.lookup "delta" params)
  else if notification.method = some "turn/completed" then
    allowListedTurn (toDictValue (Json.lookup "turn" params))
  else if notification.method = some "item/started" ∨ notification.method = some "item/completed" then
    allowListedItem (toDictValue (Json.lookup "item" params))
  else .nothing

/-! ## Events from the allow-listed parts -/

def kept (key : String) (value : Option Json) : List (String × Json) :=
  match value with
  | none | some .null => []
  | some value => [(key, value)]

def turnData (status durationMs : Option Json) (failed : Bool) : List (String × Json) :=
  kept "status" status ++ kept "durationMs" durationMs ++
    if failed then [("error", .obj [("code", .str "TURN_FAILED")])] else []

def itemEvent (method conversationId : String) (id type : Option Json) (call : Option ToolParts) :
    Except MapFault AgentEvent :=
  let shared := [("item_id", id.getD .null), ("item_type", type.getD (.str "unknown"))]
  if !hashable (type.getD (.str "unknown")) then .error .unhashableItemType
  else match call with
    | none => .ok {
        type := if method = "item/started" then "item.started" else "item.completed"
        conversationId := conversationId
        data := shared }
    | some parts => .ok {
        type := if method = "item/started" then "tool.started" else "tool.completed"
        conversationId := conversationId
        data := shared ++ [("server", parts.server.getD .null),
          ("tool_name", parts.tool.getD .null), ("status", parts.status.getD .null)] }

/-- The outcome of the mapper for a method and the allow-listed parts. -/
def present (method : Option String) (parts : AllowListed) (conversationId : String) :
    Except MapFault (Option AgentEvent) :=
  match method, parts with
  | some _, .delta value =>
      .ok (some ⟨"message.delta", conversationId, [("delta", value.getD (.str ""))]⟩)
  | some _, .turn status durationMs failed =>
      .ok (some ⟨"turn.completed", conversationId, turnData status durationMs failed⟩)
  | some method, .item id type call => (itemEvent method conversationId id type call).map some
  | some method, .nothing =>
      if method = "turn/started" then .ok (some ⟨"turn.started", conversationId, []⟩) else .ok none
  | none, _ => .ok none

theorem pick_eq (source : List (String × Json)) (keys : List String) :
    pick source keys = keys.flatMap fun key => kept key (Json.lookup key source) := by
  induction keys with
  | nil => rfl
  | cons key keys ih =>
      rw [List.flatMap_cons, ← ih, pick, List.filterMap_cons, ← pick]
      cases Json.lookup key source with
      | none => rfl
      | some value => cases value <;> rfl

theorem turn_data_eq (params : List (String × Json)) :
    turnCompletedData params =
      let turn := toDictValue (Json.lookup "turn" params)
      turnData (Json.lookup "status" turn) (Json.lookup "durationMs" turn)
        ((Json.lookup "error" turn).any Json.truthy) := by
  simp only [turnCompletedData]
  generalize toDictValue (Json.lookup "turn" params) = turn
  have picked := pick_eq turn ["status", "durationMs"]
  simp only [List.flatMap_cons, List.flatMap_nil, List.append_nil] at picked
  have failed : ((Json.lookup "error" turn).getD .null).truthy =
      (Json.lookup "error" turn).any Json.truthy := by
    cases Json.lookup "error" turn <;> rfl
  rw [picked, failed, turnData]
  split <;> simp

theorem map_item_eq (method conversationId : String) (params : List (String × Json)) :
    mapItem method conversationId params =
      let item := toDictValue (Json.lookup "item" params)
      itemEvent method conversationId (Json.lookup "id" item) (Json.lookup "type" item)
        (if isMcpToolCall (Json.lookup "type" item) then
          some ⟨Json.lookup "server" item, Json.lookup "tool" item, Json.lookup "status" item⟩
        else none) := by
  simp only [mapItem]
  generalize toDictValue (Json.lookup "item" params) = item
  have isCall : (Json.lookup "type" item).getD (.str "unknown") ∈ mcpToolTypes ↔
      isMcpToolCall (Json.lookup "type" item) = true := by
    cases Json.lookup "type" item with
    | none => exact iff_of_false (by decide) (by decide)
    | some type => simp [isMcpToolCall]
  unfold itemEvent
  split
  · rfl
  · by_cases called : isMcpToolCall (Json.lookup "type" item) = true
    · rw [if_pos (isCall.mpr called), if_pos called]
    · rw [if_neg (fun isTool => called (isCall.mp isTool)), if_neg called]

/-- The mapper reads nothing of a payload but the allow-listed parts. -/
theorem map_eq_present (notification : Notification) (conversationId : String) :
    map notification conversationId =
      present notification.method (allowListed notification) conversationId := by
  obtain ⟨method, payload⟩ := notification
  cases method with
  | none => rfl
  | some method =>
      by_cases isDelta : method = "item/agentMessage/delta"
      · subst isDelta
        rfl
      by_cases isCompleted : method = "turn/completed"
      · subst isCompleted
        have data := turn_data_eq (toDict payload)
        simp only [map, supportedMethods, allowListed, allowListedTurn, present, data]
        rfl
      by_cases isItem : method = "item/started" ∨ method = "item/completed"
      · have item := map_item_eq method conversationId (toDict payload)
        have known : method ∈ supportedMethods := by
          rcases isItem with rfl | rfl <;> decide
        have notStarted : method ≠ "turn/started" := by
          rcases isItem with rfl | rfl <;> decide
        simp only [map, known, not_true_eq_false, if_false, notStarted, isCompleted, isDelta, item,
          allowListed, Option.some.injEq, isItem, if_true, allowListedItem, present]
      · simp only [not_or] at isItem
        simp only [map, supportedMethods, List.mem_cons, List.not_mem_nil, or_false, isItem.1,
          isItem.2, isCompleted, isDelta, allowListed, present, Option.some.injEq, if_false]
        by_cases isStarted : method = "turn/started" <;> simp [isStarted]

/-- Whatever else the payloads hold, notifications of one method that agree on the allow-listed parts
give the same event, or none. -/
theorem events_leak_nothing (left right : Notification) (conversationId : String)
    (sameMethod : left.method = right.method) (agree : allowListed left = allowListed right) :
    map left conversationId = map right conversationId := by
  rw [map_eq_present, map_eq_present, sameMethod, agree]

namespace Recorded

/-- A tool call as the runtime tells of it. -/
def toolCall (thread argument : String) : Notification where
  method := some "item/started"
  payload := .model [("threadId", .str thread), ("item", .obj [("id", .str "item-1"),
    ("type", .str "mcpToolCall"), ("server", .str "order"), ("tool", .str "cancel_order"),
    ("arguments", .obj [("orderId", .str argument)]), ("status", .str "inProgress")])]

end Recorded

theorem events_leak_nothing_tool_call :
    Recorded.toolCall "thread-1" "o-1" ≠ Recorded.toolCall "thread-2" "o-2" ∧
      map (Recorded.toolCall "thread-1" "o-1") "c-1" =
        map (Recorded.toolCall "thread-2" "o-2") "c-1" :=
  ⟨by decide, events_leak_nothing _ _ "c-1" rfl (by decide)⟩

end CodexEventMapper

end AgentHarness.Events
