import AgentHarness.Evaluation.CompleteStreams
import AgentHarness.Events.AllowList
import AgentHarness.Events.EventStream
import AgentHarness.Library.JsonReadBack
import AgentHarness.Runtime.StreamTurn

/-!
# What a turn tells an observer

What the runtime says with one notification, stated on the notification itself, and what
`AgentObservation.consume` takes from the record the mapper, the endpoint and the line reader make
of it. The two agree: a record is taken exactly when its event says something, and adds just that.
-/

namespace AgentHarness.Evaluation

open AgentHarness.Library AgentHarness.Events AgentHarness.Events.CodexEventMapper
open AgentHarness.Library.PythonJson (CodePoints codePoints Limits Value)
open AgentHarness.Runtime.CodexRuntime (mapped)

set_option autoImplicit false

inductive News where
  | nothing
  | text (delta : String)
  | tool (name : String)
  | ended
  deriving DecidableEq, Repr

namespace News

def text? : News → CodePoints
  | text delta => codePoints delta
  | _ => []

def tool? : News → Option CodePoints
  | tool name => some (codePoints name)
  | _ => none

def ofDelta : Option Json → Option News
  | none => some (text "")
  | some (.str delta) => some (text delta)
  | some _ => none

def ofTool : Option Json → Option News
  | some (.str name) => if name = "" then none else some (tool name)
  | _ => none

end News

/-- What the runtime says, or `none` where it makes no sense: a text that is no text, a tool without
a name, a turn that has not come to a good end. -/
def newsOf (notification : Notification) : Option News :=
  match allowListed notification with
  | .nothing => some .nothing
  | .delta value => News.ofDelta value
  | .turn status _ failed =>
      if status = some (.str "completed") ∧ failed = false then some .ended else none
  | .item _ type call =>
      if !hashable (type.getD (.str "unknown")) then none
      else match call with
        | some parts =>
            if notification.method = some "item/started" then News.ofTool parts.tool
            else some .nothing
        | none => some .nothing

/-- What the observer takes from an event. -/
def newsOfEvent (event : AgentEvent) : Option News :=
  if event.type = "error" then none
  else if event.type = "message.delta" then
    match Json.lookup "delta" event.data with
    | some (.str delta) => some (.text delta)
    | _ => none
  else if event.type = "tool.started" then News.ofTool (Json.lookup "tool_name" event.data)
  else if event.type = "turn.completed" then
    if Json.lookup "status" event.data = some (.str "completed") ∧
        ((Json.lookup "error" event.data).map Json.decoded).any Value.truthy = false then
      some .ended
    else none
  else some .nothing

theorem ended_iff_completed {event : AgentEvent} {news : News}
    (told : newsOfEvent event = some news) : news = .ended ↔ event.type = "turn.completed" := by
  unfold newsOfEvent at told
  split at told
  · cases told
  · split at told
    · rename_i isDelta
      split at told
      · cases told
        simp [isDelta]
      · cases told
    · split at told
      · rename_i isTool
        unfold News.ofTool at told
        split at told
        · split at told
          · cases told
          · cases told
            simp [isTool]
        · cases told
      · split at told
        · rename_i isEnd
          split at told
          · cases told
            simp [isEnd]
          · cases told
        · rename_i notEnd
          cases told
          simp [notEnd]

/-! ## The mapper -/

section Mapper

variable {conversationId : String} {notification : Notification} {event : AgentEvent}

theorem mapped_eq : mapped conversationId notification =
    (present notification.method (allowListed notification) conversationId).toOption.join := by
  rw [← map_eq_present, mapped]
  cases map notification conversationId <;> rfl

theorem lookup_status_iff (status durationMs : Option Json) (failed : Bool) (text : String) :
    Json.lookup "status" (turnData status durationMs failed) = some (.str text) ↔
      status = some (.str text) := by
  have noDuration : Json.lookup "status" (kept "durationMs" durationMs) = none := by
    unfold kept
    split <;> rfl
  have noError : Json.lookup "status"
      (if failed then [("error", Json.obj [("code", .str "TURN_FAILED")])] else []) = none := by
    cases failed <;> rfl
  rw [turnData, Json.lookup_append, Json.lookup_append, noError, noDuration, Option.none_or,
    Option.none_or]
  unfold kept
  split
  · simp [Json.lookup]
  · simp [Json.lookup]
  · simp [Json.lookup]

theorem lookup_error (status durationMs : Option Json) (failed : Bool) :
    ((Json.lookup "error" (turnData status durationMs failed)).map Json.decoded).any Value.truthy =
      failed := by
  have noPart : ∀ key value, key ≠ "error" → Json.lookup "error" (kept key value) = none := by
    intro key value other
    unfold kept
    split
    · rfl
    · rfl
    · simp [Json.lookup, other]
  rw [turnData, Json.lookup_append, Json.lookup_append, noPart "durationMs" _ (by decide),
    noPart "status" _ (by decide)]
  cases failed <;> rfl

/-- An event says what its notification says. -/
theorem news_of_mapped (maps : mapped conversationId notification = some event) :
    newsOfEvent event = newsOf notification := by
  rw [mapped_eq] at maps
  unfold newsOf
  cases named : notification.method with
  | none =>
      rw [named] at maps
      cases maps
  | some method =>
      rw [named] at maps
      cases parts : allowListed notification with
      | nothing =>
          rw [parts] at maps
          simp only [present] at maps
          split at maps
          · cases maps
            rfl
          · cases maps
      | delta value =>
          rw [parts] at maps
          cases maps
          cases value with
          | none => rfl
          | some value => cases value <;> rfl
      | turn status durationMs failed =>
          rw [parts] at maps
          cases maps
          simp only [newsOfEvent, lookup_status_iff, lookup_error]
          rfl
      | item id type call =>
          rw [parts] at maps
          simp only [present, itemEvent] at maps
          cases readable : hashable (type.getD (.str "unknown")) with
          | false => simp [readable, Except.map, Except.toOption] at maps
          | true =>
              cases call with
              | none =>
                  simp only [readable, Bool.not_true, Bool.false_eq_true, if_false, Except.map,
                    Except.toOption, Option.join_some, Option.some.injEq] at maps
                  rw [← maps]
                  by_cases starts : method = "item/started" <;> simp [newsOfEvent, starts, readable]
              | some call =>
                  simp only [readable, Bool.not_true, Bool.false_eq_true, if_false, Except.map,
                    Except.toOption, Option.join_some, Option.some.injEq] at maps
                  rw [← maps]
                  by_cases starts : method = "item/started"
                  · have named : Json.lookup "tool_name"
                        [("item_id", id.getD .null), ("item_type", type.getD (.str "unknown")),
                          ("server", call.server.getD .null), ("tool_name", call.tool.getD .null),
                          ("status", call.status.getD .null)] = some (call.tool.getD .null) := rfl
                    have same : News.ofTool (some (call.tool.getD .null)) =
                        News.ofTool call.tool := by
                      cases call.tool <;> rfl
                    simp [newsOfEvent, starts, readable, named, same]
                  · simp [newsOfEvent, starts, readable]

/-- A notification that is dropped says nothing. -/
theorem news_of_dropped (readsAt : readable notification = true)
    (maps : mapped conversationId notification = none) : newsOf notification = some .nothing := by
  have unsupported := (Runtime.CodexRuntime.mapped_eq_none_iff readsAt).mp maps
  have silent : allowListed notification = .nothing := by
    unfold allowListed
    have other : ∀ method ∈ supportedMethods, notification.method ≠ some method := by
      intro method known named
      simp [supported, named, known] at unsupported
    dsimp only
    rw [if_neg (other _ (by decide)), if_neg (other _ (by decide)), if_neg]
    rintro (started | completed)
    · exact other _ (by decide) started
    · exact other _ (by decide) completed
  rw [newsOf, silent]

/-- What makes sense can be mapped. -/
theorem readable_of_news {news : News} (told : newsOf notification = some news) :
    readable notification = true := by
  rw [← map_readable notification "", map_eq_present]
  unfold newsOf at told
  cases named : notification.method with
  | none => rfl
  | some method =>
      cases parts : allowListed notification with
      | nothing =>
          simp only [present]
          split <;> rfl
      | delta value => rfl
      | turn status durationMs failed => rfl
      | item id type call =>
          rw [parts] at told
          cases hashes : hashable (type.getD (.str "unknown")) with
          | false => simp [hashes] at told
          | true => cases call <;> simp [present, itemEvent, hashes, Except.map, Except.isOk,
              Except.toBool]

/-- The runtime's word that the turn has come to a good end is its completion. -/
theorem completes_of_ended (told : newsOf notification = some .ended) :
    completes notification = true := by
  unfold newsOf at told
  cases parts : allowListed notification with
  | nothing => simp [parts] at told
  | delta value =>
      rw [parts] at told
      cases value with
      | none => cases told
      | some value => cases value <;> cases told
  | turn status durationMs failed =>
      unfold allowListed at parts
      dsimp only at parts
      split at parts
      · cases parts
      · split at parts
        · rename_i isCompleted
          simp [completes, isCompleted]
        · split at parts
          · cases parts
          · cases parts
  | item id type call =>
      rw [parts] at told
      dsimp only at told
      split at told
      · cases told
      · split at told
        · split at told
          · rename_i call _
            unfold News.ofTool at told
            split at told
            · split at told
              · cases told
              · cases told
            · cases told
          · cases told
        · cases told

end Mapper

/-! ## The observer -/

section Observer

variable {Stamp : Type} (isoformat : Stamp → String)

/-- An event with the stamp of its creation, as the endpoint sends it. -/
def stamped (sent : AgentEvent × Stamp) : StampedEvent Stamp :=
  ⟨sent.1.type, sent.1.conversationId, .obj sent.1.data, sent.2⟩

/-- The record the line reader makes of it. -/
def recordOf (sent : AgentEvent × Stamp) : EventRecord :=
  ⟨sent.1.type, (stamped sent).payload isoformat⟩

/-- The observer's decoder has room for the event. -/
def Roomy (limits : Limits) (sent : AgentEvent × Stamp) : Prop :=
  ((stamped sent).toDict isoformat).fits limits limits.depth = true

variable {isoformat} {limits : Limits} {conversationId : String} {sent : AgentEvent × Stamp}
  {data : List (CodePoints × Value)}

theorem default_blank : PythonJson.OnlyBlanks .default := by
  constructor
  · rfl
  · rfl

theorem get_written (key : String) (entries : List (String × Json)) (text : CodePoints) :
    Value.get key (Json.decodedEntries entries) = some (.str text) ↔
      ∃ written, Json.lookup key entries = some (.str written) ∧ text = codePoints written := by
  rw [Json.get_decoded, Option.map_eq_some_iff]
  constructor
  · rintro ⟨value, found, same⟩
    obtain ⟨written, rfl, points⟩ := Json.decoded_str_iff.mp same
    exact ⟨written, found, points⟩
  · rintro ⟨written, found, points⟩
    exact ⟨.str written, found, Json.decoded_str_iff.mpr ⟨written, rfl, points⟩⟩

/-- The data of a valid record is that of the event. -/
theorem valid_record_data
    (valid : ValidRecord limits (codePoints conversationId) (recordOf isoformat sent) data) :
    data = Json.decodedEntries sent.1.data := by
  obtain ⟨payload, loaded, isData, -, -⟩ := valid.payload
  have written := PythonJson.loads_dumps_only limits default_blank loaded
  simp only [StampedEvent.toDict, Json.decoded, Value.dict.injEq] at written
  rw [written, Json.get_decoded] at isData
  simp only [stamped, Json.lookup, Option.map_eq_some_iff] at isData
  obtain ⟨value, found, same⟩ := isData
  simp at found
  rw [← found] at same
  simpa [Json.decoded] using same.symm

theorem news_of_record
    (valid : ValidRecord limits (codePoints conversationId) (recordOf isoformat sent) data)
    (complete : sent.1.type = "turn.completed" → Completes (recordOf isoformat sent) data) :
    ∃ news, newsOfEvent sent.1 = some news ∧
      deltaOf (recordOf isoformat sent, data) = news.text? ∧
      toolOf (recordOf isoformat sent, data) = news.tool? := by
  have isData := valid_record_data valid
  have noError : sent.1.type ≠ "error" := valid.noError
  by_cases isDelta : sent.1.type = "message.delta"
  · have other : sent.1.type ≠ "tool.started" := by simp [isDelta]
    obtain ⟨delta, found⟩ := valid.delta isDelta
    have written := found
    rw [isData, get_written] at written
    obtain ⟨text, isText, rfl⟩ := written
    refine ⟨.text text, ?_, delta_of_delta isDelta found, tool_of_other other⟩
    simp [newsOfEvent, isDelta, isText]
  by_cases isTool : sent.1.type = "tool.started"
  · obtain ⟨tool, found, nonempty⟩ := valid.tool isTool
    have written := found
    rw [isData, get_written] at written
    obtain ⟨name, isName, rfl⟩ := written
    have named : name ≠ "" := by
      rintro rfl
      exact nonempty rfl
    refine ⟨.tool name, ?_, delta_of_other isDelta, tool_of_tool isTool found⟩
    simp [newsOfEvent, isTool, isName, News.ofTool, named]
  by_cases isEnd : sent.1.type = "turn.completed"
  · have completes := complete isEnd
    have status := completes.status
    have quiet := completes.noError
    rw [isData, get_written] at status
    rw [isData, Json.get_decoded] at quiet
    obtain ⟨written, isStatus, same⟩ := status
    rw [Json.code_points_injective same.symm] at isStatus
    refine ⟨.ended, ?_, delta_of_other isDelta, tool_of_other isTool⟩
    simp [newsOfEvent, isEnd, isStatus, quiet]
  · refine ⟨.nothing, ?_, delta_of_other isDelta, tool_of_other isTool⟩
    simp [newsOfEvent, noError, isDelta, isTool, isEnd]

/-- With room for it, an event that says something is a valid record. -/
theorem record_of_news {news : News} (roomy : Roomy isoformat limits sent)
    (conversation : sent.1.conversationId = conversationId)
    (told : newsOfEvent sent.1 = some news) :
    ValidRecord limits (codePoints conversationId) (recordOf isoformat sent)
        (Json.decodedEntries sent.1.data) ∧
      (sent.1.type = "turn.completed" →
        Completes (recordOf isoformat sent) (Json.decodedEntries sent.1.data)) := by
  have loaded := PythonJson.loads_dumps limits default_blank roomy
  have noError : sent.1.type ≠ "error" := by
    intro isError
    simp [newsOfEvent, isError] at told
  refine ⟨⟨⟨_, loaded, ?_, ?_, ?_⟩, noError, ?_, ?_⟩, ?_⟩
  · rw [Json.get_decoded]
    rfl
  · rw [Json.get_decoded, ← conversation]
    rfl
  · rw [Json.get_decoded]
    rfl
  · intro isDelta
    have here : sent.1.type = "message.delta" := isDelta
    have isText : ∃ text, Json.lookup "delta" sent.1.data = some (.str text) := by
      simp only [newsOfEvent, here] at told
      cases found : Json.lookup "delta" sent.1.data with
      | none => simp [found] at told
      | some value =>
          cases value with
          | str text => exact ⟨text, rfl⟩
          | null | bool _ | int _ | float _ | arr _ | obj _ => simp [found] at told
    obtain ⟨text, found⟩ := isText
    exact ⟨codePoints text, (get_written _ _ _).mpr ⟨text, found, rfl⟩⟩
  · intro isTool
    have here : sent.1.type = "tool.started" := isTool
    have isName : ∃ name, Json.lookup "tool_name" sent.1.data = some (.str name) ∧ name ≠ "" := by
      simp only [newsOfEvent, here, News.ofTool] at told
      cases found : Json.lookup "tool_name" sent.1.data with
      | none => simp [found] at told
      | some value =>
          cases value with
          | str name =>
              refine ⟨name, rfl, ?_⟩
              rintro rfl
              simp [found] at told
          | null | bool _ | int _ | float _ | arr _ | obj _ => simp [found] at told
    obtain ⟨name, found, nonempty⟩ := isName
    refine ⟨codePoints name, (get_written _ _ _).mpr ⟨name, found, rfl⟩, ?_⟩
    intro empty
    exact nonempty (Json.code_points_injective empty)
  · intro isEnd
    have here : sent.1.type = "turn.completed" := isEnd
    have checked : Json.lookup "status" sent.1.data = some (.str "completed") ∧
        ((Json.lookup "error" sent.1.data).map Json.decoded).any Value.truthy = false := by
      by_contra unchecked
      simp [newsOfEvent, here, unchecked] at told
    exact ⟨isEnd, (get_written _ _ _).mpr ⟨"completed", checked.1, rfl⟩,
      by rw [Json.get_decoded]; exact checked.2⟩

end Observer

end AgentHarness.Evaluation
