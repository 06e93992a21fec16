import AgentHarness.Evaluation.StreamRoundTrip
import AgentHarness.Evaluation.TurnNews
import AgentHarness.Runtime.OrderedDelivery
import AgentHarness.Services.OpenStream

/-!
# An evaluation sees the turn

From the notifications of the runtime through the mapper, the bounded queue, the event stream, the
chunks of a response and the line reader to the observation of the evaluation target.
-/

namespace AgentHarness.Evaluation

open AgentHarness.Library AgentHarness.Events AgentHarness.Events.CodexEventMapper
open AgentHarness.Library.PythonJson (CodePoints codePoints Limits Value)
open AgentHarness.Runtime AgentHarness.Runtime.CodexRuntime AgentHarness.Services

set_option autoImplicit false

/-! ## Parts of a response -/

section Parts

theorem terminated_lines_part {bytes whole : List UInt8} (part : bytes <+: whole) :
    terminatedLines bytes <+: terminatedLines whole := by
  obtain ⟨rest, rfl⟩ := part
  rw [terminatedLines, terminatedLines, Lines.cut_append]
  exact List.prefix_append _ _

theorem hand_out_part {front lines : List (List UInt8)} (part : front <+: lines) :
    (handOut front).lines <+: (handOut lines).lines := by
  obtain ⟨rest, rfl⟩ := part
  rw [hand_out_append]
  cases handOut front with
  | mk texts ending =>
      cases ending with
      | none => exact List.prefix_append _ _
      | some error => exact List.prefix_rfl

/-- Out of bounds or out of time, the lines that were handed out are the first ones of the body. -/
theorem bounded_lines_part (chunks : List Chunk) (total : Nat) (pending : List UInt8)
    (unmarked : newline ∉ pending) :
    (boundedLinesFrom total pending chunks).lines <+:
      (handOut (terminatedLines (pending ++ body chunks))).lines := by
  induction chunks generalizing total pending with
  | nil => exact List.nil_prefix
  | cons chunk chunks ih =>
      have rest := (Lines.cut_spec newline (pending ++ chunk.bytes)).2.2
      have later := ih (total + chunk.bytes.length)
        (Lines.cut newline (pending ++ chunk.bytes)).2 rest
      have whole : terminatedLines (pending ++ body (chunk :: chunks)) =
          (Lines.cut newline (pending ++ chunk.bytes)).1 ++
            terminatedLines ((Lines.cut newline (pending ++ chunk.bytes)).2 ++ body chunks) := by
        have joined : pending ++ body (chunk :: chunks) =
            pending ++ chunk.bytes ++ body chunks := by
          simp [body]
        rw [joined, terminatedLines, Lines.cut_append]
        rfl
      rw [whole, hand_out_append]
      simp only [boundedLinesFrom]
      split
      · exact List.nil_prefix
      · split
        · exact List.nil_prefix
        · cases handOut (Lines.cut newline (pending ++ chunk.bytes)).1 with
          | mk texts ending =>
              cases ending with
              | none => exact (List.prefix_append_right_inj texts).mpr later
              | some error => exact List.prefix_rfl

theorem dispatched_part {front lines : List String} (part : front <+: lines) (state : RecordState) :
    state.dispatched front <+: state.dispatched lines := by
  induction front generalizing lines state with
  | nil => exact List.nil_prefix
  | cons line front ih =>
      obtain ⟨rest, rfl⟩ := part
      have later := ih (List.prefix_append front rest) (state.readLine line).1
      rw [List.cons_append, RecordState.dispatched, RecordState.dispatched]
      exact (List.prefix_append_right_inj _).mpr later

end Parts

/-! ## The records of a stream -/

section Records

variable {Stamp : Type} {isoformat : Stamp → String}

def eventTypes : List String :=
  ["turn.started", "turn.completed", "message.delta", "item.started", "item.completed",
    "tool.started", "tool.completed", "error"]

theorem framed_of_known {sent : AgentEvent × Stamp} (known : sent.1.type ∈ eventTypes) :
    Framed (stamped sent) := by
  have oneLine : ∀ type ∈ eventTypes, '\n' ∉ type.toList := by decide
  have bare : ∀ type ∈ eventTypes, Text.strip Text.pythonSpace type = type := by decide +kernel
  exact ⟨oneLine _ known, bare _ known⟩

theorem stream_lines (sent : List (AgentEvent × Stamp))
    (known : ∀ event ∈ sent, event.1.type ∈ eventTypes) :
    handOut (terminatedLines (StampedEvent.eventStream isoformat (sent.map stamped))) =
      ⟨(sent.map stamped).flatMap (eventLines isoformat), none⟩ := by
  have framed : ∀ event ∈ sent.map stamped, Framed event := by
    intro event member
    obtain ⟨pair, isSent, rfl⟩ := List.mem_map.mp member
    exact framed_of_known (known pair isSent)
  rw [terminated_lines_stream _ framed]
  apply hand_out_lines
  intro line member
  obtain ⟨event, isEvent, inEvent⟩ := List.mem_flatMap.mp member
  exact event_lines_one_line (framed event isEvent) line inEvent

theorem dispatched_stream (sent : List (AgentEvent × Stamp))
    (known : ∀ event ∈ sent, event.1.type ∈ eventTypes) :
    RecordState.start.dispatched ((sent.map stamped).flatMap (eventLines isoformat)) =
      sent.map (recordOf isoformat) := by
  induction sent with
  | nil => rfl
  | cons event sent ih =>
      have later := ih fun other member => known other (List.mem_cons_of_mem event member)
      have framed := framed_of_known (known event List.mem_cons_self)
      rw [List.map_cons, List.flatMap_cons, dispatched_event framed, later, List.map_cons]
      rfl

/-- The records of any part of the bytes are those of the first events. -/
theorem records_part (sent : List (AgentEvent × Stamp))
    (known : ∀ event ∈ sent, event.1.type ∈ eventTypes) (chunks : List Chunk)
    (received : body chunks <+: StampedEvent.eventStream isoformat (sent.map stamped)) :
    RecordState.start.dispatched (boundedLines chunks).lines <+:
      sent.map (recordOf isoformat) := by
  have lines := (bounded_lines_part chunks 0 [] List.not_mem_nil).trans
    (hand_out_part (terminated_lines_part received))
  rw [stream_lines sent known] at lines
  rw [← dispatched_stream sent known]
  exact dispatched_part lines .start

/-- All bytes within the bounds give all records. -/
theorem records_whole (sent : List (AgentEvent × Stamp))
    (known : ∀ event ∈ sent, event.1.type ∈ eventTypes) {chunks : List Chunk}
    (admitted : Admitted chunks)
    (received : body chunks = StampedEvent.eventStream isoformat (sent.map stamped)) :
    RecordState.start.dispatched (boundedLines chunks).lines = sent.map (recordOf isoformat) := by
  rw [bounded_lines_eq admitted, received, stream_lines sent known, dispatched_stream sent known]

end Records

/-! ## Transcripts -/

/-- The news of a list, where what makes no sense is left out. -/
def answerOfNews (news : List (Option News)) : CodePoints :=
  news.flatMap fun told => (told.getD .nothing).text?

def toolsOfNews (news : List (Option News)) : List CodePoints :=
  news.filterMap fun told => (told.getD .nothing).tool?

/-- What an observer of a whole turn records, stated on what the runtime said. -/
def transcript (conversationId : String) (notifications : List Notification) :
    AgentObservation where
  conversationId := codePoints conversationId
  responseText := answerOfNews (notifications.map newsOf)
  toolCalls := toolsOfNews (notifications.map newsOf)
  events := notifications.filterMap fun notification =>
    (mapped conversationId notification).map AgentEvent.type
  completed := true

def eventTranscript (conversationId : String) (events : List AgentEvent) : AgentObservation where
  conversationId := codePoints conversationId
  responseText := answerOfNews (events.map newsOfEvent)
  toolCalls := toolsOfNews (events.map newsOfEvent)
  events := events.map AgentEvent.type
  completed := true

/-- The runtime has said sensible things only, and then that the turn has come to a good end. -/
structure SuccessfulTurn (before : List Notification) (last : Notification) : Prop where
  sensible : ∀ notification ∈ before, ∃ news, newsOf notification = some news ∧ news ≠ .ended
  ended : newsOf last = some .ended

section Transcripts

variable {conversationId : String}

/-- The events of notifications that can be mapped tell all that these say. -/
theorem event_transcript_eq (notifications : List Notification)
    (reads : ∀ notification ∈ notifications, readable notification = true) :
    eventTranscript conversationId (notifications.filterMap (mapped conversationId)) =
      transcript conversationId notifications := by
  have told : answerOfNews
        ((notifications.filterMap (mapped conversationId)).map newsOfEvent) =
      answerOfNews (notifications.map newsOf) ∧
      toolsOfNews ((notifications.filterMap (mapped conversationId)).map newsOfEvent) =
        toolsOfNews (notifications.map newsOf) := by
    induction notifications with
    | nil => exact ⟨rfl, rfl⟩
    | cons notification notifications ih =>
        obtain ⟨answer, tools⟩ := ih fun other member => reads other (List.mem_cons_of_mem _ member)
        unfold answerOfNews at answer ⊢
        unfold toolsOfNews at tools ⊢
        cases maps : mapped conversationId notification with
        | none =>
            have silent := news_of_dropped (reads notification List.mem_cons_self) maps
            rw [List.filterMap_cons_none maps, List.map_cons, List.flatMap_cons,
              List.filterMap_cons, silent]
            exact ⟨answer, tools⟩
        | some event =>
            rw [List.filterMap_cons_some maps, List.map_cons, List.map_cons, List.flatMap_cons,
              List.flatMap_cons, List.filterMap_cons, List.filterMap_cons, news_of_mapped maps,
              answer, tools]
            exact ⟨rfl, rfl⟩
  unfold eventTranscript transcript
  rw [told.1, told.2, List.map_filterMap]

/-- Notifications that begin with a successful turn make events that do. -/
theorem events_of_turn {before : List Notification} {last : Notification}
    (turn : SuccessfulTurn before last) :
    (∀ notification ∈ before ++ [last], readable notification = true) ∧
      (∀ event ∈ before.filterMap (mapped conversationId), ∃ news,
        newsOfEvent event = some news ∧ news ≠ .ended) ∧
      ∃ event, mapped conversationId last = some event ∧ newsOfEvent event = some .ended := by
  refine ⟨?_, ?_, ?_⟩
  · intro notification member
    rcases List.mem_append.mp member with early | isLast
    · obtain ⟨news, told, -⟩ := turn.sensible notification early
      exact readable_of_news told
    · rw [List.mem_singleton.mp isLast]
      exact readable_of_news turn.ended
  · intro event member
    obtain ⟨notification, isEarly, maps⟩ := List.mem_filterMap.mp member
    rw [news_of_mapped maps]
    exact turn.sensible notification isEarly
  · obtain ⟨-, event, maps⟩ := completes_mapped conversationId (completes_of_ended turn.ended)
    exact ⟨event, maps, (news_of_mapped maps).trans turn.ended⟩

/-- And events that do were made of such notifications. -/
theorem turn_of_events {notifications : List Notification}
    {early : List AgentEvent} {final : AgentEvent}
    (part : early ++ [final] <+:
      (notifications.takeWhile readable).filterMap (mapped conversationId))
    (sensible : ∀ event ∈ early, ∃ news, newsOfEvent event = some news ∧ news ≠ .ended)
    (ended : newsOfEvent final = some .ended) :
    ∃ before last after, notifications = before ++ last :: after ∧ SuccessfulTurn before last ∧
      (before ++ [last]).filterMap (mapped conversationId) = early ++ [final] := by
  obtain ⟨rest, whole⟩ := part
  rw [List.append_assoc, List.singleton_append, eq_comm, List.filterMap_eq_append_iff] at whole
  obtain ⟨front, back, split, isFront, isBack⟩ := whole
  rw [List.filterMap_eq_cons_iff] at isBack
  obtain ⟨skipped, last, after, isAfter, dropped, maps, -⟩ := isBack
  have reads : ∀ notification ∈ front ++ skipped, readable notification = true := by
    intro notification member
    apply List.mem_takeWhile_imp (l := notifications)
    rw [split, isAfter, ← List.append_assoc]
    exact List.mem_append_left _ member
  refine ⟨front ++ skipped, last, after ++ notifications.dropWhile readable, ?_, ⟨?_, ?_⟩, ?_⟩
  · have joined := List.takeWhile_append_dropWhile (p := readable) (l := notifications)
    rw [split, isAfter] at joined
    calc
      notifications = front ++ (skipped ++ last :: after) ++ notifications.dropWhile readable :=
        joined.symm
      _ = front ++ skipped ++ last :: (after ++ notifications.dropWhile readable) := by simp
  · intro notification member
    cases maps : mapped conversationId notification with
    | none =>
        exact ⟨.nothing, news_of_dropped (reads notification member) maps, by simp⟩
    | some event =>
        rw [← news_of_mapped maps]
        apply sensible
        rcases List.mem_append.mp member with inFront | inSkipped
        · rw [← isFront]
          exact List.mem_filterMap.mpr ⟨notification, inFront, maps⟩
        · rw [dropped notification inSkipped] at maps
          cases maps
  · rw [← news_of_mapped maps]
    exact ended
  · have silent : skipped.filterMap (mapped conversationId) = [] :=
      List.filterMap_eq_nil_iff.mpr dropped
    rw [List.filterMap_append, List.filterMap_append, isFront, silent, List.append_nil,
      List.filterMap_cons_some maps]
    rfl

end Transcripts

/-! ## Observations -/

section Observations

variable {Stamp : Type} {isoformat : Stamp → String} {limits : Limits} {conversationId : String}

/-- What was taken before the turn came to its end. -/
theorem events_of_records {earlier : List Event} {sent : List (AgentEvent × Stamp)}
    (same : earlier.map Prod.fst = sent.map (recordOf isoformat))
    (valid : ∀ event ∈ earlier, ValidRecord limits (codePoints conversationId) event.1 event.2 ∧
      event.1.eventName ≠ "turn.completed") :
    (∀ event ∈ sent.map Prod.fst, ∃ news, newsOfEvent event = some news ∧ news ≠ .ended) ∧
      earlier.flatMap deltaOf = answerOfNews ((sent.map Prod.fst).map newsOfEvent) ∧
      earlier.filterMap toolOf = toolsOfNews ((sent.map Prod.fst).map newsOfEvent) ∧
      (earlier.map fun event => event.1.eventName) = (sent.map Prod.fst).map AgentEvent.type := by
  induction earlier generalizing sent with
  | nil =>
      cases sent with
      | nil => simp [answerOfNews, toolsOfNews]
      | cons event sent => cases same
  | cons event earlier ih =>
      cases sent with
      | nil => cases same
      | cons first sent =>
          obtain ⟨record, data⟩ := event
          simp only [List.map_cons, List.cons.injEq] at same
          obtain ⟨rfl, others⟩ := same
          obtain ⟨sensible, answer, tools, names⟩ := ih others fun other member =>
            valid other (List.mem_cons_of_mem _ member)
          obtain ⟨isValid, open'⟩ := valid _ List.mem_cons_self
          obtain ⟨news, told, delta, tool⟩ :=
            news_of_record isValid fun completes => absurd completes open'
          unfold answerOfNews at answer ⊢
          unfold toolsOfNews at tools ⊢
          refine ⟨?_, ?_, ?_, ?_⟩
          · intro other member
            rw [List.map_cons] at member
            rcases List.mem_cons.mp member with rfl | later
            · exact ⟨news, told, fun ended => open' ((ended_iff_completed told).mp ended)⟩
            · exact sensible other later
          · rw [List.flatMap_cons, List.map_cons, List.map_cons, List.flatMap_cons, delta, answer,
              told]
            rfl
          · rw [List.filterMap_cons, List.map_cons, List.map_cons, List.filterMap_cons, tool, tools,
              told]
            rfl
          · rw [List.map_cons, List.map_cons, List.map_cons, names]
            rfl

theorem answer_append (front back : List (Option News)) :
    answerOfNews (front ++ back) = answerOfNews front ++ answerOfNews back :=
  List.flatMap_append

theorem tools_append (front back : List (Option News)) :
    toolsOfNews (front ++ back) = toolsOfNews front ++ toolsOfNews back :=
  List.filterMap_append

/-- A complete turn of records is one of events, and its summary their transcript. -/
theorem complete_turn_events {earlier : List Event} {final : Event} {later : List EventRecord}
    {sent : List (AgentEvent × Stamp)}
    (part : earlier.map Prod.fst ++ final.1 :: later <+: sent.map (recordOf isoformat))
    (turn : CompleteTurn limits (codePoints conversationId) earlier final) :
    ∃ early last, early ++ [last] <+: sent.map Prod.fst ∧
      (∀ event ∈ early, ∃ news, newsOfEvent event = some news ∧ news ≠ .ended) ∧
      newsOfEvent last = some .ended ∧
      summary (codePoints conversationId) (earlier ++ [final]) true =
        eventTranscript conversationId (early ++ [last]) := by
  obtain ⟨rest, whole⟩ := part
  rw [List.append_assoc, List.cons_append, eq_comm, List.map_eq_append_iff] at whole
  obtain ⟨front, back, isSent, isFront, isBack⟩ := whole
  obtain ⟨last, others, rfl, isLast, -⟩ := List.map_eq_cons_iff.mp isBack
  obtain ⟨record, data⟩ := final
  subst isLast
  obtain ⟨sensible, answer, tools, names⟩ := events_of_records isFront.symm turn.valid
  obtain ⟨news, told, delta, tool⟩ := news_of_record turn.finalValid fun _ => turn.completes
  have isEnded : news = .ended := (ended_iff_completed told).mpr turn.completes.name
  subst isEnded
  refine ⟨front.map Prod.fst, last.1, ?_, sensible, told, ?_⟩
  · rw [isSent, List.map_append, List.map_cons]
    exact (List.prefix_append_right_inj _).mpr ⟨others.map Prod.fst, rfl⟩
  · have finalTool : [(recordOf isoformat last, data)].filterMap toolOf = [] :=
      List.filterMap_eq_nil_iff.mpr fun event member => by
        rw [List.mem_singleton.mp member, tool]
        rfl
    unfold summary eventTranscript
    rw [List.map_append, List.map_append, List.map_append, answer_append, tools_append,
      List.flatMap_append, List.filterMap_append, answer, tools, names, List.flatMap_singleton,
      delta, finalTool, List.map_singleton, List.map_singleton, List.map_singleton, told]
    rfl

/-- Events of a successful turn are records of a complete one, where the decoder has room. -/
theorem complete_turn_of_events {early later : List (AgentEvent × Stamp)}
    {last : AgentEvent × Stamp}
    (roomy : ∀ event ∈ early ++ last :: later, Roomy isoformat limits event)
    (conversation : ∀ event ∈ early ++ last :: later, event.1.conversationId = conversationId)
    (sensible : ∀ event ∈ early, ∃ news, newsOfEvent event.1 = some news ∧ news ≠ .ended)
    (ended : newsOfEvent last.1 = some .ended) :
    ∃ earlier final, (early ++ last :: later).map (recordOf isoformat) =
        earlier.map Prod.fst ++ final.1 :: later.map (recordOf isoformat) ∧
      CompleteTurn limits (codePoints conversationId) earlier final := by
  refine ⟨early.map fun event => (recordOf isoformat event, Json.decodedEntries event.1.data),
    (recordOf isoformat last, Json.decodedEntries last.1.data), ?_, ?_, ?_, ?_⟩
  · rw [List.map_append, List.map_cons, List.map_map]
    rfl
  · intro event member
    obtain ⟨pair, isEarly, rfl⟩ := List.mem_map.mp member
    have here : pair ∈ early ++ last :: later := List.mem_append_left _ isEarly
    obtain ⟨news, told, open'⟩ := sensible pair isEarly
    exact ⟨(record_of_news (roomy pair here) (conversation pair here) told).1,
      fun completes => open' ((ended_iff_completed told).mpr completes)⟩
  · have here : last ∈ early ++ last :: later := by simp
    exact (record_of_news (roomy last here) (conversation last here) ended).1
  · have here : last ∈ early ++ last :: later := by simp
    exact (record_of_news (roomy last here) (conversation last here) ended).2
      ((ended_iff_completed ended).mp rfl)

end Observations

/-! ## The whole way -/

/-- The observation is the transcript of a successful turn the runtime has streamed. -/
def Observes (conversationId : String) (script : TurnScript) (observation : AgentObservation) :
    Prop :=
  ∃ notifications ending before last after, script = .streams notifications ending ∧
    notifications = before ++ last :: after ∧ SuccessfulTurn before last ∧
    observation = transcript conversationId (before ++ [last])

/-- Nothing comes between: the turn returns, the consumer keeps up and reads to the end, and the
client gets the whole body in time and has room for every event. -/
structure Undisturbed {Stamp : Type} (isoformat : Stamp → String) (limits : Limits)
    (runtime : CodexRuntime) (conversationId : String) (script : TurnScript)
    (labels : List Stream.Label) (final : Stream) (sent : List (AgentEvent × Stamp))
    (response : StreamResponse) : Prop where
  returns : (runtime.streamTurn conversationId script).2 = none
  schedule : Stream.Schedule (runtime.streamTurn conversationId script).1 none labels
  keepsUp : Stream.KeepsUp (Stream.new conversationId maxEvents) labels
  settled : Stream.step final .resume = none
  served : response.Served
  admitted : Admitted response.chunks
  whole : body response.chunks = StampedEvent.eventStream isoformat (sent.map stamped)
  roomy : ∀ event ∈ sent, Roomy isoformat limits event

section Whole

variable {Stamp : Type} {isoformat : Stamp → String} {limits : Limits} {runtime : CodexRuntime}
  {conversationId : String} {script : TurnScript} {labels : List Stream.Label} {final : Stream}
  {sent : List (AgentEvent × Stamp)} {response : StreamResponse}

theorem stream_turn_events (runtime : CodexRuntime) (conversationId : String)
    (script : TurnScript) :
    (runtime.streamTurn conversationId script).1 = [] ∨
      ∃ notifications ending, script = .streams notifications ending ∧
        (runtime.streamTurn conversationId script).1 =
          (notifications.takeWhile readable).filterMap (mapped conversationId) := by
  unfold streamTurn
  cases script with
  | resumeFails fault =>
      left
      dsimp only
      split <;> rfl
  | turnFails fault =>
      left
      dsimp only
      split <;> rfl
  | streams notifications ending =>
      dsimp only
      split
      · exact .inr ⟨notifications, ending, rfl, stream_loop_events _ _ _ _⟩
      · exact .inl rfl

theorem published_part {events : List AgentEvent} {error : Option String}
    (part : labels.filter Stream.Label.produced <+: Stream.producerScript events error) :
    Stream.published labels <+: events := by
  have kept : Stream.published (labels.filter Stream.Label.produced) = Stream.published labels := by
    unfold Stream.published
    rw [List.filterMap_filter]
    apply List.filterMap_congr
    intro label _
    cases label <;> rfl
  have all : Stream.published (Stream.producerScript events error) = events := by
    have each : (events.map Stream.Label.publish).filterMap Stream.Label.event = events := by
      rw [List.filterMap_map]
      exact List.filterMap_some
    rw [Stream.published, Stream.producerScript, List.filterMap_append, each]
    exact List.append_nil events
  rw [← kept, ← all]
  exact part.filterMap Stream.Label.event

/-- What the consumer has received begins the events of the turn, but for an error at the end. -/
theorem delivered_part
    (part : labels.filter Stream.Label.produced <+:
      produce (runtime.streamTurn conversationId script))
    (reached : Stream.machine.run (Stream.new conversationId maxEvents) labels = some final) :
    ∃ taken ending, final.delivered = taken ++ ending ∧
      taken <+: (runtime.streamTurn conversationId script).1 ∧
      (ending = [] ∨ ∃ code, ending = [EventSubscription.errorEvent conversationId code]) := by
  have first := published_part part
  obtain ⟨later, -, ordered⟩ := Stream.ordered_run
    (Stream.ordered_new (runtime.streamTurn conversationId script).1 maxEvents)
    (.inr ⟨_, rfl⟩) part reached
  rw [List.nil_append] at ordered
  cases ordered.received with
  | reading prefixed _ =>
      refine ⟨final.delivered, [], (List.append_nil _).symm, ?_, .inl rfl⟩
      exact ((List.prefix_append _ _).trans prefixed).trans first
  | failed code taken _ _ prefixed received _ =>
      exact ⟨taken, _, received, prefixed.trans first, .inr ⟨code, rfl⟩⟩

theorem mapped_known {notification : Notification} {event : AgentEvent}
    (maps : mapped conversationId notification = some event) :
    event.type ∈ eventTypes ∧ event.conversationId = conversationId := by
  rw [mapped_eq] at maps
  cases named : notification.method with
  | none =>
      rw [named] at maps
      cases maps
  | some method =>
      rw [named] at maps
      cases parts : allowListed notification with
      | nothing =>
          rw [parts] at maps
          simp only [present] at maps
          split at maps
          · cases maps
            exact ⟨by simp [eventTypes], rfl⟩
          · cases maps
      | delta value =>
          rw [parts] at maps
          cases maps
          exact ⟨by simp [eventTypes], rfl⟩
      | turn status durationMs failed =>
          rw [parts] at maps
          cases maps
          exact ⟨by simp [eventTypes], rfl⟩
      | item id type call =>
          rw [parts] at maps
          simp only [present] at maps
          cases item : itemEvent method conversationId id type call with
          | error fault => simp [item, Except.map, Except.toOption] at maps
          | ok made =>
              simp only [item, Except.map, Except.toOption, Option.join_some,
                Option.some.injEq] at maps
              subst maps
              unfold itemEvent at item
              split at item
              · cases item
              · split at item
                · cases item
                  exact ⟨by dsimp only; split <;> decide, rfl⟩
                · cases item
                  exact ⟨by dsimp only; split <;> decide, rfl⟩

theorem streamed_known {event : AgentEvent}
    (member : event ∈ (runtime.streamTurn conversationId script).1) :
    event.type ∈ eventTypes ∧ event.conversationId = conversationId := by
  rcases stream_turn_events runtime conversationId script with none | ⟨notifications, _, _, all⟩
  · rw [none] at member
    cases member
  · rw [all] at member
    obtain ⟨notification, -, maps⟩ := List.mem_filterMap.mp member
    exact mapped_known maps

theorem delivered_known
    (part : labels.filter Stream.Label.produced <+:
      produce (runtime.streamTurn conversationId script))
    (reached : Stream.machine.run (Stream.new conversationId maxEvents) labels = some final) :
    ∀ event ∈ final.delivered,
      event.type ∈ eventTypes ∧ event.conversationId = conversationId := by
  obtain ⟨taken, ending, whole, prefixed, atEnd⟩ := delivered_part part reached
  intro event member
  rw [whole] at member
  rcases List.mem_append.mp member with inTaken | inEnding
  · exact streamed_known (prefixed.subset inTaken)
  · rcases atEnd with rfl | ⟨code, rfl⟩
    · cases inEnding
    · rw [List.mem_singleton.mp inEnding]
      exact ⟨by simp [eventTypes, EventSubscription.errorEvent], rfl⟩

/-- Events that say something stand before the error, if there is one. -/
theorem part_before_error {events taken ending : List AgentEvent} {last : AgentEvent}
    (part : events ++ [last] <+: taken ++ ending)
    (atEnd : ending = [] ∨ ∃ code, ending = [EventSubscription.errorEvent conversationId code])
    (ended : newsOfEvent last = some .ended) : events ++ [last] <+: taken := by
  rcases atEnd with rfl | ⟨code, rfl⟩
  · rwa [List.append_nil] at part
  · rcases List.prefix_concat_iff.mp part with all | before
    · obtain ⟨-, isError⟩ := List.append_inj' all rfl
      rw [List.singleton_inj.mp isError] at ended
      cases ended
    · exact before

/-- An observation is always the transcript of a turn the runtime has streamed. -/
theorem observes_of_ok {observation : AgentObservation}
    (part : labels.filter Stream.Label.produced <+:
      produce (runtime.streamTurn conversationId script))
    (reached : Stream.machine.run (Stream.new conversationId maxEvents) labels = some final)
    (delivered : sent.map Prod.fst = final.delivered)
    (received : body response.chunks <+:
      StampedEvent.eventStream isoformat (sent.map stamped))
    (accepted : response.streamTurn limits (codePoints conversationId) = .ok observation) :
    Observes conversationId script observation := by
  have known : ∀ event ∈ sent, event.1.type ∈ eventTypes := by
    intro event member
    have inDelivered : event.1 ∈ final.delivered := by
      rw [← delivered]
      exact List.mem_map_of_mem member
    exact (delivered_known part reached event.1 inDelivered).1
  have records := records_part sent known response.chunks received
  have consumed : ∃ ending, ((consumeRecords limits (.new (codePoints conversationId))
      (RecordState.start.dispatched (boundedLines response.chunks).lines)).bind
        (conclude ending)) = .ok observation := by
    unfold StreamResponse.streamTurn at accepted
    split at accepted
    · cases accepted
    · split at accepted
      · cases accepted
      · exact ⟨_, (consume_lines_eq _ _ rfl _ _).symm.trans accepted⟩
  obtain ⟨ending, consumed⟩ := consumed
  obtain ⟨earlier, final', later, split, turn, rfl⟩ :=
    (consume_records_complete_iff [] _ observation).mp (conclude_ok_iff.mp consumed)
  rw [split] at records
  obtain ⟨early, last, front, sensible, ended, same⟩ := complete_turn_events records turn
  obtain ⟨taken, atEnd, whole, prefixed, isEnd⟩ := delivered_part part reached
  rw [delivered, whole] at front
  have inTurn := (part_before_error front isEnd ended).trans prefixed
  rcases stream_turn_events runtime conversationId script with
    none | ⟨notifications, fault, isScript, all⟩
  · rw [none] at inTurn
    simp at inTurn
  · rw [all] at inTurn
    obtain ⟨before, final, after, isAll, successful, events⟩ :=
      turn_of_events inTurn sensible ended
    refine ⟨notifications, fault, before, final, after, isScript, isAll, successful, ?_⟩
    rw [List.nil_append, same, ← events,
      event_transcript_eq _ (@events_of_turn conversationId _ _ successful).1]

/-- A turn ends with the first notification that tells so. -/
theorem turn_cut {notifications before after : List Notification} {last : Notification}
    (isAll : notifications = before ++ last :: after) (successful : SuccessfulTurn before last) :
    (notifications.takeWhile fun notification => newsOf notification ≠ some .ended) = before ∧
      (notifications.dropWhile fun notification => newsOf notification ≠ some .ended) =
        last :: after := by
  have opened : ∀ notification ∈ before, decide (newsOf notification ≠ some .ended) = true := by
    intro notification member
    obtain ⟨news, told, other⟩ := successful.sensible notification member
    simp [told, other]
  rw [isAll, List.takeWhile_append_of_pos opened, List.dropWhile_append_of_pos opened]
  simp [successful.ended]

theorem observes_unique {left right : AgentObservation}
    (one : Observes conversationId script left) (other : Observes conversationId script right) :
    left = right := by
  obtain ⟨notifications, _, before, last, after, isScript, isAll, successful, rfl⟩ := one
  obtain ⟨_, _, before', last', after', isScript', isAll', successful', rfl⟩ := other
  rw [isScript] at isScript'
  cases isScript'
  have cut := turn_cut isAll successful
  have cut' := turn_cut isAll' successful'
  have sameBefore : before = before' := cut.1.symm.trans cut'.1
  have sameLast : last :: after = last' :: after' := cut.2.symm.trans cut'.2
  rw [sameBefore, (List.cons.inj sameLast).1]

/-- A successful turn is observed, if nothing comes between. -/
theorem ok_of_observes {observation : AgentObservation}
    (reached : Stream.machine.run (Stream.new conversationId maxEvents) labels = some final)
    (delivered : sent.map Prod.fst = final.delivered)
    (undisturbed : Undisturbed isoformat limits runtime conversationId script labels final sent
      response)
    (observes : Observes conversationId script observation) :
    response.streamTurn limits (codePoints conversationId) = .ok observation := by
  obtain ⟨notifications, ending, before, last, after, rfl, isAll, successful, rfl⟩ := observes
  have events : final.delivered =
      (runtime.streamTurn conversationId (.streams notifications ending)).1 := by
    rcases Stream.schedule_settles undisturbed.schedule undisturbed.keepsUp
      ⟨reached, undisturbed.settled⟩ with ⟨-, all⟩ | ⟨code, _, impossible, _⟩
    · exact all
    · cases impossible
  have started : runtime.started = true := by
    cases isStarted : runtime.started with
    | true => rfl
    | false =>
        have returns := undisturbed.returns
        simp [streamTurn, isStarted] at returns
  have loop : runtime.streamTurn conversationId (.streams notifications ending) =
      streamLoop conversationId ending false notifications := by simp [streamTurn, started]
  have reads := ((stream_loop_returns conversationId ending false notifications).mp
    (loop ▸ undisturbed.returns)).2.1
  rw [loop, stream_loop_events, List.takeWhile_eq_self_iff.mpr reads] at events
  obtain ⟨allRead, sensible, lastEvent, lastMaps, ended⟩ :=
    @events_of_turn conversationId _ _ successful
  have split : sent.map Prod.fst = before.filterMap (mapped conversationId) ++
      lastEvent :: after.filterMap (mapped conversationId) := by
    rw [delivered, events, isAll, List.filterMap_append, List.filterMap_cons_some lastMaps]
  obtain ⟨early, back, rfl, isEarly, isBack⟩ := List.map_eq_append_iff.mp split
  obtain ⟨final', later, rfl, isLast, -⟩ := List.map_eq_cons_iff.mp isBack
  have known : ∀ event ∈ early ++ final' :: later,
      event.1.type ∈ eventTypes ∧ event.1.conversationId = conversationId := by
    intro event member
    have inDelivered : event.1 ∈ final.delivered := by
      rw [← delivered]
      exact List.mem_map_of_mem member
    rw [events] at inDelivered
    obtain ⟨notification, -, maps⟩ := List.mem_filterMap.mp inDelivered
    exact mapped_known maps
  obtain ⟨records, record, isRecords, turn⟩ := complete_turn_of_events undisturbed.roomy
    (fun event member => (known event member).2)
    (fun event member => sensible event.1 (isEarly ▸ List.mem_map_of_mem member))
    (isLast ▸ ended)
  have whole := records_whole _ (fun event member => (known event member).1) undisturbed.admitted
    undisturbed.whole
  have accepted : response.streamTurn limits (codePoints conversationId) =
      .ok (summary (codePoints conversationId) ([] ++ (records ++ [record])) true) := by
    rw [stream_turn_eq _ _ undisturbed.served undisturbed.admitted,
      ← bounded_lines_eq undisturbed.admitted, whole, isRecords]
    exact conclude_ok_iff.mpr ((consume_records_complete_iff [] _ _).mpr
      ⟨records, record, _, rfl, turn, rfl⟩)
  have part : labels.filter Stream.Label.produced <+:
      produce (runtime.streamTurn conversationId (.streams notifications ending)) := by
    rw [undisturbed.schedule.script, produce, undisturbed.returns]
    exact List.prefix_rfl
  have received : body response.chunks <+:
      StampedEvent.eventStream isoformat ((early ++ final' :: later).map stamped) :=
    ⟨[], (List.append_nil _).trans undisturbed.whole⟩
  have same := observes_unique (observes_of_ok part reached delivered received accepted)
    ⟨notifications, ending, before, last, after, rfl, isAll, successful, rfl⟩
  rw [accepted, same]

/-- Whatever the schedule of the consumer, the cuts of the response and its end, an observation is
the transcript of a successful turn the runtime has streamed. If nothing comes between, exactly the
successful turns are observed. -/
theorem observed_turn (runtime : CodexRuntime) (conversationId : String) (script : TurnScript)
    (isoformat : Stamp → String) (limits : Limits) (labels : List Stream.Label) (final : Stream)
    (sent : List (AgentEvent × Stamp)) (response : StreamResponse)
    (part : labels.filter Stream.Label.produced <+:
      produce (runtime.streamTurn conversationId script))
    (reached : Stream.machine.run (Stream.new conversationId maxEvents) labels = some final)
    (delivered : sent.map Prod.fst = final.delivered)
    (received : body response.chunks <+:
      StampedEvent.eventStream isoformat (sent.map stamped)) :
    (∀ observation,
      response.streamTurn limits (codePoints conversationId) = .ok observation →
        Observes conversationId script observation) ∧
    (Undisturbed isoformat limits runtime conversationId script labels final sent response →
      ∀ observation,
        response.streamTurn limits (codePoints conversationId) = .ok observation ↔
          Observes conversationId script observation) := by
  have sound : ∀ observation,
      response.streamTurn limits (codePoints conversationId) = .ok observation →
        Observes conversationId script observation :=
    fun observation => observes_of_ok part reached delivered received
  refine ⟨sound, ?_⟩
  intro undisturbed observation
  constructor
  · exact sound observation
  · exact ok_of_observes reached delivered undisturbed

end Whole

namespace Recorded

/-- A turn with a tool call and a text that is escaped, and a notification that is dropped. -/
def beforeEnd : List Notification :=
  [⟨some "turn/started", .none⟩, ⟨some "thread/tokenUsage/updated", .none⟩,
    CodexEventMapper.Recorded.toolCall "thread-1" "o-1",
    ⟨some "item/agentMessage/delta", .dict [("delta", .str "\"é\"\n")]⟩]

def turnEnd : Notification where
  method := some "turn/completed"
  payload := .model [("turn", .obj [("status", .str "completed"), ("durationMs", .int 1200)])]

def turnNotifications : List Notification := beforeEnd ++ [turnEnd]

def turnEvents : List AgentEvent := turnNotifications.filterMap (mapped "c-1")

def turnSent : List (AgentEvent × String) :=
  turnEvents.map fun event => (event, "2026-01-01T00:00:00+00:00")

def turnStreamed : StreamResponse where
  statusCode := 200
  contentType := some "text/event-stream; charset=utf-8"
  chunks := byteByByte (StampedEvent.eventStream id (turnSent.map stamped))

theorem observed_turn_streamed :
    turnStreamed.streamTurn turnLimits (codePoints "c-1") =
      .ok ⟨codePoints "c-1", codePoints "\"é\"\n", [codePoints "cancel_order"],
        ["turn.started", "tool.started", "message.delta", "turn.completed"], true⟩ := by
  have turn : (CodexRuntime.mk true).streamTurn "c-1" (.streams turnNotifications none) =
      (turnEvents, none) := by decide
  obtain ⟨labels, final, schedule, keepsUp, settles, delivered⟩ :=
    Stream.lockstep_schedule "c-1" maxEvents turnEvents none
  have all : turnSent.map Prod.fst = final.delivered := by
    rw [delivered]
    decide
  have part : labels.filter Stream.Label.produced <+:
      produce ((CodexRuntime.mk true).streamTurn "c-1" (.streams turnNotifications none)) := by
    rw [schedule.script, turn]
    exact List.prefix_rfl
  have whole : body turnStreamed.chunks = StampedEvent.eventStream id (turnSent.map stamped) :=
    body_byte_by_byte _
  have undisturbed : Undisturbed id turnLimits ⟨true⟩ "c-1" (.streams turnNotifications none)
      labels final turnSent turnStreamed := by
    constructor
    · rw [turn]
    · rw [turn]
      exact schedule
    · exact keepsUp
    · exact settles.2
    · exact ⟨by decide, by decide +kernel⟩
    · exact byte_by_byte_admitted (by decide +kernel)
    · exact whole
    · have roomy : ∀ event ∈ turnSent,
          ((stamped event).toDict id).fits turnLimits turnLimits.depth = true := by decide +kernel
      exact roomy
  have observed := (observed_turn ⟨true⟩ "c-1" (.streams turnNotifications none) id turnLimits
    labels final turnSent turnStreamed part settles.1 all ⟨[], (List.append_nil _).trans whole⟩).2
    undisturbed (transcript "c-1" turnNotifications)
  have transcribed : transcript "c-1" turnNotifications =
      ⟨codePoints "c-1", codePoints "\"é\"\n", [codePoints "cancel_order"],
        ["turn.started", "tool.started", "message.delta", "turn.completed"], true⟩ := by decide
  rw [← transcribed]
  refine observed.mpr ⟨turnNotifications, none, beforeEnd, turnEnd, [], rfl, rfl, ?_, rfl⟩
  constructor
  · have sensible : ∀ notification ∈ beforeEnd,
        newsOf notification ≠ none ∧ newsOf notification ≠ some .ended := by decide
    intro notification member
    obtain ⟨told, open'⟩ := sensible notification member
    obtain ⟨news, isNews⟩ := Option.ne_none_iff_exists'.mp told
    exact ⟨news, isNews, fun ended => open' (isNews.trans (congrArg some ended))⟩
  · decide

end Recorded

end AgentHarness.Evaluation
