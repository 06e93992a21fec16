import AgentHarness.Evaluation.EventRecords
import AgentHarness.Events.EventStream
import AgentHarness.Library.JsonLine

/-!
# Reading the event stream back

Every event is three lines for the reader: a name, one line of data and a blank line. Nothing in the
text of a JSON value ends a line.
-/

namespace AgentHarness.Evaluation

open AgentHarness.Library AgentHarness.Events

set_option autoImplicit false

variable {Stamp : Type} (isoformat : Stamp → String)

/-- The type is on one line and has no blanks around it. -/
structure Framed (event : StampedEvent Stamp) : Prop where
  oneLine : '\n' ∉ event.type.toList
  bare : Text.strip Text.pythonSpace event.type = event.type

def eventLines (event : StampedEvent Stamp) : List String :=
  ["event: " ++ event.type, "data: " ++ event.payload isoformat, ""]

/-- What the reader of a line sees: no end of line in it, and no carriage return at its end. -/
structure OneLine (line : String) : Prop where
  newline : '\n' ∉ line.toList
  carriageReturn : line.toList.getLast? ≠ some '\r'

theorem one_line_of_printable {line : String} (printable : JsonText.Printable line.toList) :
    OneLine line where
  newline member := absurd (printable '\n' member) (by decide)
  carriageReturn last := absurd (printable '\r' (List.mem_of_getLast? last)) (by decide)

theorem data_line (event : StampedEvent Stamp) :
    OneLine ("data: " ++ event.payload isoformat) := by
  apply one_line_of_printable
  rw [String.toList_append]
  apply JsonText.Printable.append
  · exact .of_all (by decide)
  · exact JsonText.dumps_printable _

variable {isoformat}

theorem event_line {event : StampedEvent Stamp} (framed : Framed event) :
    OneLine ("event: " ++ event.type) where
  newline member := by
    rw [String.toList_append] at member
    rcases List.mem_append.mp member with inName | inType
    · revert inName
      decide
    · exact framed.oneLine inType
  carriageReturn last := by
    rw [String.toList_append] at last
    by_cases empty : event.type.toList = []
    · rw [empty, List.append_nil] at last
      revert last
      decide
    · rw [List.getLast?_append_of_ne_nil _ empty] at last
      have kept := ((Text.strip_eq_self_iff Text.pythonSpace event.type).mp framed.bare).2 '\r' last
      revert kept
      decide

theorem event_lines_one_line {event : StampedEvent Stamp} (framed : Framed event) :
    ∀ line ∈ eventLines isoformat event, OneLine line := by
  intro line member
  simp only [eventLines, List.mem_cons, List.not_mem_nil, or_false] at member
  rcases member with rfl | rfl | rfl
  · exact event_line framed
  · exact data_line isoformat event
  · exact ⟨by simp, by simp⟩

theorem decode_one_line {line : String} (oneLine : OneLine line) :
    decodeLine (Utf8.encode line) = some line := by
  have kept : (Utf8.encode line).getLast? ≠ some carriageReturn := by
    intro last
    exact oneLine.carriageReturn (Utf8.ascii_last_encode '\r' (by decide) last)
  rw [decodeLine, removeCarriageReturn, if_neg kept, Utf8.decode_encode]

theorem hand_out_lines (lines : List String) (oneLine : ∀ line ∈ lines, OneLine line) :
    handOut (lines.map Utf8.encode) = ⟨lines, none⟩ := by
  induction lines with
  | nil => rfl
  | cons line lines ih =>
      have first := decode_one_line (oneLine line List.mem_cons_self)
      have rest := ih fun other member => oneLine other (List.mem_cons_of_mem line member)
      simp only [List.map_cons, handOut, first, rest]

/-- The bytes of the stream are those of its lines. -/
theorem event_stream_eq (events : List (StampedEvent Stamp)) :
    StampedEvent.eventStream isoformat events =
      ((events.flatMap (eventLines isoformat)).map Utf8.encode).flatMap
        (fun line => line ++ [newline]) := by
  induction events with
  | nil => rfl
  | cons event events ih =>
      have ended : Utf8.encode "\n" = [newline] := by decide +kernel
      have later : Utf8.encode (String.join (events.map (StampedEvent.frame isoformat))) = _ := ih
      have first : event.frame isoformat =
          ("event: " ++ event.type) ++ "\n" ++ ("data: " ++ event.payload isoformat) ++ "\n" ++
            "" ++ "\n" := by
        simp [StampedEvent.frame, ← String.toList_inj]
      rw [StampedEvent.eventStream, List.map_cons, String.join_cons, Utf8.encode_append, later, first]
      simp [eventLines, ended]

theorem terminated_lines_stream (events : List (StampedEvent Stamp))
    (framed : ∀ event ∈ events, Framed event) :
    terminatedLines (StampedEvent.eventStream isoformat events) =
      (events.flatMap (eventLines isoformat)).map Utf8.encode := by
  have unmarked : ∀ line ∈ (events.flatMap (eventLines isoformat)).map Utf8.encode,
      newline ∉ line := by
    intro bytes member inBytes
    obtain ⟨line, isLine, rfl⟩ := List.mem_map.mp member
    obtain ⟨event, isEvent, inEvent⟩ := List.mem_flatMap.mp isLine
    have oneLine := event_lines_one_line (framed event isEvent) line inEvent
    exact oneLine.newline (Utf8.ascii_mem_encode '\n' (by decide) inBytes)
  have found := Lines.cut_lines _ [] unmarked List.not_mem_nil
  rw [List.append_nil, ← event_stream_eq] at found
  rw [terminatedLines, found]

theorem dispatched_event {event : StampedEvent Stamp} (framed : Framed event)
    (lines : List String) :
    RecordState.start.dispatched (eventLines isoformat event ++ lines) =
      ⟨event.type, event.payload isoformat⟩ :: RecordState.start.dispatched lines := by
  have name : RecordState.start.readLine ("event: " ++ event.type) = (⟨event.type, []⟩, none) := by
    have named : "event: " ++ event.type = "event:" ++ (" " ++ event.type) := by
      simp [← String.toList_inj]
    have stripped : Text.strip Text.pythonSpace (" " ++ event.type) = event.type := by
      have blank := Text.strip_surrounded Text.pythonSpace [' '] event.type.toList []
        (List.all_eq_true.mp rfl) (by simp)
      have whole : String.ofList ([' '] ++ event.type.toList ++ []) = " " ++ event.type := by
        simp
      rw [whole, String.ofList_toList] at blank
      exact blank.trans framed.bare
    rw [named, RecordState.read_event, stripped]
    rfl
  have data : RecordState.readLine ⟨event.type, []⟩ ("data: " ++ event.payload isoformat) =
      (⟨event.type, [event.payload isoformat]⟩, none) := by
    have named : "data: " ++ event.payload isoformat =
        "data:" ++ (" " ++ event.payload isoformat) := by
      simp [← String.toList_inj]
    rw [named, RecordState.read_data, Text.remove_prefix_append]
    rfl
  have record : RecordState.record ⟨event.type, [event.payload isoformat]⟩ =
      some ⟨event.type, event.payload isoformat⟩ := by
    rw [RecordState.record, if_neg (by simp), String.intercalate_singleton]
  simp only [eventLines, List.cons_append, List.nil_append, RecordState.dispatched, name, data,
    RecordState.read_blank, record, Option.toList_none, Option.toList_some]

/-- The records are the events, wherever the bytes were cut. -/
theorem event_stream_round_trip (events : List (StampedEvent Stamp))
    (framed : ∀ event ∈ events, Framed event) (chunks : List Chunk) (admitted : Admitted chunks)
    (sent : body chunks = StampedEvent.eventStream isoformat events) :
    (boundedLines chunks).ending = none ∧
      RecordState.start.dispatched (boundedLines chunks).lines =
        events.map fun event => ⟨event.type, event.payload isoformat⟩ := by
  have lines : boundedLines chunks = ⟨events.flatMap (eventLines isoformat), none⟩ := by
    rw [bounded_lines_eq admitted, sent, terminated_lines_stream events framed]
    apply hand_out_lines
    intro line member
    obtain ⟨event, isEvent, inEvent⟩ := List.mem_flatMap.mp member
    exact event_lines_one_line (framed event isEvent) line inEvent
  rw [lines]
  apply And.intro rfl
  clear lines sent admitted
  induction events with
  | nil => rfl
  | cons event events ih =>
      have later := ih fun other member => framed other (List.mem_cons_of_mem event member)
      rw [List.flatMap_cons, dispatched_event (framed event List.mem_cons_self), later,
        List.map_cons]

/-! ## A recorded stream -/

namespace Recorded

/-- Texts with a quote, ends of lines of several kinds and characters of several bytes. -/
def streamedEvents : List (StampedEvent String) :=
  [⟨"message.delta", "c-1", .obj [("delta", .str "\"a\r\n\u2028 é")], "2026-01-01T00:00:00+00:00"⟩,
    ⟨"turn.completed", "c-1", .obj [("status", .str "completed"), ("error", .null)],
      "2026-01-01T00:00:01+00:00"⟩]

def streamedChunks : List Chunk := byteByByte (StampedEvent.eventStream id streamedEvents)

theorem event_stream_round_trip_streamed :
    (boundedLines streamedChunks).ending = none ∧
      RecordState.start.dispatched (boundedLines streamedChunks).lines =
        streamedEvents.map fun event => ⟨event.type, event.payload id⟩ :=
  event_stream_round_trip streamedEvents
    (by
      intro event member
      simp only [streamedEvents, List.mem_cons, List.not_mem_nil, or_false] at member
      rcases member with rfl | rfl
      · exact ⟨by decide, by decide +kernel⟩
      · exact ⟨by decide, by decide +kernel⟩)
    streamedChunks (byte_by_byte_admitted (by decide +kernel)) (body_byte_by_byte _)

end Recorded

end AgentHarness.Evaluation
