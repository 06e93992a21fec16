import AgentHarness.Evaluation.BoundedLines
import AgentHarness.Library.Text

/-!
# Event records

What `_stream_turn` makes of the lines before it looks into a record: the name and the data lines
collected so far, and a record at every blank line that has data before it.
-/

namespace AgentHarness.Evaluation

open AgentHarness.Library

set_option autoImplicit false

/-- The variables `event_name` and `data_lines`. -/
structure RecordState where
  eventName : String
  dataLines : List String
  deriving DecidableEq, Repr

/-- What `consume` is called with. -/
structure EventRecord where
  eventName : String
  payloadText : String
  deriving DecidableEq, Repr

namespace RecordState

def start : RecordState := ⟨"message", []⟩

def record (state : RecordState) : Option EventRecord :=
  if state.dataLines = [] then none
  else some ⟨state.eventName, "\n".intercalate state.dataLines⟩

/-- The record is taken before the variables are reset. -/
def readLine (state : RecordState) (line : String) : RecordState × Option EventRecord :=
  if line = "" then (start, state.record)
  else if Text.startsWith "event:" line then
    ({ state with eventName := Text.strip Text.pythonSpace (Text.drop 6 line) }, none)
  else if Text.startsWith "data:" line then
    ({ state with dataLines := state.dataLines ++ [Text.removePrefix " " (Text.drop 5 line)] },
      none)
  else (state, none)

/-- The records of the lines, in order. -/
def dispatched (state : RecordState) : List String → List EventRecord
  | [] => []
  | line :: lines => (state.readLine line).2.toList ++ dispatched (state.readLine line).1 lines

variable {state : RecordState}

@[simp] theorem read_blank : state.readLine "" = (start, state.record) := rfl

theorem read_event (rest : String) : state.readLine ("event:" ++ rest) =
    ({ state with eventName := Text.strip Text.pythonSpace rest }, none) := by
  have nonempty : "event:" ++ rest ≠ "" := by
    intro empty
    simp [← String.toList_inj] at empty
  have dropped : Text.drop 6 ("event:" ++ rest) = rest := Text.drop_append "event:" rest
  rw [readLine, if_neg nonempty, Text.starts_with_append, if_pos rfl, dropped]

theorem read_data (rest : String) : state.readLine ("data:" ++ rest) =
    ({ state with dataLines := state.dataLines ++ [Text.removePrefix " " rest] }, none) := by
  have nonempty : "data:" ++ rest ≠ "" := by
    intro empty
    simp [← String.toList_inj] at empty
  have other : Text.startsWith "event:" ("data:" ++ rest) = false := by
    simp [Text.startsWith, List.isPrefixOf]
  have dropped : Text.drop 5 ("data:" ++ rest) = rest := Text.drop_append "data:" rest
  rw [readLine, if_neg nonempty, other, if_neg Bool.false_ne_true, Text.starts_with_append,
    if_pos rfl, dropped]

end RecordState

end AgentHarness.Evaluation
