import AgentHarness.Evaluation.AgentObservation

/-!
# The streams that are accepted

A body is accepted exactly when its terminated lines begin with blocks of lines, each ended by a
blank line, whose records are valid and of which only the last completes the turn.
-/

namespace AgentHarness.Evaluation

open AgentHarness.Library
open AgentHarness.Library.PythonJson (CodePoints codePoints Limits Value)

set_option autoImplicit false

/-! ## Blocks of lines -/

/-- The name a line gives to its record. -/
def eventField (line : String) : Option String :=
  if Text.startsWith "event:" line then some (Text.strip Text.pythonSpace (Text.drop 6 line))
  else none

/-- The data a line adds to its record. -/
def dataField (line : String) : Option String :=
  if Text.startsWith "data:" line then some (Text.removePrefix " " (Text.drop 5 line)) else none

/-- The record of the lines before a blank line: the last name, and all data. -/
def blockRecord (block : List String) : Option EventRecord :=
  if block.filterMap dataField = [] then none
  else some ⟨(block.filterMap eventField).getLast?.getD "message",
    "\n".intercalate (block.filterMap dataField)⟩

/-! ## Records -/

/-- The record is one event of the conversation, with what its name asks for. -/
structure ValidRecord (limits : Limits) (conversationId : CodePoints) (record : EventRecord)
    (data : List (CodePoints × Value)) : Prop where
  payload : ∃ payload, PythonJson.loads limits record.payloadText = .value (.dict payload) ∧
    Value.get "data" payload = some (.dict data) ∧
    Value.get "conversation_id" payload = some (.str conversationId) ∧
    Value.get "type" payload = some (.str (codePoints record.eventName))
  noError : record.eventName ≠ "error"
  delta : record.eventName = "message.delta" → ∃ delta, Value.get "delta" data = some (.str delta)
  tool : record.eventName = "tool.started" →
    ∃ name, Value.get "tool_name" data = some (.str name) ∧ name ≠ []

/-- The record says that the turn has come to a good end. -/
structure Completes (record : EventRecord) (data : List (CodePoints × Value)) : Prop where
  name : record.eventName = "turn.completed"
  status : Value.get "status" data = some (.str (codePoints "completed"))
  noError : (Value.get "error" data).any Value.truthy = false

/-- A record with its data. -/
abbrev Event := EventRecord × List (CodePoints × Value)

def deltaOf (event : Event) : CodePoints :=
  match Value.get "delta" event.2 with
  | some (.str delta) => if event.1.eventName = "message.delta" then delta else []
  | _ => []

def toolOf (event : Event) : Option CodePoints :=
  match Value.get "tool_name" event.2 with
  | some (.str name) => if event.1.eventName = "tool.started" then some name else none
  | _ => none

/-- What the events of a turn come to. -/
def summary (conversationId : CodePoints) (events : List Event) (completed : Bool) :
    AgentObservation where
  conversationId := conversationId
  responseText := events.flatMap deltaOf
  toolCalls := events.filterMap toolOf
  events := events.map fun event => event.1.eventName
  completed := completed

/-- Records before the one that completes the turn, and that one. -/
structure CompleteTurn (limits : Limits) (conversationId : CodePoints) (earlier : List Event)
    (final : Event) : Prop where
  valid : ∀ event ∈ earlier, ValidRecord limits conversationId event.1 event.2 ∧
    event.1.eventName ≠ "turn.completed"
  finalValid : ValidRecord limits conversationId final.1 final.2
  completes : Completes final.1 final.2

/-- The body begins with lines of UTF-8 that make up the blocks of a complete turn. Nothing is said
about what follows. -/
def Accepts (limits : Limits) (conversationId : CodePoints) (bytes : List UInt8)
    (observation : AgentObservation) : Prop :=
  ∃ (lines : List (List UInt8)) (rest : List UInt8) (blocks : List (List String))
    (last : List String) (earlier : List Event) (final : Event),
    bytes = lines.flatMap (fun line => line ++ [newline]) ++ rest ∧
    (∀ line ∈ lines, newline ∉ line) ∧
    lines.map decodeLine = ((blocks ++ [last]).flatMap fun block => block ++ [""]).map some ∧
    (∀ block ∈ blocks ++ [last], "" ∉ block) ∧
    blocks.filterMap blockRecord = earlier.map Prod.fst ∧ blockRecord last = some final.1 ∧
    CompleteTurn limits conversationId earlier final ∧
    observation = summary conversationId (earlier ++ [final]) true

/-! ## The loop over records -/

section Records

variable {limits : Limits} {conversationId : CodePoints}

/-- The loop, once the lines are put together to records. -/
def consumeRecords (limits : Limits) :
    AgentObservation → List EventRecord → Except StreamFault AgentObservation
  | observation, [] => .ok observation
  | observation, record :: records =>
      match observation.consume limits record with
      | .error fault => .error fault
      | .ok observation =>
          if observation.completed then .ok observation
          else consumeRecords limits observation records

/-- The loop's ending for an observation that is not complete. -/
def conclude (ending : Option StreamError) (observation : AgentObservation) :
    Except StreamFault AgentObservation :=
  if observation.completed then .ok observation
  else .error (.evaluation (ending.getD .incompleteStream))

theorem conclude_ok_iff {ending : Option StreamError}
    {consumed : Except StreamFault AgentObservation} {observation : AgentObservation} :
    consumed.bind (conclude ending) = .ok observation ↔
      consumed = .ok observation ∧ observation.completed = true := by
  cases consumed with
  | error fault =>
      constructor
      · intro impossible
        cases impossible
      · intro impossible
        cases impossible.1
  | ok reached =>
      simp only [Except.bind, conclude]
      constructor
      · intro ended
        split at ended
        · rename_i complete
          cases ended
          exact ⟨rfl, complete⟩
        · cases ended
      · rintro ⟨same, complete⟩
        cases same
        exact if_pos complete

theorem is_str_iff (text : CodePoints) (value : Option Value) :
    Value.isStr text value = true ↔ value = some (.str text) := by
  unfold Value.isStr
  split
  · simp
  · rename_i other
    constructor
    · intro impossible
      cases impossible
    · intro same
      exact absurd same (other text)

theorem payload_of_ok_iff (payloadText : String) (payload data : List (CodePoints × Value)) :
    AgentObservation.payloadOf limits payloadText = .ok (payload, data) ↔
      PythonJson.loads limits payloadText = .value (.dict payload) ∧
        Value.get "data" payload = some (.dict data) := by
  unfold AgentObservation.payloadOf
  constructor
  · intro read
    split at read
    · cases read
    · cases read
    · rename_i entries isDict
      split at read
      · rename_i inner isData
        cases read
        exact ⟨isDict, isData⟩
      · cases read
    · cases read
  · rintro ⟨isDict, isData⟩
    simp only [isDict, isData]

/-- No text that is empty is a value. -/
theorem loads_empty : PythonJson.loads limits "" = .valueError := rfl

/-- The observation with one more event. -/
def extend (observation : AgentObservation) (event : Event) : AgentObservation :=
  { observation with
    responseText := observation.responseText ++ deltaOf event
    toolCalls := observation.toolCalls ++ (toolOf event).toList
    events := observation.events ++ [event.1.eventName]
    completed := event.1.eventName = "turn.completed" }

theorem extend_summary (earlier : List Event) (event : Event) :
    extend (summary conversationId earlier false) event =
      summary conversationId (earlier ++ [event]) (event.1.eventName = "turn.completed") := by
  have tools : [event].filterMap toolOf = (toolOf event).toList := by
    cases found : toolOf event <;> simp [found]
  simp [extend, summary, List.filterMap_append, tools]

variable {record : EventRecord} {data : List (CodePoints × Value)}

theorem delta_of_other (other : record.eventName ≠ "message.delta") : deltaOf (record, data) = [] := by
  unfold deltaOf
  split
  · exact if_neg other
  · rfl

theorem delta_of_delta (name : record.eventName = "message.delta") {delta : CodePoints}
    (found : Value.get "delta" data = some (.str delta)) : deltaOf (record, data) = delta := by
  simp [deltaOf, found, name]

theorem tool_of_other (other : record.eventName ≠ "tool.started") :
    toolOf (record, data) = none := by
  unfold toolOf
  split
  · exact if_neg other
  · rfl

theorem tool_of_tool (name : record.eventName = "tool.started") {tool : CodePoints}
    (found : Value.get "tool_name" data = some (.str tool)) :
    toolOf (record, data) = some tool := by
  simp [toolOf, found, name]

theorem completes_iff (name : record.eventName = "turn.completed") :
    Completes record data ↔
      (!Value.isStr (codePoints "completed") (Value.get "status" data) ||
        (Value.get "error" data).any Value.truthy) = false := by
  rw [Bool.or_eq_false_iff, Bool.not_eq_false', is_str_iff]
  constructor
  · intro completes
    exact ⟨completes.status, completes.noError⟩
  · intro checked
    exact ⟨name, checked.1, checked.2⟩

/-- What the branches of `consume` on the name of an event ask for. -/
structure Applicable (record : EventRecord) (data : List (CodePoints × Value)) : Prop where
  delta : record.eventName = "message.delta" → ∃ delta, Value.get "delta" data = some (.str delta)
  tool : record.eventName = "tool.started" →
    ∃ name, Value.get "tool_name" data = some (.str name) ∧ name ≠ []
  completes : record.eventName = "turn.completed" → Completes record data

theorem apply_of_applicable (observation : AgentObservation)
    (incomplete : observation.completed = false) (applicable : Applicable record data) :
    observation.apply record.eventName data = .ok (extend observation (record, data)) := by
  unfold AgentObservation.apply extend
  by_cases isDelta : record.eventName = "message.delta"
  · obtain ⟨delta, found⟩ := applicable.delta isDelta
    have other : record.eventName ≠ "tool.started" := by rw [isDelta]; decide
    have open' : record.eventName ≠ "turn.completed" := by rw [isDelta]; decide
    simp [isDelta, found, delta_of_delta isDelta found, tool_of_other other, incomplete]
  by_cases isTool : record.eventName = "tool.started"
  · obtain ⟨tool, found, nonempty⟩ := applicable.tool isTool
    simp [isTool, found, nonempty, delta_of_other isDelta, tool_of_tool isTool found, incomplete]
  by_cases isEnd : record.eventName = "turn.completed"
  · have checked := (completes_iff isEnd).mp (applicable.completes isEnd)
    simp [isEnd, checked, delta_of_other isDelta, tool_of_other isTool]
  · simp [isDelta, isTool, isEnd, delta_of_other isDelta, tool_of_other isTool, incomplete]

theorem applicable_of_apply {observation next : AgentObservation}
    (applied : observation.apply record.eventName data = .ok next) : Applicable record data := by
  unfold AgentObservation.apply at applied
  dsimp only at applied
  split at applied
  · rename_i isDelta
    have other : record.eventName ≠ "tool.started" := by rw [isDelta]; decide
    have unended : record.eventName ≠ "turn.completed" := by rw [isDelta]; decide
    split at applied
    · rename_i delta found
      exact ⟨fun _ => ⟨delta, found⟩, fun same => absurd same other,
        fun same => absurd same unended⟩
    · cases applied
  · rename_i notDelta
    split at applied
    · rename_i isTool
      have unended : record.eventName ≠ "turn.completed" := by rw [isTool]; decide
      split at applied
      · rename_i name found
        split at applied
        · cases applied
        · rename_i nonempty
          exact ⟨fun same => absurd same notDelta, fun _ => ⟨name, found, nonempty⟩,
            fun same => absurd same unended⟩
      · cases applied
    · rename_i notTool
      split at applied
      · rename_i isEnd
        split at applied
        · cases applied
        · rename_i checked
          have ended := (completes_iff isEnd).mpr ((Bool.not_eq_true _).mp checked)
          exact ⟨fun same => absurd same notDelta, fun same => absurd same notTool, fun _ => ended⟩
      · rename_i notEnd
        exact ⟨fun same => absurd same notDelta, fun same => absurd same notTool,
          fun same => absurd same notEnd⟩

/-- A record is taken in exactly when it is valid, and the last one when it completes the turn. -/
theorem consume_ok_iff (observation next : AgentObservation)
    (incomplete : observation.completed = false) (record : EventRecord) :
    observation.consume limits record = .ok next ↔
      ∃ data, ValidRecord limits observation.conversationId record data ∧
        (record.eventName = "turn.completed" → Completes record data) ∧
        next = extend observation (record, data) := by
  unfold AgentObservation.consume
  constructor
  · intro consumed
    split at consumed
    · cases consumed
    rename_i noError
    split at consumed
    · cases consumed
    split at consumed
    · cases consumed
    rename_i payload data read
    obtain ⟨isDict, isData⟩ := (payload_of_ok_iff record.payloadText payload data).mp read
    split at consumed
    · cases consumed
    rename_i conversation
    split at consumed
    · cases consumed
    rename_i type
    rw [incomplete, if_neg Bool.false_ne_true] at consumed
    rw [Bool.not_eq_true, Bool.not_eq_false', is_str_iff] at conversation type
    have applicable := applicable_of_apply consumed
    rw [apply_of_applicable observation incomplete applicable] at consumed
    refine ⟨data, ⟨⟨payload, isDict, isData, conversation, type⟩, noError, applicable.delta,
      applicable.tool⟩, applicable.completes, ?_⟩
    exact (Except.ok.inj consumed).symm
  · rintro ⟨data, valid, completes, rfl⟩
    obtain ⟨payload, isDict, isData, conversation, type⟩ := valid.payload
    have nonempty : record.payloadText ≠ "" := by
      intro empty
      rw [empty, loads_empty] at isDict
      cases isDict
    have read := (payload_of_ok_iff record.payloadText payload data).mpr ⟨isDict, isData⟩
    have sameConversation := (is_str_iff observation.conversationId _).mpr conversation
    have sameType := (is_str_iff (codePoints record.eventName) _).mpr type
    rw [if_neg valid.noError, if_neg nonempty, read]
    simp only [sameConversation, sameType, incomplete, Bool.not_true, Bool.false_eq_true, if_false]
    exact apply_of_applicable observation incomplete ⟨valid.delta, valid.tool, completes⟩

theorem consume_lines_eq (ending : Option StreamError) (observation : AgentObservation)
    (incomplete : observation.completed = false) (state : RecordState) (lines : List String) :
    consumeLines limits ending observation state lines =
      (consumeRecords limits observation (state.dispatched lines)).bind (conclude ending) := by
  induction lines generalizing observation state with
  | nil =>
      simp only [consumeLines, RecordState.dispatched, consumeRecords, Except.bind, conclude,
        incomplete]
      cases ending <;> rfl
  | cons line lines ih =>
      simp only [consumeLines, RecordState.dispatched]
      cases (state.readLine line).2 with
      | none => exact ih observation incomplete (state.readLine line).1
      | some record =>
          simp only [Option.toList_some, List.singleton_append, consumeRecords]
          cases observation.consume limits record with
          | error fault => rfl
          | ok next =>
              cases complete : next.completed with
              | true => simp [complete, Except.bind, conclude]
              | false => simpa [complete] using ih next complete (state.readLine line).1

/-- The loop reaches a completed turn exactly through the records of a complete turn. -/
theorem consume_records_complete_iff (earlier : List Event) (records : List EventRecord)
    (observation : AgentObservation) :
    (consumeRecords limits (summary conversationId earlier false) records = .ok observation ∧
        observation.completed = true) ↔
      ∃ more final later, records = more.map Prod.fst ++ final.1 :: later ∧
        CompleteTurn limits conversationId more final ∧
        observation = summary conversationId (earlier ++ (more ++ [final])) true := by
  induction records generalizing earlier with
  | nil =>
      constructor
      · rintro ⟨consumed, complete⟩
        cases consumed
        cases complete
      · rintro ⟨more, final, later, impossible, -⟩
        simp at impossible
  | cons record records ih =>
      constructor
      · rintro ⟨consumed, complete⟩
        simp only [consumeRecords] at consumed
        split at consumed
        · cases consumed
        · rename_i next taken
          obtain ⟨data, valid, completes, rfl⟩ := (consume_ok_iff _ _ rfl record).mp taken
          rw [extend_summary] at consumed
          by_cases isEnd : record.eventName = "turn.completed"
          · have ended : (summary conversationId (earlier ++ [(record, data)])
                (record.eventName = "turn.completed")).completed = true := decide_eq_true isEnd
            rw [if_pos ended] at consumed
            refine ⟨[], (record, data), records, rfl, ?_, ?_⟩
            · exact ⟨fun _ member => (nomatch member), valid, completes isEnd⟩
            · rw [← Except.ok.inj consumed, decide_eq_true isEnd]
              rfl
          · rw [decide_eq_false isEnd] at consumed
            obtain ⟨more, final, later, same, turn, result⟩ :=
              (ih (earlier ++ [(record, data)])).mp ⟨consumed, complete⟩
            refine ⟨(record, data) :: more, final, later, by rw [same]; rfl, ?_, ?_⟩
            · refine ⟨?_, turn.finalValid, turn.completes⟩
              intro event member
              rcases List.mem_cons.mp member with rfl | later
              · exact ⟨valid, isEnd⟩
              · exact turn.valid event later
            · rw [result, List.append_assoc]
              rfl
      · rintro ⟨more, final, later, same, turn, rfl⟩
        refine ⟨?_, rfl⟩
        cases more with
        | nil =>
            simp only [List.map_nil, List.nil_append, List.cons.injEq] at same
            obtain ⟨rfl, rfl⟩ := same
            have taken := (consume_ok_iff (summary conversationId earlier false)
              (extend (summary conversationId earlier false) final) rfl final.1).mpr
              ⟨final.2, turn.finalValid, fun _ => turn.completes, rfl⟩
            rw [extend_summary, decide_eq_true turn.completes.name] at taken
            have ended : (summary conversationId (earlier ++ [final]) true).completed = true := rfl
            simp only [consumeRecords, taken]
            rw [if_pos ended, List.nil_append]
        | cons event more =>
            simp only [List.map_cons, List.cons_append, List.cons.injEq] at same
            obtain ⟨rfl, rfl⟩ := same
            obtain ⟨valid, unended⟩ := turn.valid event List.mem_cons_self
            have taken := (consume_ok_iff (summary conversationId earlier false)
              (extend (summary conversationId earlier false) event) rfl event.1).mpr
              ⟨event.2, valid, fun isEnd => absurd isEnd unended, rfl⟩
            rw [extend_summary, decide_eq_false unended] at taken
            have rest : CompleteTurn limits conversationId more final :=
              ⟨fun other member => turn.valid other (List.mem_cons_of_mem event member),
                turn.finalValid, turn.completes⟩
            have whole : earlier ++ (event :: more ++ [final]) =
                earlier ++ [event] ++ (more ++ [final]) := by simp
            have found := ((ih (earlier ++ [event])).mpr
              ⟨more, final, later, rfl, rest, by rw [whole]⟩).1
            simp only [consumeRecords, taken]
            rw [if_neg (by simp [summary]), found]

end Records

/-! ## Blocks and records -/

theorem not_data_of_event {line : String} (isEvent : Text.startsWith "event:" line = true) :
    dataField line = none := by
  obtain ⟨rest, whole⟩ := List.isPrefixOf_iff_prefix.mp isEvent
  have other : Text.startsWith "data:" line = false := by
    rw [Text.startsWith, ← whole]
    simp [List.isPrefixOf]
  rw [dataField, other, if_neg Bool.false_ne_true]

theorem read_solid (state : RecordState) {line : String} (nonempty : line ≠ "") :
    state.readLine line = (⟨(eventField line).getD state.eventName,
      state.dataLines ++ (dataField line).toList⟩, none) := by
  rw [RecordState.readLine, if_neg nonempty]
  by_cases isEvent : Text.startsWith "event:" line = true
  · rw [if_pos isEvent, not_data_of_event isEvent, eventField, if_pos isEvent]
    simp
  · rw [if_neg isEvent, eventField, if_neg isEvent, dataField]
    by_cases isData : Text.startsWith "data:" line = true
    · simp [isData]
    · simp [isData]

/-- The state after lines that are not blank. -/
theorem dispatched_lines (block lines : List String) (solid : "" ∉ block) (state : RecordState) :
    state.dispatched (block ++ lines) =
      RecordState.dispatched
        ⟨(block.filterMap eventField).getLast?.getD state.eventName,
          state.dataLines ++ block.filterMap dataField⟩ lines := by
  induction block generalizing state with
  | nil => simp
  | cons line block ih =>
      have nonempty : line ≠ "" := fun same => solid (same ▸ List.mem_cons_self)
      have rest := ih fun member => solid (List.mem_cons_of_mem line member)
      rw [List.cons_append, RecordState.dispatched, read_solid state nonempty, rest]
      cases name : eventField line with
      | none => cases data : dataField line <;> simp [name, data]
      | some name' => cases data : dataField line <;> simp [name, data, List.getLast?_cons]

theorem dispatched_block (block lines : List String) (solid : "" ∉ block) :
    RecordState.start.dispatched (block ++ "" :: lines) =
      (blockRecord block).toList ++ RecordState.start.dispatched lines := by
  rw [dispatched_lines block _ solid, RecordState.dispatched, RecordState.read_blank]
  rfl

/-- The records of blocks of lines, and what follows the last blank line has none. -/
theorem dispatched_blocks (blocks : List (List String)) (lines : List String)
    (solid : ∀ block ∈ blocks, "" ∉ block) :
    RecordState.start.dispatched ((blocks.flatMap fun block => block ++ [""]) ++ lines) =
      blocks.filterMap blockRecord ++ RecordState.start.dispatched lines := by
  induction blocks with
  | nil => rfl
  | cons block blocks ih =>
      have rest := ih fun other member => solid other (List.mem_cons_of_mem block member)
      rw [List.flatMap_cons, List.append_assoc, List.append_assoc, List.singleton_append,
        dispatched_block block _ (solid block List.mem_cons_self), rest]
      cases found : blockRecord block <;> simp [found]

theorem dispatched_unterminated (lines : List String) (solid : "" ∉ lines) :
    RecordState.start.dispatched lines = [] := by
  have none_left := dispatched_lines lines [] solid .start
  rw [List.append_nil] at none_left
  exact none_left

/-- A record that is dispatched ends a block of lines. -/
theorem dispatched_split {lines : List String} {earlier : List EventRecord} {final : EventRecord}
    {later : List EventRecord}
    (found : RecordState.start.dispatched lines = earlier ++ final :: later) :
    ∃ blocks last rest, lines = ((blocks ++ [last]).flatMap fun block => block ++ [""]) ++ rest ∧
      (∀ block ∈ blocks ++ [last], "" ∉ block) ∧ blocks.filterMap blockRecord = earlier ∧
      blockRecord last = some final := by
  obtain ⟨whole, solid, tail⟩ := Lines.cut_spec "" lines
  generalize (Lines.cut "" lines).1 = blocks at whole solid
  generalize (Lines.cut "" lines).2 = rest at whole tail
  rw [whole, dispatched_blocks blocks rest solid, dispatched_unterminated rest tail,
    List.append_nil, List.filterMap_eq_append_iff] at found
  obtain ⟨front, back, split, isFront, isBack⟩ := found
  rw [List.filterMap_eq_cons_iff] at isBack
  obtain ⟨skipped, last, after, isAfter, silent, isLast, -⟩ := isBack
  refine ⟨front ++ skipped, last, after.flatMap (fun block => block ++ [""]) ++ rest, ?_, ?_, ?_,
    isLast⟩
  · rw [whole, split, isAfter]
    simp
  · intro block member
    apply solid block
    rw [split, isAfter]
    simp only [List.mem_append, List.mem_cons, List.not_mem_nil, or_false] at member ⊢
    tauto
  · have none_skipped : skipped.filterMap blockRecord = [] :=
      List.filterMap_eq_nil_iff.mpr silent
    rw [List.filterMap_append, isFront, none_skipped, List.append_nil]

/-! ## Bodies -/

section Bodies

variable {limits : Limits} {conversationId : CodePoints} {bytes : List UInt8}
  {observation : AgentObservation}

/-- A body is accepted when the records of its lines begin with a complete turn. -/
theorem accepts_iff :
    Accepts limits conversationId bytes observation ↔
      ∃ earlier final later,
        RecordState.start.dispatched (handOut (terminatedLines bytes)).lines =
          earlier.map Prod.fst ++ final.1 :: later ∧
        CompleteTurn limits conversationId earlier final ∧
        observation = summary conversationId (earlier ++ [final]) true := by
  constructor
  · rintro ⟨lines, rest, blocks, last, earlier, final, isBody, unmarked, decoded, solid, records,
      isFinal, turn, result⟩
    have found : terminatedLines bytes = lines ++ terminatedLines rest := by
      rw [isBody]
      exact Lines.cut_lines_append lines rest unmarked
    refine ⟨earlier, final,
      RecordState.start.dispatched (handOut (terminatedLines rest)).lines, ?_, turn, result⟩
    rw [found, hand_out_decoded lines _ _ decoded, dispatched_blocks _ _ solid,
      List.filterMap_append, records]
    simp [isFinal]
  · rintro ⟨earlier, final, later, found, turn, result⟩
    obtain ⟨blocks, last, after, isLines, solid, records, isFinal⟩ := dispatched_split found
    obtain ⟨whole, unmarked, -⟩ := Lines.cut_spec newline bytes
    obtain ⟨front, tail, split, decoded⟩ := hand_out_split (terminatedLines bytes)
    rw [isLines, List.map_append] at decoded
    obtain ⟨lines, others, isFront, isBlocks, -⟩ := List.map_eq_append_iff.mp decoded
    have cutAs : (Lines.cut newline bytes).1 = lines ++ (others ++ tail) := by
      rw [← List.append_assoc, ← isFront, ← split]
      rfl
    refine ⟨lines, (others ++ tail).flatMap (fun line => line ++ [newline]) ++
      (Lines.cut newline bytes).2, blocks, last, earlier, final, ?_, ?_, isBlocks, solid, records,
      isFinal, turn, result⟩
    · rw [← List.append_assoc, ← List.flatMap_append, ← cutAs]
      exact whole
    · intro line member
      apply unmarked line
      rw [cutAs]
      exact List.mem_append_left _ member

end Bodies

/-- The response is a stream of events. -/
structure StreamResponse.Served (response : StreamResponse) : Prop where
  succeeded : response.succeeded = true
  mediaType : response.mediaType = some "text/event-stream"

/-- Within the bounds the outcome is a function of the terminated lines. -/
theorem stream_turn_eq {response : StreamResponse} (limits : Limits) (conversationId : CodePoints)
    (served : response.Served) (admitted : Admitted response.chunks) :
    response.streamTurn limits conversationId =
      (consumeRecords limits (.new conversationId) (RecordState.start.dispatched
        (handOut (terminatedLines (body response.chunks))).lines)).bind
        (conclude (handOut (terminatedLines (body response.chunks))).ending) := by
  rw [StreamResponse.streamTurn, served.succeeded, served.mediaType]
  simp only [Bool.not_true, Bool.false_eq_true, if_false, ne_eq, not_true_eq_false,
    bounded_lines_eq admitted]
  exact consume_lines_eq _ _ rfl _ _

/-- The turn succeeds exactly on the accepted bodies. Where the body is cut into chunks makes no
difference to the outcome, and neither does a tail without an end of line. -/
theorem stream_turn_accepts (limits : Limits) (conversationId : CodePoints)
    (response : StreamResponse) (served : response.Served) (admitted : Admitted response.chunks) :
    (∀ observation, response.streamTurn limits conversationId = .ok observation ↔
      Accepts limits conversationId (body response.chunks) observation) ∧
    ∀ other : StreamResponse, other.Served → Admitted other.chunks →
      ∀ tail, newline ∉ tail → body other.chunks = body response.chunks ++ tail →
        other.streamTurn limits conversationId = response.streamTurn limits conversationId := by
  constructor
  · intro observation
    rw [stream_turn_eq limits conversationId served admitted, accepts_iff, conclude_ok_iff]
    exact consume_records_complete_iff [] _ observation
  · intro other otherServed otherAdmitted tail unmarked same
    have lines : terminatedLines (body other.chunks) = terminatedLines (body response.chunks) := by
      rw [same]
      exact Lines.cut_append_unmarked _ tail unmarked
    rw [stream_turn_eq limits conversationId otherServed otherAdmitted,
      stream_turn_eq limits conversationId served admitted, lines]

/-! ## A recorded turn -/

namespace Recorded

/-- A turn with a tool and a text, ends of lines of both kinds, and a tail that is not terminated. -/
def turnText : String :=
  "event: tool.started\r\ndata: \x7b\"type\": \"tool.started\", \"conversation_id\": \"c-1\", \"data\": \x7b\"tool_name\": \"cancel_order\"\x7d\x7d\r\n\r\n" ++
  "event: message.delta\ndata: \x7b\"type\": \"message.delta\", \"conversation_id\": \"c-1\", \"data\": \x7b\"delta\": \"done\"\x7d\x7d\n\n" ++
  "event: turn.completed\ndata: \x7b\"type\": \"turn.completed\", \"conversation_id\": \"c-1\",\n" ++
  "data: \"data\": \x7b\"status\": \"completed\", \"error\": null\x7d\x7d\n\nevent: error"

/-- The first bytes, and then the others. -/
def inTwo (size : Nat) (bytes : List UInt8) : List Chunk :=
  [⟨bytes.take size, false⟩, ⟨bytes.drop size, false⟩]

theorem in_two_admitted (size : Nat) {bytes : List UInt8} (short : bytes.length ≤ 2000000) :
    Admitted (inTwo size bytes) where
  size := by simpa [body, inTwo] using short
  inTime := by simp [inTwo]

def turnResponse : StreamResponse where
  statusCode := 200
  contentType := some "text/event-stream; charset=utf-8"
  chunks := inTwo 100 (Utf8.encode turnText)

def turnLimits : Limits := ⟨1000, 4300⟩

theorem turn_response_served : turnResponse.Served where
  succeeded := by decide
  mediaType := by decide +kernel

theorem turn_response_admitted : Admitted turnResponse.chunks := by
  simp only [turnResponse]
  exact in_two_admitted 100 (by decide +kernel)

theorem stream_turn_accepts_turn :
    turnResponse.streamTurn turnLimits (codePoints "c-1") =
        .ok ⟨codePoints "c-1", codePoints "done", [codePoints "cancel_order"],
          ["tool.started", "message.delta", "turn.completed"], true⟩ ∧
      Accepts turnLimits (codePoints "c-1") (body turnResponse.chunks)
        ⟨codePoints "c-1", codePoints "done", [codePoints "cancel_order"],
          ["tool.started", "message.delta", "turn.completed"], true⟩ := by
  have succeeds : turnResponse.streamTurn turnLimits (codePoints "c-1") =
      .ok ⟨codePoints "c-1", codePoints "done", [codePoints "cancel_order"],
        ["tool.started", "message.delta", "turn.completed"], true⟩ := by
    decide +kernel
  have accepts := (stream_turn_accepts turnLimits (codePoints "c-1") turnResponse
    turn_response_served turn_response_admitted).1
  exact ⟨succeeds, (accepts _).mp succeeds⟩

end Recorded

end AgentHarness.Evaluation
