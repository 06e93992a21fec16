import AgentHarness.Approval.Pagination
import AgentHarness.Library.IsoFormat
import AgentHarness.Library.JsonBytes
import AgentHarness.Library.PythonUuid

/-!
# The cursor as text

`decode_cursor` with every format it reads, and the exceptions it raises and catches on the way.
What it returns is written as a cursor that is read the same way again.
-/

namespace AgentHarness.Approval

open AgentHarness.Library
open AgentHarness.Library.PythonJson (CodePoints codePoints Limits Value)

set_option autoImplicit false

namespace CursorCodec

/-- A time with an offset. -/
structure AwareTime where
  time : DateTime
  aware : time.offset.isSome = true
  deriving DecidableEq, Repr

/-- The classes the exceptions belong to. Those of the decoders and of Unicode are `ValueError`s. -/
inductive ExceptionClass where
  | valueError
  | typeError
  | attributeError
  | recursionError
  deriving DecidableEq, Repr

/-- The interpreter. A cursor is too short to be nested beyond the recursion limit, and what becomes
of bytes that hold surrogates may be anything. -/
structure Interpreter where
  limits : Limits
  roomy : 384 ≤ limits.depth
  surrogates : CodePoints → Option Value

/-- Surrogates stand for no character. They become one that no format knows. -/
def characters (value : CodePoints) : List Char := value.map Char.ofNat

def b64decode (value : CodePoints) : Except ExceptionClass (List UInt8) :=
  match (asText value).bind Base64.b64decode with
  | some bytes => .ok bytes
  | none => .error .valueError

/-- `json.loads` of bytes. -/
def loads (interpreter : Interpreter) (bytes : List UInt8) : Except ExceptionClass Value :=
  match JsonBytes.decode bytes with
  | none => .error .valueError
  | some points =>
      match asText points with
      | some text =>
          match PythonJson.loads interpreter.limits text with
          | .value value => .ok value
          | .valueError => .error .valueError
          | .recursionError => .error .recursionError
      | none =>
          match interpreter.surrogates points with
          | some value => .ok value
          | none => .error .valueError

def fromisoformat : Value → Except ExceptionClass DateTime
  | .str text =>
      match IsoFormat.parse (characters text) with
      | some time => .ok time
      | none => .error .valueError
  | _ => .error .typeError

def uuid : Value → Except ExceptionClass Uuid
  | .str text =>
      match PythonUuid.parse (characters text) with
      | some uuid => .ok uuid
      | none => .error .valueError
  | .none => .error .typeError
  | _ => .error .attributeError

/-- The decoded value as a position. -/
def readData : Value → Except ExceptionClass (AwareTime × Uuid)
  | .list [first, second] => do
      let timestamp ← fromisoformat first
      let identifier ← uuid second
      if aware : timestamp.offset.isSome = true then .ok (⟨timestamp, aware⟩, identifier)
      else .error .valueError
  | _ => .error .valueError

/-- The body of the `try`. -/
def readPosition (interpreter : Interpreter) (value : CodePoints) :
    Except ExceptionClass (AwareTime × Uuid) := do
  if 512 < value.length then .error .valueError
  else
    let bytes ← b64decode value
    let data ← loads interpreter bytes
    readData data

/-- The classes the `except` names. -/
def caught (raised : ExceptionClass) : Bool :=
  raised = .valueError || raised = .typeError || raised = .attributeError

def decodeCursor (interpreter : Interpreter) (value : CodePoints) :
    Except ExceptionClass (AwareTime × String) :=
  match readPosition interpreter value with
  | .ok (timestamp, identifier) => .ok (timestamp, identifier.text)
  | .error raised => if caught raised then .error .valueError else .error raised

/-! ## The way back -/

theorem characters_code_points (text : String) : characters (codePoints text) = text.toList := by
  rw [characters, codePoints, List.map_map]
  apply List.map_id''
  exact Char.ofNat_toNat

theorem loads_texts (interpreter : Interpreter) (text : String) (texts : List String) :
    loads interpreter (Utf8.encode (PythonJson.dumpsTexts (text :: texts))) =
      .ok (.list ((text :: texts).map fun text => .str (codePoints text))) := by
  have deepEnough : 0 < interpreter.limits.depth := Nat.lt_of_lt_of_le (by decide) interpreter.roomy
  have decoded := JsonBytes.decode_encode (PythonJson.dumps_texts_no_zero (text :: texts))
    (PythonJson.dumps_texts_unmarked _)
  have loaded := PythonJson.loads_dumps_texts deepEnough text texts
  simp only [loads, decoded, as_text_code_points, loaded]

theorem fromisoformat_isoformat (time : DateTime) :
    fromisoformat (.str (codePoints time.isoformat)) = .ok time := by
  rw [fromisoformat, characters_code_points, IsoFormat.parse_isoformat]

theorem uuid_text (id : Uuid) : uuid (.str (codePoints id.text)) = .ok id := by
  rw [uuid, characters_code_points, PythonUuid.parse_text]

theorem length_code_points (text : String) : (codePoints text).length = text.length := by
  rw [codePoints, List.length_map, String.length_toList]

theorem decode_encoded (interpreter : Interpreter) (createdAt : AwareTime) (id : Uuid) :
    decodeCursor interpreter (codePoints (encodeCursor createdAt.time id.text)) =
      .ok (createdAt, id.text) := by
  have short : ¬ 512 < (codePoints (encodeCursor createdAt.time id.text)).length := by
    rw [length_code_points]
    exact Nat.not_lt.mpr (length_encode_cursor_le createdAt.time id)
  have bytes : b64decode (codePoints (encodeCursor createdAt.time id.text)) =
      .ok (Utf8.encode (PythonJson.dumpsTexts [createdAt.time.isoformat, id.text])) := by
    rw [b64decode, as_text_code_points, Option.bind_some, encodeCursor, Base64.b64decode_encode]
  have position : readPosition interpreter (codePoints (encodeCursor createdAt.time id.text)) =
      .ok (createdAt, id) := by
    rw [readPosition, if_neg short, bytes]
    simp only [bind, Except.bind, loads_texts, List.map_cons, List.map_nil, readData,
      fromisoformat_isoformat, uuid_text]
    exact dif_pos createdAt.aware
  rw [decodeCursor, position]

/-! ## What else is read -/

/-- Whatever is raised belongs to a class that the `except` names. -/
def Guarded {Result : Type} (outcome : Except ExceptionClass Result) : Prop :=
  ∀ raised, outcome = .error raised → caught raised = true

namespace Guarded

variable {Result Next : Type}

theorem ok (result : Result) : Guarded (.ok result) := by
  intro raised failed
  cases failed

theorem error {raised : ExceptionClass} (named : caught raised = true) :
    Guarded (.error raised : Except ExceptionClass Result) := by
  intro other failed
  cases failed
  exact named

theorem bind {outcome : Except ExceptionClass Result} {next : Result → Except ExceptionClass Next}
    (first : Guarded outcome) (later : ∀ result, outcome = .ok result → Guarded (next result)) :
    Guarded (outcome >>= next) := by
  cases outcome with
  | ok result => exact later result rfl
  | error raised => exact error (first raised rfl)

end Guarded

theorem b64decode_guarded (value : CodePoints) : Guarded (b64decode value) := by
  unfold b64decode
  split
  · exact .ok _
  · exact .error rfl

theorem length_as_text {points : CodePoints} {text : String} (found : asText points = some text) :
    text.length = points.length := by
  have ⟨chars, isChars, same⟩ := Option.map_eq_some_iff.mp found
  rw [← same, String.length_ofList, PythonInt.length_of_read isChars]

theorem length_b64decode {value : CodePoints} {bytes : List UInt8}
    (decoded : b64decode value = .ok bytes) : 4 * bytes.length ≤ 3 * value.length := by
  unfold b64decode at decoded
  split at decoded
  · rename_i found
    cases decoded
    have ⟨text, isText, isBytes⟩ := Option.bind_eq_some_iff.mp found
    have short := Base64.length_b64decode isBytes
    rwa [length_as_text isText] at short
  · cases decoded

/-- Brackets cannot be nested deeper than there are bytes. -/
theorem loads_guarded (interpreter : Interpreter) {bytes : List UInt8}
    (short : bytes.length ≤ 384) : Guarded (loads interpreter bytes) := by
  unfold loads
  split
  · exact .error rfl
  · rename_i points isPoints
    split
    · rename_i text isText
      have roomy : text.length ≤ interpreter.limits.depth := by
        rw [length_as_text isText]
        exact (JsonBytes.length_decode isPoints).trans (short.trans interpreter.roomy)
      have shallow := PythonJson.loads_shallow roomy
      split
      · exact .ok _
      · exact .error rfl
      · rename_i deep
        exact absurd deep shallow
    · split
      · exact .ok _
      · exact .error rfl

theorem fromisoformat_guarded (value : Value) : Guarded (fromisoformat value) := by
  unfold fromisoformat
  split
  · split
    · exact .ok _
    · exact .error rfl
  · exact .error rfl

theorem uuid_guarded (value : Value) : Guarded (uuid value) := by
  unfold uuid
  split
  · split
    · exact .ok _
    · exact .error rfl
  · exact .error rfl
  · exact .error rfl

theorem read_data_guarded (data : Value) : Guarded (readData data) := by
  unfold readData
  split
  · apply Guarded.bind (fromisoformat_guarded _)
    intro timestamp _
    apply Guarded.bind (uuid_guarded _)
    intro identifier _
    split
    · exact .ok _
    · exact .error rfl
  · exact .error rfl

theorem read_position_guarded (interpreter : Interpreter) (value : CodePoints) :
    Guarded (readPosition interpreter value) := by
  unfold readPosition
  split
  · exact .error rfl
  · rename_i notLong
    apply Guarded.bind (b64decode_guarded value)
    intro bytes decoded
    have short := length_b64decode decoded
    apply Guarded.bind (loads_guarded interpreter (by omega))
    intro data _
    exact read_data_guarded data

/-- Every position is read back from its cursor, which fits the query parameter. Any other text is
refused with a `ValueError` or names a position whose own cursor is read as that position. -/
theorem cursor_codec_round_trips (interpreter : Interpreter) :
    (∀ (createdAt : AwareTime) (id : Uuid),
      decodeCursor interpreter (codePoints (encodeCursor createdAt.time id.text)) =
          .ok (createdAt, id.text) ∧
        (encodeCursor createdAt.time id.text).length ≤ 512) ∧
      ∀ value : CodePoints, decodeCursor interpreter value = .error .valueError ∨
        ∃ (createdAt : AwareTime) (id : Uuid),
          decodeCursor interpreter value = .ok (createdAt, id.text) ∧
            decodeCursor interpreter (codePoints (encodeCursor createdAt.time id.text)) =
              .ok (createdAt, id.text) := by
  constructor
  · intro createdAt id
    exact ⟨decode_encoded interpreter createdAt id, length_encode_cursor_le createdAt.time id⟩
  · intro value
    cases isPosition : readPosition interpreter value with
    | ok position =>
        right
        refine ⟨position.1, position.2, ?_, decode_encoded interpreter position.1 position.2⟩
        rw [decodeCursor, isPosition]
    | error raised =>
        left
        have named := read_position_guarded interpreter value raised isPosition
        rw [decodeCursor, isPosition]
        exact if_pos named

/-! ## The cursors of the listing

The listing compares a position by its instant and leaves the formats open. This is the reader it has
in this interpreter. -/

def Interpreter.reader (interpreter : Interpreter) : CursorReader where
  limits := interpreter.limits
  otherBytes := fun bytes =>
    match loads interpreter bytes with
    | .ok value => .value value
    | .error .recursionError => .recursionError
    | .error _ => .valueError
  otherTime := fun value => IsoFormat.parse (characters value)
  otherUuid := fun value => PythonUuid.parse (characters value)

def AwareTime.instant (createdAt : AwareTime) : Int :=
  createdAt.time.since1970 (createdAt.time.offset.get createdAt.aware)

/-- A position as the listing compares it. -/
def listed : Except ExceptionClass (AwareTime × String) → Except CursorError (Int × String)
  | .ok (createdAt, id) => .ok (createdAt.instant, id)
  | .error _ => .error .invalidApprovalCursor

theorem characters_as_text {points : CodePoints} {text : String}
    (found : asText points = some text) : characters points = text.toList := by
  have ⟨chars, isChars, same⟩ := Option.map_eq_some_iff.mp found
  rw [← same, String.toList_ofList]
  clear found same
  induction points generalizing chars with
  | nil =>
      cases isChars
      rfl
  | cons point points ih =>
      simp only [List.mapM_cons, Option.bind_eq_bind, Option.bind_eq_some_iff] at isChars
      have ⟨c, isChar, later, isLater, isCons⟩ := isChars
      cases isCons
      unfold asChar at isChar
      split at isChar
      · cases isChar
        rw [characters, List.map_cons, ← ih later isLater, characters]
      · cases isChar

theorem reader_fromisoformat (interpreter : Interpreter) (value : CodePoints) :
    interpreter.reader.fromisoformat value = IsoFormat.parse (characters value) := by
  unfold CursorReader.fromisoformat
  split
  · rename_i time found
    have ⟨text, isText, read⟩ := Option.bind_eq_some_iff.mp found
    rw [characters_as_text isText, IsoFormat.parse_of_read read]
  · rfl

theorem reader_uuid (interpreter : Interpreter) (value : CodePoints) :
    interpreter.reader.uuid value = PythonUuid.parse (characters value) := by
  unfold CursorReader.uuid
  split
  · rename_i uuid found
    have ⟨text, isText, parsed⟩ := Option.bind_eq_some_iff.mp found
    rw [characters_as_text isText, PythonUuid.parse_of_parse parsed]
  · rfl

theorem reader_loads (interpreter : Interpreter) (bytes : List UInt8) :
    PythonJson.loadsBytes interpreter.reader.limits interpreter.reader.otherBytes bytes =
      interpreter.reader.otherBytes bytes := by
  unfold PythonJson.loadsBytes
  split
  · rfl
  · rename_i noZero
    split
    · rfl
    · rename_i text decoded
      split
      · rfl
      · rename_i unmarked
        have isBytes := Utf8.encode_of_decode decoded
        rw [← isBytes] at noZero ⊢
        simp only [Interpreter.reader, loads, JsonBytes.decode_encode noZero unmarked,
          as_text_code_points]
        cases PythonJson.loads interpreter.limits text <;> rfl

theorem read_data_texts {data : Value} {position : AwareTime × Uuid}
    (read : readData data = .ok position) :
    ∃ timestamp identifier, data = .list [.str timestamp, .str identifier] := by
  unfold readData at read
  split at read
  · rename_i first second
    cases first with
    | str timestamp =>
        cases second with
        | str identifier => exact ⟨timestamp, identifier, rfl⟩
        | _ =>
            cases isTime : fromisoformat (.str timestamp) <;>
              simp [isTime, uuid, bind, Except.bind] at read
    | _ => cases read
  · cases read

theorem instant_of_aware (createdAt : AwareTime) :
    createdAt.time.instant = some createdAt.instant := by
  unfold DateTime.instant AwareTime.instant
  exact Option.map_eq_some_iff.mpr ⟨_, (Option.some_get createdAt.aware).symm, rfl⟩

theorem listed_decode_cursor (interpreter : Interpreter) (value : CodePoints) :
    listed (decodeCursor interpreter value) =
      listed ((readPosition interpreter value).map fun position =>
        (position.1, position.2.text)) := by
  unfold decodeCursor
  cases readPosition interpreter value with
  | ok position => rfl
  | error raised => cases raised <;> rfl

theorem listed_read_data (interpreter : Interpreter) (timestamp identifier : CodePoints) :
    (match interpreter.reader.fromisoformat timestamp, interpreter.reader.uuid identifier with
      | some time, some uuid =>
          match time.instant with
          | none => .error .invalidApprovalCursor
          | some instant => .ok (instant, uuid.text)
      | _, _ => .error .invalidApprovalCursor) =
      listed ((readData (.list [.str timestamp, .str identifier])).map fun position =>
        (position.1, position.2.text)) := by
  rw [reader_fromisoformat, reader_uuid]
  simp only [readData, fromisoformat, uuid, bind, Except.bind]
  cases IsoFormat.parse (characters timestamp) with
  | none => rfl
  | some time =>
      cases PythonUuid.parse (characters identifier) with
      | none => rfl
      | some id =>
          by_cases aware : time.offset.isSome = true
          · have instant := instant_of_aware ⟨time, aware⟩
            simp only [aware, dif_pos]
            dsimp only at instant ⊢
            rw [instant]
            rfl
          · have naive : time.offset = none := by simpa using aware
            simp [naive, DateTime.instant, Except.map, listed]

/-- The listing continues from the position that `decode_cursor` returns. -/
theorem listing_reads_codec (interpreter : Interpreter) (value : String) :
    Approval.decodeCursor interpreter.reader value =
      listed (decodeCursor interpreter (codePoints value)) := by
  rw [listed_decode_cursor]
  unfold Approval.decodeCursor readPosition
  rw [length_code_points]
  split
  · rfl
  · rename_i notLong
    simp only [b64decode, as_text_code_points, Option.bind_some, reader_loads]
    cases isBytes : Base64.b64decode value with
    | none => rfl
    | some bytes =>
        have short := Base64.length_b64decode isBytes
        simp only [bind, Except.bind]
        cases isValue : loads interpreter bytes with
        | error raised =>
            have named := loads_guarded interpreter (by omega) raised isValue
            have invalid : interpreter.reader.otherBytes bytes = .valueError := by
              cases raised with
              | recursionError => cases named
              | _ => simp only [Interpreter.reader, isValue]
            rw [invalid]
            rfl
        | ok data =>
            have loaded : interpreter.reader.otherBytes bytes = .value data := by
              simp only [Interpreter.reader, isValue]
            rw [loaded]
            dsimp only
            split
            · rename_i impossible
              cases impossible
            · rename_i timestamp identifier isList
              cases isList
              exact listed_read_data interpreter timestamp identifier
            · rename_i other
              cases isPosition : readData data with
              | ok position =>
                  have ⟨timestamp, identifier, isList⟩ := read_data_texts isPosition
                  exact absurd (congrArg PythonJson.Loaded.value isList)
                    (other timestamp identifier)
              | error raised => rfl

end CursorCodec

end AgentHarness.Approval
