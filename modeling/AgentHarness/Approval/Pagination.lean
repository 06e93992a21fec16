import AgentHarness.Approval.ApprovalRequest
import AgentHarness.Library.Base64
import AgentHarness.Library.DateTime
import AgentHarness.Library.PythonTexts
import AgentHarness.Library.Uuid

/-!
# The cursor of the approval page

The creation time and the id of the last row, as JSON in base64. Whoever asks for a page may send any
text as cursor.
-/

namespace AgentHarness.Approval

open AgentHarness.Library
open AgentHarness.Library.PythonJson (CodePoints codePoints Limits Loaded)

set_option autoImplicit false

/-- The interpreter. What it makes of inputs in other forms than the ones a cursor is written in
(bytes that are not UTF-8, other ISO 8601 texts, other spellings of a UUID) may be anything. -/
structure CursorReader where
  limits : Limits
  otherBytes : List UInt8 → Loaded
  otherTime : CodePoints → Option DateTime
  otherUuid : CodePoints → Option Uuid

inductive CursorError where
  | invalidApprovalCursor
  | recursionError
  deriving DecidableEq, Repr

def asChar (codePoint : Nat) : Option Char :=
  if codePoint.isValidChar then some (Char.ofNat codePoint) else none

/-- A `str` without surrogates. -/
def asText (value : CodePoints) : Option String := (value.mapM asChar).map String.ofList

namespace CursorReader

variable (reader : CursorReader)

def fromisoformat (value : CodePoints) : Option DateTime :=
  match (asText value).bind DateTime.readIsoformat with
  | some time => some time
  | none => reader.otherTime value

def uuid (value : CodePoints) : Option Uuid :=
  match (asText value).bind Uuid.parse with
  | some uuid => some uuid
  | none => reader.otherUuid value

end CursorReader

def encodeCursor (createdAt : DateTime) (approvalId : String) : String :=
  Base64.urlsafeB64encode (Utf8.encode (PythonJson.dumpsTexts [createdAt.isoformat, approvalId]))

/-- The creation time is compared as an instant. -/
def decodeCursor (reader : CursorReader) (value : String) : Except CursorError (Int × String) :=
  if 512 < value.length then .error .invalidApprovalCursor
  else match Base64.b64decode value with
    | none => .error .invalidApprovalCursor
    | some bytes =>
        match PythonJson.loadsBytes reader.limits reader.otherBytes bytes with
        | .recursionError => .error .recursionError
        | .value (.list [.str timestamp, .str identifier]) =>
            match reader.fromisoformat timestamp, reader.uuid identifier with
            | some time, some uuid =>
                match time.instant with
                | none => .error .invalidApprovalCursor
                | some instant => .ok (instant, uuid.text)
            | _, _ => .error .invalidApprovalCursor
        | _ => .error .invalidApprovalCursor

/-! ## The way back -/

theorem as_text_code_points (text : String) : asText (codePoints text) = some text := by
  have read : ∀ chars : List Char, (chars.map Char.toNat).mapM asChar = some chars := by
    intro chars
    induction chars with
    | nil => rfl
    | cons c chars ih =>
        have valid : c.toNat.isValidChar := c.valid
        simp [List.mapM_cons, ih, asChar, valid]
  rw [asText, codePoints, read, Option.map_some, String.ofList_toList]

theorem fromisoformat_isoformat (reader : CursorReader) (time : DateTime) :
    reader.fromisoformat (codePoints time.isoformat) = some time := by
  rw [CursorReader.fromisoformat, as_text_code_points, Option.bind_some, DateTime.read_isoformat]

theorem uuid_text (reader : CursorReader) (uuid : Uuid) :
    reader.uuid (codePoints uuid.text) = some uuid := by
  rw [CursorReader.uuid, as_text_code_points, Option.bind_some, Uuid.parse_text]

theorem digit_range {c : Char} (isDigit : c.isDigit = true) : 48 ≤ c.toNat ∧ c.toNat ≤ 57 := by
  simpa [Char.isDigit, UInt32.le_iff_toNat_le] using isDigit

theorem isoformat_unescaped (time : DateTime) :
    ∀ c ∈ time.isoformat.toList, PythonJson.Unescaped c := by
  intro c member
  rcases DateTime.isoformat_stamp time c member with isDigit | isMark
  · have range := digit_range isDigit
    refine ⟨by omega, by omega, ?_, ?_⟩
    · rintro rfl
      exact absurd range (by decide)
    · rintro rfl
      exact absurd range (by decide)
  · have unescaped : ∀ mark ∈ DateTime.marks, PythonJson.Unescaped mark := by
      simp only [DateTime.marks, PythonJson.Unescaped, List.mem_cons, List.not_mem_nil, or_false,
        forall_eq_or_imp, forall_eq]
      decide
    exact unescaped c isMark

theorem uuid_text_unescaped (uuid : Uuid) : ∀ c ∈ uuid.text.toList, PythonJson.Unescaped c := by
  have digits : ∀ value : Fin 16, PythonJson.Unescaped (Uuid.digit value) := by
    unfold PythonJson.Unescaped
    decide
  have dash : PythonJson.Unescaped '-' := by
    unfold PythonJson.Unescaped
    decide
  intro c member
  rcases uuid.text_chars c member with rfl | ⟨value, rfl⟩
  · exact dash
  · exact digits value

theorem length_encode_cursor_le (createdAt : DateTime) (uuid : Uuid) :
    (encodeCursor createdAt uuid.text).length ≤ 512 := by
  have time := DateTime.length_isoformat_le createdAt
  have json : (PythonJson.dumpsTexts [createdAt.isoformat, uuid.text]).length ≤ 86 := by
    rw [PythonJson.dumpsTexts, String.length_ofList]
    simp only [List.map_cons, List.map_nil, List.intercalate_cons_cons,
      List.intercalate_singleton, List.length_cons, List.length_append, List.length_nil,
      PythonJson.length_ascii_quote (isoformat_unescaped createdAt),
      PythonJson.length_ascii_quote (uuid_text_unescaped uuid), Uuid.length_text]
    omega
  rw [encodeCursor, Base64.length_encode, PythonJson.encode_dumps_texts]
  omega

/-- A cursor that was given out is read as the position it was made of. -/
theorem decode_encode_cursor (reader : CursorReader) (deepEnough : 0 < reader.limits.depth)
    (createdAt : DateTime) (uuid : Uuid) {instant : Int} (aware : createdAt.instant = some instant) :
    decodeCursor reader (encodeCursor createdAt uuid.text) = .ok (instant, uuid.text) := by
  have short := length_encode_cursor_le createdAt uuid
  have loaded := PythonJson.loads_bytes_dumps_texts deepEnough reader.otherBytes
    createdAt.isoformat [uuid.text]
  rw [decodeCursor, if_neg (Nat.not_lt.mpr short), encodeCursor, Base64.b64decode_encode]
  simp only [loaded, List.map_cons, List.map_nil, fromisoformat_isoformat, uuid_text, aware]

end AgentHarness.Approval
