import AgentHarness.Library.Lines
import AgentHarness.Library.Utf8

/-!
# Lines of a response

`_bounded_lines` of the evaluation target: the body arrives in chunks, is bounded before it is cut
into lines, and every line is decoded when it is handed out.
-/

namespace AgentHarness.Evaluation

open AgentHarness.Library

set_option autoImplicit false

/-- The error codes of `EvaluationExecutionError` that a stream can end with. -/
inductive StreamError where
  | expectedEventStream
  | streamTooLarge
  | streamDeadlineExceeded
  | invalidEventEncoding
  | agentStreamError
  | emptyEvent
  | invalidEventJson
  | invalidEventSchema
  | conversationMismatch
  | eventTypeMismatch
  | eventAfterCompletion
  | invalidMessageDelta
  | invalidToolName
  | turnNotSuccessful
  | incompleteStream
  deriving DecidableEq, Repr

def StreamError.code : StreamError → String
  | expectedEventStream => "EXPECTED_EVENT_STREAM"
  | streamTooLarge => "STREAM_TOO_LARGE"
  | streamDeadlineExceeded => "STREAM_DEADLINE_EXCEEDED"
  | invalidEventEncoding => "INVALID_EVENT_ENCODING"
  | agentStreamError => "AGENT_STREAM_ERROR"
  | emptyEvent => "EMPTY_EVENT"
  | invalidEventJson => "INVALID_EVENT_JSON"
  | invalidEventSchema => "INVALID_EVENT_SCHEMA"
  | conversationMismatch => "CONVERSATION_MISMATCH"
  | eventTypeMismatch => "EVENT_TYPE_MISMATCH"
  | eventAfterCompletion => "EVENT_AFTER_COMPLETION"
  | invalidMessageDelta => "INVALID_MESSAGE_DELTA"
  | invalidToolName => "INVALID_TOOL_NAME"
  | turnNotSuccessful => "TURN_NOT_SUCCESSFUL"
  | incompleteStream => "INCOMPLETE_STREAM"

/-- A chunk of the body; `late` says that the clock is past the deadline when it is looked at. -/
structure Chunk where
  bytes : List UInt8
  late : Bool
  deriving DecidableEq, Repr

/-- The lines a generator has handed out, and the error it ends with, if any. -/
structure LineStream where
  lines : List String
  ending : Option StreamError
  deriving DecidableEq, Repr

def newline : UInt8 := 0x0A

def carriageReturn : UInt8 := 0x0D

/-- `line.removesuffix(b"\r")`. -/
def removeCarriageReturn (line : List UInt8) : List UInt8 :=
  if line.getLast? = some carriageReturn then line.dropLast else line

def decodeLine (line : List UInt8) : Option String := Utf8.decode (removeCarriageReturn line)

/-- The body of the inner loop for the lines that are complete. -/
def handOut : List (List UInt8) → LineStream
  | [] => ⟨[], none⟩
  | line :: lines =>
      match decodeLine line with
      | none => ⟨[], some .invalidEventEncoding⟩
      | some text => ⟨text :: (handOut lines).lines, (handOut lines).ending⟩

/-- The outer loop, with the bytes received so far and those that wait for their end of line. -/
def boundedLinesFrom (total : Nat) (pending : List UInt8) : List Chunk → LineStream
  | [] => ⟨[], none⟩
  | chunk :: chunks =>
      let total := total + chunk.bytes.length
      if 2000000 < total then ⟨[], some .streamTooLarge⟩
      else if chunk.late then ⟨[], some .streamDeadlineExceeded⟩
      else
        let found := Lines.cut newline (pending ++ chunk.bytes)
        match handOut found.1 with
        | ⟨lines, some error⟩ => ⟨lines, some error⟩
        | ⟨lines, none⟩ =>
            let later := boundedLinesFrom total found.2 chunks
            ⟨lines ++ later.lines, later.ending⟩

def boundedLines (chunks : List Chunk) : LineStream := boundedLinesFrom 0 [] chunks

def body (chunks : List Chunk) : List UInt8 := chunks.flatMap Chunk.bytes

/-- The lines of a body that are terminated. -/
def terminatedLines (bytes : List UInt8) : List (List UInt8) := (Lines.cut newline bytes).1

/-- Within the bound and the deadline. -/
structure Admitted (chunks : List Chunk) : Prop where
  size : (body chunks).length ≤ 2000000
  inTime : ∀ chunk ∈ chunks, chunk.late = false

theorem hand_out_append (left right : List (List UInt8)) :
    handOut (left ++ right) =
      match handOut left with
      | ⟨lines, some error⟩ => ⟨lines, some error⟩
      | ⟨lines, none⟩ => ⟨lines ++ (handOut right).lines, (handOut right).ending⟩ := by
  induction left with
  | nil => rfl
  | cons line left ih =>
      simp only [List.cons_append, handOut, ih]
      cases decodeLine line with
      | none => rfl
      | some text =>
          simp only
          cases handOut left with
          | mk lines ending => cases ending <;> rfl

/-- Lines that can be decoded are handed out, whatever follows them. -/
theorem hand_out_decoded (front rest : List (List UInt8)) (texts : List String)
    (decoded : front.map decodeLine = texts.map some) :
    (handOut (front ++ rest)).lines = texts ++ (handOut rest).lines := by
  induction front generalizing texts with
  | nil =>
      cases texts with
      | nil => rfl
      | cons text texts => cases decoded
  | cons line front ih =>
      cases texts with
      | nil => cases decoded
      | cons text texts =>
          simp only [List.map_cons, List.cons.injEq] at decoded
          simp only [List.cons_append, handOut, decoded.1, ih texts decoded.2]

/-- What is handed out are the first lines, decoded. -/
theorem hand_out_split (lines : List (List UInt8)) :
    ∃ front rest, lines = front ++ rest ∧ front.map decodeLine = (handOut lines).lines.map some := by
  induction lines with
  | nil => exact ⟨[], [], rfl, rfl⟩
  | cons line lines ih =>
      cases decoded : decodeLine line with
      | none => exact ⟨[], line :: lines, rfl, by simp [handOut, decoded]⟩
      | some text =>
          obtain ⟨front, rest, same, texts⟩ := ih
          refine ⟨line :: front, rest, by rw [same]; rfl, ?_⟩
          simp only [List.map_cons, handOut, decoded, texts]

theorem bounded_lines_from (chunks : List Chunk) (inTime : ∀ chunk ∈ chunks, chunk.late = false)
    (total : Nat) (pending : List UInt8) (size : total + (body chunks).length ≤ 2000000)
    (unmarked : newline ∉ pending) :
    boundedLinesFrom total pending chunks = handOut (terminatedLines (pending ++ body chunks)) := by
  induction chunks generalizing total pending with
  | nil =>
      have waiting : terminatedLines (pending ++ []) = [] := by
        rw [List.append_nil, terminatedLines, Lines.cut_of_not_mem unmarked]
      rw [body, List.flatMap_nil, waiting]
      rfl
  | cons chunk chunks ih =>
      have length : (body (chunk :: chunks)).length = chunk.bytes.length + (body chunks).length := by
        simp [body]
      have within : ¬ 2000000 < total + chunk.bytes.length := by omega
      have prompt := inTime chunk List.mem_cons_self
      have rest := (Lines.cut_spec newline (pending ++ chunk.bytes)).2.2
      have later := ih (fun other member => inTime other (List.mem_cons_of_mem chunk member))
        (total + chunk.bytes.length) (Lines.cut newline (pending ++ chunk.bytes)).2 (by omega) rest
      have whole : terminatedLines (pending ++ body (chunk :: chunks)) =
          (Lines.cut newline (pending ++ chunk.bytes)).1 ++
            terminatedLines ((Lines.cut newline (pending ++ chunk.bytes)).2 ++ body chunks) := by
        have joined : pending ++ body (chunk :: chunks) = pending ++ chunk.bytes ++ body chunks := by
          simp [body]
        rw [joined, terminatedLines, Lines.cut_append]
        rfl
      rw [whole, hand_out_append]
      simp only [boundedLinesFrom, if_neg within, prompt, Bool.false_eq_true, if_false, later]

/-- The lines do not depend on where the body was cut into chunks. -/
theorem bounded_lines_eq {chunks : List Chunk} (admitted : Admitted chunks) :
    boundedLines chunks = handOut (terminatedLines (body chunks)) := by
  have size : 0 + (body chunks).length ≤ 2000000 := by
    rw [Nat.zero_add]
    exact admitted.size
  have whole := bounded_lines_from chunks admitted.inTime 0 [] size List.not_mem_nil
  rwa [List.nil_append] at whole

/-! ## Bodies that arrive byte by byte -/

def byteByByte (bytes : List UInt8) : List Chunk := bytes.map fun byte => ⟨[byte], false⟩

theorem body_byte_by_byte (bytes : List UInt8) : body (byteByByte bytes) = bytes := by
  simp [body, byteByByte, List.flatMap_map]

theorem byte_by_byte_admitted {bytes : List UInt8} (short : bytes.length ≤ 2000000) :
    Admitted (byteByByte bytes) where
  size := by
    rw [body_byte_by_byte]
    exact short
  inTime chunk member := by
    obtain ⟨byte, -, rfl⟩ := List.mem_map.mp member
    rfl

end AgentHarness.Evaluation
