import AgentHarness.Library.PythonTexts

/-!
# The encodings of JSON

`json.loads` of bytes tells UTF-8, UTF-16 and UTF-32 apart by a byte order mark or by where the
first zeros are. The decoders also take surrogates, which no text holds.
-/

namespace AgentHarness.Library

set_option autoImplicit false

namespace JsonBytes

open PythonJson (CodePoints codePoints joinSurrogates)

/-- Code points are taken off the front until nothing is left. -/
def decodeWith (next : List UInt8 → Option (Nat × List UInt8)) :
    (fuel : Nat) → List UInt8 → Option CodePoints
  | _, [] => some []
  | 0, _ :: _ => none
  | fuel + 1, first :: rest =>
      match next (first :: rest) with
      | none => none
      | some (code, rest) => (decodeWith next fuel rest).map (code :: ·)

def isContinuation (byte : UInt8) : Bool := 0x80 ≤ byte.toNat && byte.toNat < 0xC0

/-- How many bytes follow, the bits of the first byte, and the least code point of that length. -/
def leadByte (first : Nat) : Option (Nat × Nat × Nat) :=
  if first < 0x80 then some (0, first, 0)
  else if first < 0xC0 then none
  else if first < 0xE0 then some (1, first - 0xC0, 0x80)
  else if first < 0xF0 then some (2, first - 0xE0, 0x800)
  else if first < 0xF8 then some (3, first - 0xF0, 0x10000)
  else none

def nextUtf8 : List UInt8 → Option (Nat × List UInt8)
  | [] => none
  | first :: rest =>
      match leadByte first.toNat with
      | none => none
      | some (count, bits, least) =>
          let tail := rest.take count
          let code := tail.foldl (fun code byte => code * 64 + (byte.toNat - 0x80)) bits
          if tail.length = count ∧ tail.all isContinuation ∧ least ≤ code ∧ code < 0x110000 then
            some (code, rest.drop count)
          else none

def nextUtf16 (bigEndian : Bool) : List UInt8 → Option (Nat × List UInt8)
  | first :: second :: rest =>
      some (if bigEndian then first.toNat * 256 + second.toNat
        else second.toNat * 256 + first.toNat, rest)
  | _ => none

def nextUtf32 (bigEndian : Bool) : List UInt8 → Option (Nat × List UInt8)
  | first :: second :: third :: fourth :: rest =>
      let code :=
        if bigEndian then
          ((first.toNat * 256 + second.toNat) * 256 + third.toNat) * 256 + fourth.toNat
        else ((fourth.toNat * 256 + third.toNat) * 256 + second.toNat) * 256 + first.toNat
      if code < 0x110000 then some (code, rest) else none
  | _ => none

inductive Encoding where
  | utf8
  | utf16 (bigEndian : Bool)
  | utf32 (bigEndian : Bool)
  deriving DecidableEq, Repr

/-- `detect_encoding`, with the bytes behind the mark. -/
def detectEncoding (bytes : List UInt8) : Encoding × List UInt8 :=
  if bytes.take 4 = [0, 0, 0xFE, 0xFF] then (.utf32 true, bytes.drop 4)
  else if bytes.take 4 = [0xFF, 0xFE, 0, 0] then (.utf32 false, bytes.drop 4)
  else if bytes.take 2 = [0xFE, 0xFF] then (.utf16 true, bytes.drop 2)
  else if bytes.take 2 = [0xFF, 0xFE] then (.utf16 false, bytes.drop 2)
  else if bytes.take 3 = [0xEF, 0xBB, 0xBF] then (.utf8, bytes.drop 3)
  else if 4 ≤ bytes.length then
    if bytes[0]? = some 0 then (if bytes[1]? = some 0 then .utf32 true else .utf16 true, bytes)
    else if bytes[1]? = some 0 then
      (if bytes[2]? = some 0 ∧ bytes[3]? = some 0 then .utf32 false else .utf16 false, bytes)
    else (.utf8, bytes)
  else if bytes.length = 2 then
    if bytes[0]? = some 0 then (.utf16 true, bytes)
    else if bytes[1]? = some 0 then (.utf16 false, bytes)
    else (.utf8, bytes)
  else (.utf8, bytes)

def decodeAs (encoding : Encoding) (bytes : List UInt8) : Option CodePoints :=
  match encoding with
  | .utf8 => decodeWith nextUtf8 bytes.length bytes
  | .utf16 bigEndian => (decodeWith (nextUtf16 bigEndian) bytes.length bytes).map joinSurrogates
  | .utf32 bigEndian => decodeWith (nextUtf32 bigEndian) bytes.length bytes

/-- `bytes.decode(detect_encoding(bytes), "surrogatepass")`. -/
def decode (bytes : List UInt8) : Option CodePoints :=
  let (encoding, bytes) := detectEncoding bytes
  decodeAs encoding bytes

/-! ## No more code points than bytes -/

theorem length_decode_with {next : List UInt8 → Option (Nat × List UInt8)} {fuel : Nat}
    {bytes : List UInt8} {points : CodePoints}
    (decoded : decodeWith next fuel bytes = some points) : points.length ≤ fuel := by
  induction fuel generalizing bytes points with
  | zero =>
      cases bytes with
      | nil =>
          cases decoded
          exact Nat.le_refl 0
      | cons first rest => cases decoded
  | succ fuel ih =>
      cases bytes with
      | nil =>
          cases decoded
          exact Nat.zero_le _
      | cons first rest =>
          rw [decodeWith] at decoded
          split at decoded
          · cases decoded
          · have ⟨later, decodedLater, same⟩ := Option.map_eq_some_iff.mp decoded
            cases same
            exact Nat.succ_le_succ (ih decodedLater)

theorem length_join_surrogates (units : List Nat) :
    (joinSurrogates units).length ≤ units.length := by
  fun_induction joinSurrogates units with
  | case1 high low rest joined ih =>
      simp only [List.length_cons]
      omega
  | case2 high low rest separate ih =>
      simp only [List.length_cons] at ih ⊢
      omega
  | case3 rest short => exact Nat.le_refl _

theorem length_decode_as {encoding : Encoding} {bytes : List UInt8} {points : CodePoints}
    (decoded : decodeAs encoding bytes = some points) : points.length ≤ bytes.length := by
  cases encoding with
  | utf8 => exact length_decode_with decoded
  | utf16 bigEndian =>
      have ⟨units, isUnits, joined⟩ := Option.map_eq_some_iff.mp decoded
      rw [← joined]
      exact (length_join_surrogates units).trans (length_decode_with isUnits)
  | utf32 bigEndian => exact length_decode_with decoded

theorem length_detected (bytes : List UInt8) : (detectEncoding bytes).2.length ≤ bytes.length := by
  unfold detectEncoding
  split_ifs
  all_goals
    simp only [List.length_drop]
    omega

theorem length_decode {bytes : List UInt8} {points : CodePoints}
    (decoded : decode bytes = some points) : points.length ≤ bytes.length :=
  (length_decode_as decoded).trans (length_detected bytes)

/-! ## A text in UTF-8 is read back -/

theorem next_utf8_of_lead {first : UInt8} {tail rest : List UInt8} {bits least code : Nat}
    (lead : leadByte first.toNat = some (tail.length, bits, least))
    (follows : tail.all isContinuation = true)
    (isCode : tail.foldl (fun code byte => code * 64 + (byte.toNat - 0x80)) bits = code)
    (shortest : least ≤ code) (inRange : code < 0x110000) :
    nextUtf8 (first :: (tail ++ rest)) = some (code, rest) := by
  simp only [nextUtf8, lead, List.take_left', List.drop_left', isCode]
  exact if_pos ⟨trivial, follows, shortest, inRange⟩

theorem next_utf8_char (c : Char) (rest : List UInt8) :
    nextUtf8 (String.utf8EncodeChar c ++ rest) = some (c.toNat, rest) := by
  have range := PythonJson.char_range c
  have isVal : c.val.toNat = c.toNat := rfl
  unfold String.utf8EncodeChar
  simp only [isVal]
  split_ifs with one two three
  all_goals
    rw [List.cons_append]
    apply next_utf8_of_lead
  · rw [UInt8.toNat_ofNat', leadByte, if_pos (by omega)]
    rfl
  · rfl
  · simp only [List.foldl_nil]
    omega
  · omega
  · omega
  · rw [UInt8.toNat_ofNat', leadByte, if_neg (by omega), if_neg (by omega), if_pos (by omega)]
    rfl
  · simp [isContinuation]
    omega
  · simp only [List.foldl_cons, List.foldl_nil, UInt8.toNat_ofNat']
    omega
  · omega
  · omega
  · rw [UInt8.toNat_ofNat', leadByte, if_neg (by omega), if_neg (by omega), if_neg (by omega),
      if_pos (by omega)]
    rfl
  · simp [isContinuation]
    omega
  · simp only [List.foldl_cons, List.foldl_nil, UInt8.toNat_ofNat']
    omega
  · omega
  · omega
  · rw [UInt8.toNat_ofNat', leadByte, if_neg (by omega), if_neg (by omega), if_neg (by omega),
      if_neg (by omega), if_pos (by omega)]
    rfl
  · simp [isContinuation]
    omega
  · simp only [List.foldl_cons, List.foldl_nil, UInt8.toNat_ofNat']
    omega
  · omega
  · omega

theorem decode_with_cons {next : List UInt8 → Option (Nat × List UInt8)} {fuel code : Nat}
    {bytes rest : List UInt8} (nonempty : bytes ≠ []) (taken : next bytes = some (code, rest)) :
    decodeWith next (fuel + 1) bytes = (decodeWith next fuel rest).map (code :: ·) := by
  cases bytes with
  | nil => exact absurd rfl nonempty
  | cons first later => rw [decodeWith, taken]

theorem decode_with_chars (chars : List Char) (fuel : Nat) (enough : chars.length ≤ fuel) :
    decodeWith nextUtf8 fuel (chars.flatMap String.utf8EncodeChar) =
      some (chars.map Char.toNat) := by
  induction chars generalizing fuel with
  | nil => cases fuel <;> rfl
  | cons c chars ih =>
      cases fuel with
      | zero => cases enough
      | succ fuel =>
          have nonempty : String.utf8EncodeChar c ++ chars.flatMap String.utf8EncodeChar ≠ [] := by
            simp [String.utf8EncodeChar_ne_nil]
          rw [List.flatMap_cons, decode_with_cons nonempty (next_utf8_char c _),
            ih fuel (Nat.le_of_succ_le_succ enough)]
          rfl

theorem length_chars_le (chars : List Char) :
    chars.length ≤ (chars.flatMap String.utf8EncodeChar).length := by
  induction chars with
  | nil => exact Nat.le_refl 0
  | cons c chars ih =>
      have positive := List.length_pos_of_ne_nil (String.utf8EncodeChar_ne_nil (c := c))
      rw [List.flatMap_cons, List.length_append, List.length_cons]
      omega

/-- Without a mark or a zero in front, bytes that start like UTF-8 are read as UTF-8. -/
theorem detect_utf8 {bytes rest : List UInt8} {code : Nat}
    (taken : nextUtf8 bytes = some (code, rest)) (unmarked : code ≠ 0xFEFF)
    (noZero : 0 ∉ bytes.take 2) : detectEncoding bytes = (.utf8, bytes) := by
  have different : ∀ (count : Nat) (mark : List UInt8), (∀ rest, nextUtf8 (mark ++ rest) = none ∨
      ∃ after, nextUtf8 (mark ++ rest) = some (0xFEFF, after)) → bytes.take count ≠ mark := by
    intro count mark starts same
    have start := starts (bytes.drop count)
    rw [← same, List.take_append_drop, taken] at start
    rcases start with missing | ⟨after, isMark⟩
    · cases missing
    · cases isMark
      exact unmarked rfl
  have first : bytes[0]? ≠ some 0 := by
    intro isZero
    apply noZero
    rw [← List.getElem?_take_of_lt (by decide : 0 < 2)] at isZero
    exact List.mem_of_getElem? isZero
  have second : bytes[1]? ≠ some 0 := by
    intro isZero
    apply noZero
    rw [← List.getElem?_take_of_lt (by decide : 1 < 2)] at isZero
    exact List.mem_of_getElem? isZero
  have zeros : bytes.take 4 ≠ [0, 0, 0xFE, 0xFF] := by
    intro same
    apply first
    rw [← List.getElem?_take_of_lt (by decide : 0 < 4), same]
    rfl
  rw [detectEncoding, if_neg zeros, if_neg (different 4 _ fun _ => .inl rfl),
    if_neg (different 2 _ fun _ => .inl rfl), if_neg (different 2 _ fun _ => .inl rfl),
    if_neg (different 3 _ fun rest => .inr ⟨rest, rfl⟩)]
  simp only [first, second, if_false, ite_self]

/-- Nothing is lost between a text and its bytes. -/
theorem decode_encode {text : String} (noZero : 0 ∉ (Utf8.encode text).take 2)
    (unmarked : text.toList.head? ≠ some (Char.ofNat 0xFEFF)) :
    decode (Utf8.encode text) = some (codePoints text) := by
  have chars := Utf8.encode_eq_flat_map text
  have decoded := decode_with_chars text.toList _ (length_chars_le text.toList)
  rw [← chars] at decoded
  have detected : detectEncoding (Utf8.encode text) = (.utf8, Utf8.encode text) := by
    rw [chars] at noZero ⊢
    cases isList : text.toList with
    | nil => rfl
    | cons c rest =>
        rw [isList] at noZero unmarked
        rw [List.flatMap_cons] at noZero ⊢
        apply detect_utf8 (next_utf8_char c _) _ noZero
        intro isMark
        apply unmarked
        rw [List.head?_cons, ← isMark, Char.ofNat_toNat]
  rw [decode, detected]
  exact decoded

end JsonBytes

end AgentHarness.Library
