import Mathlib.Data.List.Basic

/-!
# Base64

`base64.urlsafe_b64encode`, and `base64.b64decode` with `altchars=b"-_"` and `validate=True`: padding
is required, bits beyond the last byte are ignored, and the letters of both alphabets are read.
-/

namespace AgentHarness.Library

set_option autoImplicit false

namespace Base64

/-- The letter of six bits. -/
def letter (value : Nat) : Char :=
  if value < 26 then Char.ofNat (65 + value)
  else if value < 52 then Char.ofNat (71 + value)
  else if value < 62 then Char.ofNat (value - 4)
  else if value = 62 then '-'
  else '_'

def letterValue (c : Char) : Option Nat :=
  if 'A' ≤ c ∧ c ≤ 'Z' then some (c.toNat - 65)
  else if 'a' ≤ c ∧ c ≤ 'z' then some (c.toNat - 71)
  else if '0' ≤ c ∧ c ≤ '9' then some (c.toNat + 4)
  else if c = '-' ∨ c = '+' then some 62
  else if c = '_' ∨ c = '/' then some 63
  else none

def encodeGroups : List UInt8 → List Char
  | first :: second :: third :: rest =>
      letter (first.toNat / 4) :: letter (first.toNat % 4 * 16 + second.toNat / 16) ::
        letter (second.toNat % 16 * 4 + third.toNat / 64) :: letter (third.toNat % 64) ::
        encodeGroups rest
  | [first, second] =>
      [letter (first.toNat / 4), letter (first.toNat % 4 * 16 + second.toNat / 16),
        letter (second.toNat % 16 * 4), '=']
  | [first] => [letter (first.toNat / 4), letter (first.toNat % 4 * 16), '=', '=']
  | [] => []

def urlsafeB64encode (bytes : List UInt8) : String := String.ofList (encodeGroups bytes)

/-- The bytes of the last group, whose fourth character is padding. -/
def decodeLast (first second third : Char) : Option (List UInt8) := do
  let a ← letterValue first
  let b ← letterValue second
  if third = '=' then some [UInt8.ofNat (a * 4 + b / 16)]
  else
    let c ← letterValue third
    some [UInt8.ofNat (a * 4 + b / 16), UInt8.ofNat (b % 16 * 16 + c / 4)]

def decodeGroups : List Char → Option (List UInt8)
  | [] => some []
  | first :: second :: third :: fourth :: rest =>
      if rest = [] ∧ fourth = '=' then decodeLast first second third
      else do
        let a ← letterValue first
        let b ← letterValue second
        let c ← letterValue third
        let d ← letterValue fourth
        let later ← decodeGroups rest
        some (UInt8.ofNat (a * 4 + b / 16) :: UInt8.ofNat (b % 16 * 16 + c / 4) ::
          UInt8.ofNat (c % 4 * 64 + d) :: later)
  | _ => none

def b64decode (text : String) : Option (List UInt8) := decodeGroups text.toList

theorem letter_value_letter : ∀ value, value < 64 → letterValue (letter value) = some value := by
  decide

theorem letter_ne_padding : ∀ value, value < 64 → letter value ≠ '=' := by decide

theorem of_nat_eq {value : Nat} {byte : UInt8} (same : value = byte.toNat) :
    UInt8.ofNat value = byte := by
  rw [same, UInt8.ofNat_toNat]

theorem decode_encode_groups (bytes : List UInt8) :
    decodeGroups (encodeGroups bytes) = some bytes := by
  fun_induction encodeGroups bytes with
  | case1 first second third rest ih =>
      have firstByte := first.toNat_lt
      have secondByte := second.toNat_lt
      have thirdByte := third.toNat_lt
      have unpadded := letter_ne_padding (third.toNat % 64) (by omega)
      have firstBack : UInt8.ofNat (first.toNat / 4 * 4 +
          (first.toNat % 4 * 16 + second.toNat / 16) / 16) = first := of_nat_eq (by omega)
      have secondBack : UInt8.ofNat ((first.toNat % 4 * 16 + second.toNat / 16) % 16 * 16 +
          (second.toNat % 16 * 4 + third.toNat / 64) / 4) = second := of_nat_eq (by omega)
      have thirdBack : UInt8.ofNat ((second.toNat % 16 * 4 + third.toNat / 64) % 4 * 64 +
          third.toNat % 64) = third := of_nat_eq (by omega)
      rw [decodeGroups, if_neg (fun padded => unpadded padded.2),
        letter_value_letter _ (by omega), letter_value_letter _ (by omega),
        letter_value_letter _ (by omega), letter_value_letter _ (by omega), ih]
      simp only [Option.bind_eq_bind, Option.bind_some, firstBack, secondBack, thirdBack]
  | case2 first second =>
      have firstByte := first.toNat_lt
      have secondByte := second.toNat_lt
      have unpadded := letter_ne_padding (second.toNat % 16 * 4) (by omega)
      have firstBack : UInt8.ofNat (first.toNat / 4 * 4 +
          (first.toNat % 4 * 16 + second.toNat / 16) / 16) = first := of_nat_eq (by omega)
      have secondBack : UInt8.ofNat ((first.toNat % 4 * 16 + second.toNat / 16) % 16 * 16 +
          second.toNat % 16 * 4 / 4) = second := of_nat_eq (by omega)
      rw [decodeGroups, if_pos ⟨rfl, rfl⟩, decodeLast, letter_value_letter _ (by omega),
        letter_value_letter _ (by omega), letter_value_letter _ (by omega)]
      simp only [Option.bind_eq_bind, Option.bind_some, if_neg unpadded, firstBack, secondBack]
  | case3 first =>
      have firstByte := first.toNat_lt
      have firstBack : UInt8.ofNat (first.toNat / 4 * 4 + first.toNat % 4 * 16 / 16) = first :=
        of_nat_eq (by omega)
      rw [decodeGroups, if_pos ⟨rfl, rfl⟩, decodeLast, letter_value_letter _ (by omega),
        letter_value_letter _ (by omega)]
      simp only [Option.bind_eq_bind, Option.bind_some, if_pos, firstBack]
  | case4 => rfl

/-- What is encoded is read back. -/
theorem b64decode_encode (bytes : List UInt8) : b64decode (urlsafeB64encode bytes) = some bytes := by
  rw [b64decode, urlsafeB64encode, String.toList_ofList, decode_encode_groups]

theorem length_encode_groups (bytes : List UInt8) :
    (encodeGroups bytes).length = (bytes.length + 2) / 3 * 4 := by
  fun_induction encodeGroups bytes with
  | case1 first second third rest ih =>
      simp only [List.length_cons, ih]
      omega
  | case2 first second => simp
  | case3 first => simp
  | case4 => rfl

theorem length_encode (bytes : List UInt8) :
    (urlsafeB64encode bytes).length = (bytes.length + 2) / 3 * 4 := by
  rw [urlsafeB64encode, String.length_ofList, length_encode_groups]

theorem length_decode_last {first second third : Char} {bytes : List UInt8}
    (decoded : decodeLast first second third = some bytes) : bytes.length ≤ 2 := by
  simp only [decodeLast, Option.bind_eq_bind, Option.bind_eq_some_iff] at decoded
  have ⟨a, _, b, _, tail⟩ := decoded
  split at tail
  · cases tail
    exact Nat.le_succ 1
  · have ⟨c, _, same⟩ := Option.bind_eq_some_iff.mp tail
    cases same
    exact Nat.le_refl 2

theorem length_decode_groups {chars : List Char} {bytes : List UInt8}
    (decoded : decodeGroups chars = some bytes) : 4 * bytes.length ≤ 3 * chars.length := by
  fun_induction decodeGroups chars generalizing bytes with
  | case1 =>
      cases decoded
      exact Nat.le_refl 0
  | case2 first second third fourth rest isLast =>
      have short := length_decode_last decoded
      simp only [List.length_cons]
      omega
  | case3 first second third fourth rest notLast ih =>
      simp only [Option.bind_eq_bind, Option.bind_eq_some_iff] at decoded
      have ⟨a, _, b, _, c, _, d, _, later, isLater, same⟩ := decoded
      cases same
      have inner := ih isLater
      simp only [List.length_cons]
      omega
  | case4 => cases decoded

/-- Four characters are three bytes at most. -/
theorem length_b64decode {text : String} {bytes : List UInt8}
    (decoded : b64decode text = some bytes) : 4 * bytes.length ≤ 3 * text.length := by
  have short := length_decode_groups decoded
  rwa [String.length_toList] at short

end Base64

end AgentHarness.Library
