import Mathlib.Data.List.Basic
import Mathlib.Tactic.SplitIfs

/-!
# UTF-8 bytes

A text and its bytes determine each other, and an ASCII character is one byte that no other character
contains. So a text may be cut at such a byte before it is decoded.
-/

namespace AgentHarness.Library

set_option autoImplicit false

namespace Utf8

def encode (text : String) : List UInt8 := text.toByteArray.data.toList

/-- The strict decoder: nothing but the encoding of a text is accepted. -/
def decode (bytes : List UInt8) : Option String := String.fromUTF8? bytes.toByteArray

theorem to_byte_array_encode (text : String) : (encode text).toByteArray = text.toByteArray := by
  apply ByteArray.ext
  rw [List.data_toByteArray]
  rfl

@[simp] theorem decode_encode (text : String) : decode (encode text) = some text := by
  unfold decode String.fromUTF8?
  rw [to_byte_array_encode, dif_pos text.isValidUTF8]
  rfl

theorem encode_of_decode {bytes : List UInt8} {text : String} (decoded : decode bytes = some text) :
    encode text = bytes := by
  unfold decode String.fromUTF8? at decoded
  split at decoded
  · cases decoded
    exact congrArg Array.toList List.data_toByteArray
  · cases decoded

theorem encode_eq_flat_map (text : String) :
    encode text = text.toList.flatMap String.utf8EncodeChar := by
  have listed : text.toByteArray = text.toList.utf8Encode := by
    rw [← String.toByteArray_ofList, String.ofList_toList]
  rw [encode, listed]
  exact List.toList_data_toByteArray

@[simp] theorem encode_append (left right : String) :
    encode (left ++ right) = encode left ++ encode right := by
  simp [encode_eq_flat_map]

@[simp] theorem encode_empty : encode "" = [] := rfl

/-- An ASCII character is its own code, and every byte of another character is greater. -/
theorem utf8_encode_char_cases (c : Char) :
    (c.toNat < 128 ∧ String.utf8EncodeChar c = [UInt8.ofNat c.toNat]) ∨
      (128 ≤ c.toNat ∧ ∀ byte ∈ String.utf8EncodeChar c, 128 ≤ byte.toNat) := by
  unfold String.utf8EncodeChar
  have valid := c.valid
  have isVal : c.val.toNat = c.toNat := rfl
  simp only [isVal]
  split_ifs with one two three
  · exact .inl ⟨by omega, rfl⟩
  all_goals
    right
    apply And.intro (by omega)
    simp only [List.mem_cons, List.not_mem_nil, or_false, forall_eq_or_imp, forall_eq,
      UInt8.toNat_ofNat']
    omega

/-- The byte of an ASCII character is found where the character is. -/
theorem byte_mem_encode_char {c : Char} (d : Char) (ascii : d.toNat < 128)
    (member : UInt8.ofNat d.toNat ∈ String.utf8EncodeChar c) : c = d := by
  have small : (UInt8.ofNat d.toNat).toNat = d.toNat := by
    rw [UInt8.toNat_ofNat']
    omega
  rcases utf8_encode_char_cases c with ⟨isAscii, single⟩ | ⟨_, great⟩
  · rw [single, List.mem_singleton] at member
    have same := congrArg UInt8.toNat member
    rw [small, UInt8.toNat_ofNat'] at same
    apply Char.ext
    apply UInt32.toNat_inj.mp
    have isVal : c.val.toNat = c.toNat ∧ d.val.toNat = d.toNat := ⟨rfl, rfl⟩
    omega
  · have bound := great _ member
    omega

theorem ascii_mem_encode {text : String} (d : Char) (ascii : d.toNat < 128)
    (member : UInt8.ofNat d.toNat ∈ encode text) : d ∈ text.toList := by
  rw [encode_eq_flat_map, List.mem_flatMap] at member
  obtain ⟨c, inText, inBytes⟩ := member
  exact byte_mem_encode_char d ascii inBytes ▸ inText

theorem encode_ascii {text : String} (ascii : ∀ c ∈ text.toList, c.toNat < 128) :
    encode text = text.toList.map fun c => UInt8.ofNat c.toNat := by
  rw [encode_eq_flat_map, ← List.flatMap_pure_eq_map]
  apply List.flatMap_congr
  intro c member
  rcases utf8_encode_char_cases c with ⟨_, single⟩ | ⟨great, _⟩
  · exact single
  · exact absurd (ascii c member) (Nat.not_lt.mpr great)

theorem ascii_last_encode {text : String} (d : Char) (ascii : d.toNat < 128)
    (last : (encode text).getLast? = some (UInt8.ofNat d.toNat)) :
    text.toList.getLast? = some d := by
  rw [encode_eq_flat_map] at last
  rcases List.eq_nil_or_concat text.toList with empty | ⟨front, c, isConcat⟩
  · rw [empty] at last
    cases last
  · rw [isConcat, List.concat_eq_append, List.flatMap_append, List.flatMap_singleton] at last
    rw [List.getLast?_append_of_ne_nil _ String.utf8EncodeChar_ne_nil] at last
    have same := byte_mem_encode_char d ascii (List.mem_of_getLast? last)
    rw [isConcat, List.concat_eq_append, List.getLast?_concat, same]

end Utf8

end AgentHarness.Library
