import AgentHarness.Library.PythonTexts

/-!
# Strings of Java

A `String` of Java is a list of UTF-16 units, which need not be a text: a surrogate may stand alone.
-/

namespace AgentHarness.Library

open PythonJson

set_option autoImplicit false

abbrev JavaString := List UInt16

namespace JavaString

def ofString (text : String) : JavaString :=
  (text.toList.flatMap utf16Units).map UInt16.ofNat

/-- `getBytes(UTF_8)`: a surrogate that stands alone is replaced by `?`. -/
def getBytes (units : JavaString) : List UInt8 :=
  (joinSurrogates (units.map UInt16.toNat)).flatMap fun code =>
    if code.isValidChar then String.utf8EncodeChar (Char.ofNat code) else [0x3F]

theorem utf16_units_small (c : Char) : ∀ unit ∈ utf16Units c, unit < 65536 := by
  intro unit member
  have range := char_range c
  rw [utf16Units] at member
  split_ifs at member with small
  · rw [List.mem_singleton.mp member]
    exact small
  · simp only [List.mem_cons, List.not_mem_nil, or_false] at member
    omega

theorem units_of_string (text : String) :
    (ofString text).map UInt16.toNat = text.toList.flatMap utf16Units := by
  rw [ofString, List.map_map]
  calc (text.toList.flatMap utf16Units).map (UInt16.toNat ∘ UInt16.ofNat)
      = (text.toList.flatMap utf16Units).map id := by
        apply List.map_congr_left
        intro unit member
        have ⟨c, _, inChar⟩ := List.mem_flatMap.mp member
        exact UInt16.toNat_ofNat_of_lt' (utf16_units_small c unit inChar)
    _ = text.toList.flatMap utf16Units := List.map_id _

/-- The bytes of a text are its UTF-8 encoding. -/
theorem get_bytes_of_string (text : String) : getBytes (ofString text) = Utf8.encode text := by
  rw [getBytes, units_of_string, join_surrogates_units, Utf8.encode_eq_flat_map, List.flatMap_map]
  apply List.flatMap_congr
  intro c _
  have valid : c.toNat.isValidChar := c.valid
  rw [if_pos valid, Char.ofNat_toNat]

theorem of_string_injective {left right : String} (same : ofString left = ofString right) :
    left = right := by
  have bytes := congrArg getBytes same
  rw [get_bytes_of_string, get_bytes_of_string] at bytes
  have decoded := congrArg Utf8.decode bytes
  rwa [Utf8.decode_encode, Utf8.decode_encode, Option.some.injEq] at decoded

end JavaString

end AgentHarness.Library
