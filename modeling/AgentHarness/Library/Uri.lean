import Mathlib.Data.List.Basic
import Mathlib.Tactic.SplitIfs

/-!
# Paths of URIs

Percent-encoding of a value that stands for a variable of a template, and the removal of dot
segments. A value is encoded into one segment that can be read back, but `.` and `..` are encoded as
themselves.
-/

namespace AgentHarness.Library

set_option autoImplicit false

namespace Uri

/-! ## Percent-encoding -/

def isUnreserved (c : Char) : Bool :=
  c.isAlphanum || c = '-' || c = '.' || c = '_' || c = '~'

def upperHex (n : Nat) : Char := if n < 10 then Char.ofNat (48 + n) else Char.ofNat (55 + n)

def hexValue (c : Char) : Option Nat :=
  if c.isDigit then some (c.toNat - 48)
  else if 'A' ≤ c ∧ c ≤ 'F' then some (c.toNat - 55)
  else if 'a' ≤ c ∧ c ≤ 'f' then some (c.toNat - 87)
  else none

def encodeByte (byte : UInt8) : List Char :=
  let c := Char.ofNat byte.toNat
  if isUnreserved c then [c] else ['%', upperHex (byte.toNat / 16), upperHex (byte.toNat % 16)]

def encode (bytes : List UInt8) : List Char := bytes.flatMap encodeByte

def decode : List Char → Option (List UInt8)
  | [] => some []
  | '%' :: high :: low :: rest =>
      match hexValue high, hexValue low with
      | some high, some low => (decode rest).map (UInt8.ofNat (16 * high + low) :: ·)
      | _, _ => none
  | c :: rest =>
      if c = '%' ∨ 128 ≤ c.toNat then none else (decode rest).map (UInt8.ofNat c.toNat :: ·)

theorem hex_value_upper_hex : ∀ n, n < 16 → hexValue (upperHex n) = some n := by decide

theorem unreserved_ascii {c : Char} (unreserved : isUnreserved c = true) :
    c ≠ '%' ∧ c ≠ '/' ∧ c.toNat < 128 := by
  have notPercent : c ≠ '%' := by
    rintro rfl
    revert unreserved
    decide
  have notSlash : c ≠ '/' := by
    rintro rfl
    revert unreserved
    decide
  apply And.intro notPercent
  apply And.intro notSlash
  delta isUnreserved Char.isAlphanum Char.isAlpha Char.isUpper Char.isLower Char.isDigit
    at unreserved
  simp only [Bool.or_eq_true, Bool.and_eq_true, decide_eq_true_eq, ge_iff_le,
    UInt32.le_iff_toNat_le] at unreserved
  have isVal : c.val.toNat = c.toNat := rfl
  have upper : 'Z'.val.toNat = 90 := rfl
  have lower : 'z'.val.toNat = 122 := rfl
  have digit : '9'.val.toNat = 57 := rfl
  rcases unreserved with (((alphanum | rfl) | rfl) | rfl) | rfl
  · omega
  all_goals decide

theorem decode_encode_byte (byte : UInt8) (rest : List Char) :
    decode (encodeByte byte ++ rest) = (decode rest).map (byte :: ·) := by
  have small : byte.toNat < 256 := byte.toNat_lt
  have valid : byte.toNat.isValidChar := .inl (by omega)
  rw [encodeByte]
  split
  · rename_i unreserved
    have ⟨notPercent, _, ascii⟩ := unreserved_ascii unreserved
    have code : (Char.ofNat byte.toNat).toNat = byte.toNat := by
      rw [Char.ofNat, dif_pos valid]
      rfl
    rw [List.singleton_append, decode]
    · rw [if_neg (by simp only [notPercent, false_or]; omega), code, UInt8.ofNat_toNat]
    · intro high low later percent
      exact absurd percent notPercent
  · rw [List.cons_append, List.cons_append, List.singleton_append, decode,
      hex_value_upper_hex _ (by omega), hex_value_upper_hex _ (by omega)]
    have whole : 16 * (byte.toNat / 16) + byte.toNat % 16 = byte.toNat := by omega
    simp only [whole, UInt8.ofNat_toNat]

@[simp] theorem decode_encode (bytes : List UInt8) : decode (encode bytes) = some bytes := by
  induction bytes with
  | nil => rfl
  | cons byte bytes ih =>
      have unfolded : encode (byte :: bytes) = encodeByte byte ++ encode bytes := rfl
      rw [unfolded, decode_encode_byte, ih, Option.map_some]

theorem encode_injective {left right : List UInt8} (same : encode left = encode right) :
    left = right := by
  have decoded := congrArg decode same
  rwa [decode_encode, decode_encode, Option.some.injEq] at decoded

theorem upper_hex_ne_slash : ∀ n, n < 16 → upperHex n ≠ '/' := by decide

theorem slash_not_mem_encode (bytes : List UInt8) : '/' ∉ encode bytes := by
  intro member
  have ⟨byte, _, inByte⟩ := List.mem_flatMap.mp member
  have small : byte.toNat < 256 := byte.toNat_lt
  rw [encodeByte] at inByte
  split at inByte
  · rename_i unreserved
    exact (unreserved_ascii unreserved).2.1 (List.mem_singleton.mp inByte).symm
  · simp only [List.mem_cons, List.not_mem_nil, or_false] at inByte
    rcases inByte with percent | high | low
    · simp at percent
    · exact upper_hex_ne_slash _ (by omega) high.symm
    · exact upper_hex_ne_slash _ (by omega) low.symm

/-! ## Templates -/

/-- The template with its variable replaced. -/
def expand : List Char → List Char → List Char
  | [], _ => []
  | '{' :: rest, value => value ++ (rest.dropWhile (· ≠ '}')).drop 1
  | c :: rest, value => c :: expand rest value

/-! ## Dot segments -/

/-- The output without its last segment and the slash before it. -/
def dropSegment (output : List Char) : List Char :=
  ((output.reverse.dropWhile (· ≠ '/')).drop 1).reverse

/-- One round for each segment of the input: a dot segment is dropped, any other is moved to the
output. -/
def removeDots : Nat → List Char → List Char → List Char
  | 0, _, output | _, [], output => output
  | fuel + 1, '/' :: input, output =>
      let segment := input.takeWhile (· ≠ '/')
      let rest := input.dropWhile (· ≠ '/')
      let next := if rest = [] then ['/'] else rest
      if segment = ['.'] then removeDots fuel next output
      else if segment = ['.', '.'] then removeDots fuel next (dropSegment output)
      else removeDots fuel rest (output ++ '/' :: segment)
  | fuel + 1, input, output =>
      let segment := input.takeWhile (· ≠ '/')
      let rest := input.dropWhile (· ≠ '/')
      if segment = ['.'] ∨ segment = ['.', '.'] then removeDots fuel (rest.drop 1) output
      else removeDots fuel rest (output ++ segment)

/-- `remove_dot_segments` of RFC 3986. Every round takes at least one character. -/
def removeDotSegments (path : List Char) : List Char := removeDots path.length path []

def absolute (segments : List (List Char)) : List Char := segments.flatMap ('/' :: ·)

theorem cut_segment (segment : List Char) (segments : List (List Char)) (plain : '/' ∉ segment) :
    (segment ++ absolute segments).takeWhile (· ≠ '/') = segment ∧
      (segment ++ absolute segments).dropWhile (· ≠ '/') = absolute segments := by
  have inside : ∀ c ∈ segment, decide (c ≠ '/') = true := by
    intro c member
    apply decide_eq_true
    rintro rfl
    exact plain member
  have behind : (absolute segments).takeWhile (· ≠ '/') = [] ∧
      (absolute segments).dropWhile (· ≠ '/') = absolute segments := by
    cases segments with
    | nil => exact ⟨rfl, rfl⟩
    | cons next segments => simp [absolute]
  constructor
  · rw [List.takeWhile_append_of_pos inside, behind.1, List.append_nil]
  · rw [List.dropWhile_append_of_pos inside, behind.2]

/-- A segment as it is: not dropped, and not cut. -/
def isPlain (segment : List Char) : Prop :=
  '/' ∉ segment ∧ segment ≠ ['.'] ∧ segment ≠ ['.', '.']

theorem remove_dots_plain (segments : List (List Char)) (fuel : Nat) (output : List Char)
    (plain : ∀ segment ∈ segments, isPlain segment) (enough : segments.length ≤ fuel) :
    removeDots fuel (absolute segments) output = output ++ absolute segments := by
  induction segments generalizing fuel output with
  | nil =>
      have nothing : absolute [] = [] := rfl
      rw [nothing, List.append_nil]
      cases fuel <;> rfl
  | cons segment segments ih =>
      have ⟨noSlash, notDot, notDots⟩ := plain segment List.mem_cons_self
      have ⟨taken, left⟩ := cut_segment segment segments noSlash
      cases fuel with
      | zero => cases enough
      | succ fuel =>
          have unfolded : absolute (segment :: segments) = '/' :: (segment ++ absolute segments) :=
            rfl
          rw [unfolded, removeDots]
          simp only [taken, left, if_neg notDot, if_neg notDots]
          rw [ih fuel _ (fun later member => plain later (List.mem_cons_of_mem _ member))
            (Nat.le_of_succ_le_succ enough), List.append_assoc]
          rfl

/-- A path without dot segments is left alone. -/
theorem remove_dot_segments_plain (segments : List (List Char))
    (plain : ∀ segment ∈ segments, isPlain segment) :
    removeDotSegments (absolute segments) = absolute segments := by
  apply remove_dots_plain segments _ [] plain
  induction segments with
  | nil => exact Nat.zero_le _
  | cons segment segments ih =>
      have inner := ih fun later member => plain later (List.mem_cons_of_mem _ member)
      simp only [absolute, List.flatMap_cons, List.cons_append, List.length_cons,
        List.length_append] at inner ⊢
      omega

end Uri

end AgentHarness.Library
