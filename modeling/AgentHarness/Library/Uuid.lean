import AgentHarness.Library.Text
import Mathlib.Algebra.GroupWithZero.Nat
import Mathlib.Data.List.Basic

/-!
# UUID texts

A UUID is five groups of hexadecimal digits. Its text is lower case; readers take either case.
-/

namespace AgentHarness.Library

set_option autoImplicit false

structure Uuid where
  groups : List (List (Fin 16))
  shape : groups.map List.length = [8, 4, 4, 4, 12]
  deriving DecidableEq, Repr

namespace Uuid

/-- The one instance behind the numerals of hexadecimal digits. -/
instance neZeroDigits : NeZero 16 := ⟨by decide⟩

def digit (value : Fin 16) : Char :=
  if value.val < 10 then Char.ofNat (48 + value.val) else Char.ofNat (87 + value.val)

def digitValue (c : Char) : Option (Fin 16) :=
  if '0' ≤ c ∧ c ≤ '9' then some (Fin.ofNat 16 (c.toNat - 48))
  else if 'a' ≤ c ∧ c ≤ 'f' then some (Fin.ofNat 16 (c.toNat - 87))
  else if 'A' ≤ c ∧ c ≤ 'F' then some (Fin.ofNat 16 (c.toNat - 55))
  else none

def text (uuid : Uuid) : String :=
  String.ofList (List.intercalate ['-'] (uuid.groups.map fun group => group.map digit))

def readGroups (groups : List (List Char)) : Option Uuid :=
  match groups.mapM fun group => group.mapM digitValue with
  | some digits =>
      if shape : digits.map List.length = [8, 4, 4, 4, 12] then some ⟨digits, shape⟩ else none
  | none => none

def parse (value : String) : Option Uuid :=
  readGroups (value.toList.splitOn '-')

def pad (width : Nat) (group : List Char) : List Char :=
  List.replicate (width - group.length) '0' ++ group

/-- `UUID.fromString` of Java, which also takes groups without their leading zeros. -/
def fromString (value : String) : Option Uuid :=
  let groups := value.toList.splitOn '-'
  if groups.length ≠ 5 || groups.any List.isEmpty then none
  else readGroups (List.zipWith pad [8, 4, 4, 4, 12] groups)

theorem digit_value_digit : ∀ value : Fin 16, digitValue (digit value) = some value := by decide

theorem digit_ne_dash : ∀ value : Fin 16, digit value ≠ '-' := by decide

theorem read_digits (group : List (Fin 16)) : (group.map digit).mapM digitValue = some group := by
  induction group with
  | nil => rfl
  | cons value group ih => simp [List.mapM_cons, digit_value_digit, ih]

theorem read_digit_groups (groups : List (List (Fin 16))) :
    (groups.map fun group => group.map digit).mapM (fun group => group.mapM digitValue) =
      some groups := by
  induction groups with
  | nil => rfl
  | cons group groups ih =>
      simp only [List.map_cons, List.mapM_cons, read_digits, ih]
      rfl

theorem split_text (uuid : Uuid) :
    uuid.text.toList.splitOn '-' = uuid.groups.map fun group => group.map digit := by
  rw [text, String.toList_ofList, List.splitOn_intercalate]
  · intro group member dash
    obtain ⟨digits, _, rfl⟩ := List.mem_map.mp member
    obtain ⟨value, _, isDash⟩ := List.mem_map.mp dash
    exact digit_ne_dash value isDash
  · intro empty
    have shape := uuid.shape
    rw [List.map_eq_nil_iff] at empty
    rw [empty] at shape
    cases shape

theorem read_text (uuid : Uuid) :
    readGroups (uuid.groups.map fun group => group.map digit) = some uuid := by
  simp only [readGroups, read_digit_groups, uuid.shape, dif_pos]

theorem parse_text (uuid : Uuid) : parse uuid.text = some uuid := by
  rw [parse, split_text, read_text]

theorem pad_full (group : List Char) : pad group.length group = group := by
  simp [pad]

theorem pad_full_groups (groups : List (List Char)) :
    List.zipWith pad (groups.map List.length) groups = groups := by
  induction groups with
  | nil => rfl
  | cons group groups ih => simp only [List.map_cons, List.zipWith_cons_cons, pad_full, ih]

theorem from_string_text (uuid : Uuid) : fromString uuid.text = some uuid := by
  have lengths : (uuid.groups.map fun group => group.map digit).map List.length =
      [8, 4, 4, 4, 12] := by
    rw [← uuid.shape, List.map_map]
    apply List.map_congr_left
    intro group _
    simp
  have five : uuid.groups.length = 5 := by
    have count := congrArg List.length uuid.shape
    simpa using count
  have nonempty : (uuid.groups.map fun group => group.map digit).any List.isEmpty = false := by
    rw [List.any_eq_false]
    intro group member isEmpty
    have width : group.length ∈ [8, 4, 4, 4, 12] := by
      rw [← lengths]
      exact List.mem_map_of_mem member
    rw [List.isEmpty_iff.mp isEmpty] at width
    simp at width
  have padded := pad_full_groups (uuid.groups.map fun group => group.map digit)
  rw [lengths] at padded
  simp only [fromString, split_text, nonempty, List.length_map, five, padded, read_text]
  rfl

theorem text_chars (uuid : Uuid) :
    ∀ c ∈ uuid.text.toList, c = '-' ∨ ∃ value : Fin 16, c = digit value := by
  intro c member
  rw [text, String.toList_ofList] at member
  rcases Text.mem_intercalate_list member with isDash | ⟨group, isGroup, inGroup⟩
  · exact .inl (List.mem_singleton.mp isDash)
  · obtain ⟨digits, -, rfl⟩ := List.mem_map.mp isGroup
    obtain ⟨value, -, rfl⟩ := List.mem_map.mp inGroup
    exact .inr ⟨value, rfl⟩

theorem length_text (uuid : Uuid) : uuid.text.length = 36 := by
  have shape := uuid.shape
  simp only [List.map_eq_cons_iff, List.map_eq_nil_iff] at shape
  obtain ⟨first, _, isFirst, size, second, _, isSecond, secondSize, third, _, isThird, thirdSize,
    fourth, _, isFourth, fourthSize, fifth, _, isFifth, fifthSize, isEnd⟩ := shape
  rw [text, String.length_ofList, isFirst, isSecond, isThird, isFourth, isFifth, isEnd]
  simp [List.intercalate_cons_cons, List.intercalate_singleton, size, secondSize, thirdSize,
    fourthSize, fifthSize]

end Uuid

end AgentHarness.Library
