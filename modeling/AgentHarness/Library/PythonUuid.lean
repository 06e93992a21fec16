import AgentHarness.Library.PythonInt
import AgentHarness.Library.Uuid
import Mathlib.Tactic.Ring

/-!
# UUIDs of Python

`UUID(hex)`: a name in front, braces and dashes are left out, and what remains is 32 characters that
`int` reads in base 16.
-/

namespace AgentHarness.Library

set_option autoImplicit false

namespace PythonUuid

/-- `str.replace(removed, "")`, where the first argument counts what is still to be left out. -/
def removeAll (removed : List Char) : Nat → List Char → List Char
  | _, [] => []
  | skipped + 1, _ :: text => removeAll removed skipped text
  | 0, c :: text =>
      if removed.isPrefixOf (c :: text) then removeAll removed (removed.length - 1) text
      else c :: removeAll removed 0 text

def isBrace (c : Char) : Bool := c = '{' || c = '}'

/-- The last digits of a number. -/
def hexDigits : Nat → Nat → List (Fin 16)
  | 0, _ => []
  | width + 1, value => Fin.ofNat 16 (value / 16 ^ width) :: hexDigits width value

def cutAt : List Nat → List (Fin 16) → List (List (Fin 16))
  | [], _ => []
  | width :: widths, digits => digits.take width :: cutAt widths (digits.drop width)

theorem length_hex_digits (width value : Nat) : (hexDigits width value).length = width := by
  induction width with
  | zero => rfl
  | succ width ih => rw [hexDigits, List.length_cons, ih]

/-- `UUID(int)`. -/
def ofNat (value : Nat) : Uuid where
  groups := cutAt [8, 4, 4, 4, 12] (hexDigits 32 value)
  shape := by simp [cutAt, length_hex_digits]

/-- `UUID(hex)`. -/
def parse (text : List Char) : Option Uuid :=
  let named := removeAll ['u', 'u', 'i', 'd', ':'] 0 (removeAll ['u', 'r', 'n', ':'] 0 text)
  let digits := ((named.dropWhile isBrace).rdropWhile isBrace).filter fun c => c ≠ '-'
  if digits.length = 32 then
    match PythonInt.parse 0 16 digits with
    | some value => if 0 ≤ value ∧ value < 2 ^ 128 then some (ofNat value.toNat) else none
    | none => none
  else none

/-! ## What `str` writes is read back -/

theorem remove_all_absent {removed : List Char} {first : Char} {text : List Char}
    (starts : removed.head? = some first) (absent : first ∉ text) :
    removeAll removed 0 text = text := by
  induction text with
  | nil => rfl
  | cons c text ih =>
      rw [List.mem_cons, not_or] at absent
      have other : removed.isPrefixOf (c :: text) = false := by
        cases removed with
        | nil => cases starts
        | cons mark removed =>
            cases starts
            simp [List.isPrefixOf, absent.1]
      rw [removeAll, other, if_neg Bool.false_ne_true, ih absent.2]

theorem foldl_value (digits : List Nat) (start : Nat) :
    digits.foldl (fun value digit => 16 * value + digit) start =
      start * 16 ^ digits.length + PythonInt.value 16 digits := by
  induction digits generalizing start with
  | nil => simp [PythonInt.value]
  | cons first digits ih =>
      have later : PythonInt.value 16 (first :: digits) =
          (16 * 0 + first) * 16 ^ digits.length + PythonInt.value 16 digits := ih (16 * 0 + first)
      rw [List.foldl_cons, ih, later, List.length_cons]
      ring

theorem value_cons (digit : Nat) (digits : List Nat) :
    PythonInt.value 16 (digit :: digits) =
      digit * 16 ^ digits.length + PythonInt.value 16 digits := by
  rw [PythonInt.value, List.foldl_cons, Nat.mul_zero, Nat.zero_add, foldl_value]

theorem value_lt (digits : List (Fin 16)) :
    PythonInt.value 16 (digits.map Fin.val) < 16 ^ digits.length := by
  induction digits with
  | nil => simp [PythonInt.value]
  | cons digit digits ih =>
      have small := digit.isLt
      rw [List.map_cons, value_cons, List.length_map, List.length_cons, Nat.pow_succ]
      have bound : digit.val * 16 ^ digits.length ≤ 15 * 16 ^ digits.length :=
        Nat.mul_le_mul_right _ (by omega)
      omega

/-- A number has the digits it was made of, whatever stands in front of them. -/
theorem hex_digits_value (front : Nat) (digits : List (Fin 16)) :
    hexDigits digits.length
        (front * 16 ^ digits.length + PythonInt.value 16 (digits.map Fin.val)) = digits := by
  induction digits generalizing front with
  | nil => rfl
  | cons digit digits ih =>
      have below := value_lt digits
      have positive : 0 < 16 ^ digits.length := Nat.pow_pos (by decide)
      have shifted : front * 16 ^ (digits.length + 1) +
          (digit.val * 16 ^ digits.length + PythonInt.value 16 (digits.map Fin.val)) =
          (16 * front + digit.val) * 16 ^ digits.length +
            PythonInt.value 16 (digits.map Fin.val) := by ring
      rw [List.map_cons, value_cons, List.length_map, List.length_cons, hexDigits, shifted, ih,
        Nat.add_comm, Nat.add_mul_div_right _ _ positive, Nat.div_eq_of_lt below, Nat.zero_add]
      congr 1
      apply Fin.ext
      simp [Fin.ofNat, Nat.mod_eq_of_lt digit.isLt]

theorem cut_flatten (groups : List (List (Fin 16))) :
    cutAt (groups.map List.length) groups.flatten = groups := by
  induction groups with
  | nil => rfl
  | cons group groups ih => simp [cutAt, ih]

theorem of_nat_value (uuid : Uuid) :
    ofNat (PythonInt.value 16 (uuid.groups.flatten.map Fin.val)) = uuid := by
  have long : uuid.groups.flatten.length = 32 := by
    rw [List.length_flatten, uuid.shape]
    rfl
  have digits := hex_digits_value 0 uuid.groups.flatten
  rw [long, Nat.zero_mul, Nat.zero_add] at digits
  have groups := cut_flatten uuid.groups
  rw [uuid.shape] at groups
  have same : (ofNat (PythonInt.value 16 (uuid.groups.flatten.map Fin.val))).groups =
      uuid.groups := by
    simp only [ofNat, digits, groups]
  cases uuid
  simpa [ofNat] using same

theorem digit_of_eq (c : Char) :
    PythonInt.digitOf 16 c = (Uuid.digitValue c).map Fin.val := by
  have ordered : ∀ low high : Char,
      low ≤ c ∧ c ≤ high ↔ low.toNat ≤ c.toNat ∧ c.toNat ≤ high.toNat := by
    intro low high
    simp only [Char.le_def, UInt32.le_iff_toNat_le]
    rfl
  have codes : ('0'.toNat = 48 ∧ '9'.toNat = 57) ∧ ('a'.toNat = 97 ∧ 'f'.toNat = 102 ∧
      'z'.toNat = 122) ∧ 'A'.toNat = 65 ∧ 'F'.toNat = 70 ∧ 'Z'.toNat = 90 := by decide
  simp only [PythonInt.digitOf, PythonInt.digitValue, Uuid.digitValue, ordered]
  split_ifs <;> simp [Fin.ofNat, Option.filter] <;> omega

theorem read_digits_of_values {chars : List Char} {digits : List (Fin 16)}
    (read : chars.mapM Uuid.digitValue = some digits) :
    chars.mapM (PythonInt.digitOf 16) = some (digits.map Fin.val) := by
  induction chars generalizing digits with
  | nil =>
      cases read
      rfl
  | cons c chars ih =>
      simp only [List.mapM_cons, Option.bind_eq_bind, Option.bind_eq_some_iff] at read
      have ⟨digit, isDigit, later, readLater, same⟩ := read
      cases same
      simp [List.mapM_cons, digit_of_eq, isDigit, ih readLater]

theorem read_groups_flatten {groups : List (List Char)} {digits : List (List (Fin 16))}
    (read : (groups.mapM fun group => group.mapM Uuid.digitValue) = some digits) :
    groups.flatten.mapM Uuid.digitValue = some digits.flatten := by
  induction groups generalizing digits with
  | nil =>
      cases read
      rfl
  | cons group groups ih =>
      simp only [List.mapM_cons, Option.bind_eq_bind, Option.bind_eq_some_iff] at read
      have ⟨first, isFirst, later, readLater, same⟩ := read
      cases same
      simp [List.mapM_append, isFirst, ih readLater]

theorem flatten_split (text : List Char) :
    (text.splitOn '-').flatten = text.filter fun c => c ≠ '-' := by
  induction text with
  | nil => rfl
  | cons c text ih =>
      rw [List.splitOn_cons_eq_if_modifyHead]
      by_cases dash : c = '-'
      · simp [dash, ih]
      · have nonempty := List.splitOn_ne_nil '-' text
        cases groups : text.splitOn '-' with
        | nil => exact absurd groups nonempty
        | cons group groups' =>
            rw [groups] at ih
            simpa [dash] using ih

/-- Whatever is left of the dashes is read as a number. -/
theorem parse_digits {text : List Char} {digits : List (Fin 16)}
    (read : (text.filter fun c => c ≠ '-').mapM Uuid.digitValue = some digits)
    (long : digits.length = 32) :
    parse text = some (ofNat (PythonInt.value 16 (digits.map Fin.val))) := by
  have plain := read_digits_of_values read
  have outside : ∀ mark, mark ≠ '-' → PythonInt.digitOf 16 mark = none → mark ∉ text := by
    intro mark notDash notDigit member
    have kept : mark ∈ text.filter fun c => c ≠ '-' := by simp [member, notDash]
    have ⟨digit, isDigit⟩ := PythonInt.each_of_read plain mark kept
    rw [notDigit] at isDigit
    cases isDigit
  have unnamed := outside 'u' (by decide) (by decide)
  have unbraced : ∀ c ∈ text, isBrace c = false := by
    intro c member
    have opening := outside '{' (by decide) (by decide)
    have closing := outside '}' (by decide) (by decide)
    simp only [isBrace, Bool.or_eq_false_iff, decide_eq_false_iff_not]
    constructor
    · rintro rfl
      exact opening member
    · rintro rfl
      exact closing member
  have count : (text.filter fun c => c ≠ '-').length = 32 := by
    rw [← long, ← List.length_map Fin.val]
    exact (PythonInt.length_of_read plain).symm
  have nonempty : (text.filter fun c => c ≠ '-') ≠ [] := by
    intro empty
    rw [empty] at count
    cases count
  have below := value_lt digits
  rw [long] at below
  have inRange : (0 : Int) ≤ PythonInt.value 16 (digits.map Fin.val) ∧
      (PythonInt.value 16 (digits.map Fin.val) : Int) < 2 ^ 128 := by
    constructor
    · exact Int.natCast_nonneg _
    · exact_mod_cast below
  have value := PythonInt.parse_hexadecimal 0 nonempty plain
  have name : removeAll ['u', 'u', 'i', 'd', ':'] 0 (removeAll ['u', 'r', 'n', ':'] 0 text) =
      text := by
    rw [remove_all_absent rfl unnamed, remove_all_absent rfl unnamed]
  simp only [parse, name, PythonInt.strip_kept unbraced, count, if_true, value]
  rw [if_pos inRange, Int.toNat_natCast]

/-- The dashed form is read as the same UUID. -/
theorem parse_of_parse {value : String} {uuid : Uuid} (parsed : Uuid.parse value = some uuid) :
    parse value.toList = some uuid := by
  unfold Uuid.parse Uuid.readGroups at parsed
  split at parsed
  · rename_i digits read
    split at parsed
    · rename_i shape
      cases parsed
      have flat := read_groups_flatten read
      rw [flatten_split] at flat
      have long : digits.flatten.length = 32 := by
        rw [List.length_flatten, shape]
        rfl
      rw [parse_digits flat long]
      exact congrArg some (of_nat_value ⟨digits, shape⟩)
    · cases parsed
  · cases parsed

/-- The text of a UUID is read as the UUID. -/
theorem parse_text (uuid : Uuid) : parse uuid.text.toList = some uuid :=
  parse_of_parse (Uuid.parse_text uuid)

end PythonUuid

end AgentHarness.Library
