import AgentHarness.Library.Text
import Mathlib.Tactic.SplitIfs

/-!
# `int` of a text

`int(text, base)` of Python for the bases 10 and 16: blanks around the number, a sign, single
underscores between digits, and the decimal digits of every script.
-/

namespace AgentHarness.Library

set_option autoImplicit false

namespace PythonInt

/-- The zeros of Unicode outside ASCII. The nine characters behind each are the other digits. -/
def decimalZeros : List Nat :=
  [0x660, 0x6F0, 0x7C0, 0x966, 0x9E6, 0xA66, 0xAE6, 0xB66, 0xBE6, 0xC66, 0xCE6, 0xD66, 0xDE6, 0xE50,
    0xED0, 0xF20, 0x1040, 0x1090, 0x17E0, 0x1810, 0x1946, 0x19D0, 0x1A80, 0x1A90, 0x1B50, 0x1BB0,
    0x1C40, 0x1C50, 0xA620, 0xA8D0, 0xA900, 0xA9D0, 0xA9F0, 0xAA50, 0xABF0, 0xFF10, 0x104A0,
    0x10D30, 0x11066, 0x110F0, 0x11136, 0x111D0, 0x112F0, 0x11450, 0x114D0, 0x11650, 0x116C0,
    0x11730, 0x118E0, 0x11950, 0x11C50, 0x11D50, 0x11DA0, 0x16A60, 0x16AC0, 0x16B50, 0x1D7CE,
    0x1D7D8, 0x1D7E2, 0x1D7EC, 0x1D7F6, 0x1E140, 0x1E2F0, 0x1E950, 0x1FBF0]

/-- Only ASCII is read as a number, so digits and blanks outside of it are replaced first. -/
def toAscii (c : Char) : Char :=
  if c.toNat < 127 then c
  else if Text.pythonSpace c then ' '
  else match decimalZeros.find? fun start => start ≤ c.toNat && c.toNat < start + 10 with
    | some start => Char.ofNat (48 + (c.toNat - start))
    | none => '?'

def isBlank (c : Char) : Bool := (9 ≤ c.toNat && c.toNat ≤ 13) || c = ' '

def digitValue (c : Char) : Option Nat :=
  if '0' ≤ c ∧ c ≤ '9' then some (c.toNat - 48)
  else if 'a' ≤ c ∧ c ≤ 'z' then some (c.toNat - 87)
  else if 'A' ≤ c ∧ c ≤ 'Z' then some (c.toNat - 55)
  else none

/-- A digit below the base. -/
def digitOf (base : Nat) (c : Char) : Option Nat := (digitValue c).filter fun value => value < base

def value (base : Nat) (digits : List Nat) : Nat :=
  digits.foldl (fun value digit => base * value + digit) 0

/-- The digits between the underscores, of which no two stand side by side. -/
def readDigits (base : Nat) (text : List Char) : Option (List Nat) :=
  let groups := text.splitOn '_'
  if groups.any List.isEmpty then none else groups.flatten.mapM (digitOf base)

/-- The mark of base 16 with one underscore behind it. -/
def skipMark (base : Nat) (text : List Char) : List Char :=
  if base = 16 ∧ (text.take 2 = ['0', 'x'] ∨ text.take 2 = ['0', 'X']) then
    let rest := text.drop 2
    if rest.head? = some '_' then rest.tail else rest
  else text

/-- `int(text, base)`. The limit for the number of digits is none for 0, and for base 16. -/
def parse (limit base : Nat) (text : List Char) : Option Int := do
  let text := ((text.map toAscii).dropWhile isBlank).rdropWhile isBlank
  let negative := text.head? = some '-'
  let unsigned := if text.head? = some '-' ∨ text.head? = some '+' then text.tail else text
  let digits ← readDigits base (skipMark base unsigned)
  if base = 10 ∧ limit ≠ 0 ∧ limit < digits.length then none
  else some (if negative then -value base digits else value base digits)

/-! ## A plain number is read as its value -/

theorem read_plain_digits {base : Nat} {text : List Char} {digits : List Nat}
    (nonempty : text ≠ []) (joined : '_' ∉ text) (read : text.mapM (digitOf base) = some digits) :
    readDigits base text = some digits := by
  have single : text.splitOn '_' = [text] := List.splitOn_eq_singleton joined
  simp [readDigits, single, nonempty, read]

theorem hexadecimal_range {c : Char} {digit : Nat} (isDigit : digitOf 16 c = some digit) :
    (48 ≤ c.toNat ∧ c.toNat ≤ 57) ∨ (65 ≤ c.toNat ∧ c.toNat ≤ 70) ∨
      (97 ≤ c.toNat ∧ c.toNat ≤ 102) := by
  obtain ⟨found, below⟩ := Option.filter_eq_some_iff.mp isDigit
  have small : digit < 16 := of_decide_eq_true below
  simp only [digitValue, Char.le_def, UInt32.le_iff_toNat_le] at found
  change (if 48 ≤ c.toNat ∧ c.toNat ≤ 57 then some (c.toNat - 48)
    else if 97 ≤ c.toNat ∧ c.toNat ≤ 122 then some (c.toNat - 87)
    else if 65 ≤ c.toNat ∧ c.toNat ≤ 90 then some (c.toNat - 55) else none) = some digit at found
  split_ifs at found
  all_goals
    cases found
    omega

theorem each_of_read {Symbol Value : Type} {readOne : Symbol → Option Value}
    {text : List Symbol} {values : List Value} (read : text.mapM readOne = some values) :
    ∀ c ∈ text, ∃ value, readOne c = some value := by
  induction text generalizing values with
  | nil => simp
  | cons c text ih =>
      simp only [List.mapM_cons, Option.bind_eq_bind, Option.bind_eq_some_iff] at read
      have ⟨first, isFirst, later, readLater, _⟩ := read
      rw [List.forall_mem_cons]
      exact ⟨⟨first, isFirst⟩, ih readLater⟩

theorem length_of_read {Symbol Value : Type} {readOne : Symbol → Option Value}
    {text : List Symbol} {values : List Value} (read : text.mapM readOne = some values) :
    values.length = text.length := by
  induction text generalizing values with
  | nil =>
      cases read
      rfl
  | cons c text ih =>
      simp only [List.mapM_cons, Option.bind_eq_bind, Option.bind_eq_some_iff] at read
      have ⟨first, _, later, readLater, same⟩ := read
      cases same
      rw [List.length_cons, List.length_cons, ih readLater]

theorem strip_kept {blank : Char → Bool} {text : List Char}
    (kept : ∀ c ∈ text, blank c = false) : (text.dropWhile blank).rdropWhile blank = text := by
  have front : text.dropWhile blank = text := by
    rw [List.dropWhile_eq_self_iff]
    intro long
    simpa using kept _ (List.getElem_mem long)
  rw [front, List.rdropWhile_eq_self_iff]
  intro long
  simpa using kept _ (List.getLast_mem long)

/-- Nothing is skipped or replaced around hexadecimal digits. -/
theorem parse_hexadecimal (limit : Nat) {text : List Char} {digits : List Nat}
    (nonempty : text ≠ []) (read : text.mapM (digitOf 16) = some digits) :
    parse limit 16 text = some (value 16 digits : Int) := by
  have range : ∀ c ∈ text, (48 ≤ c.toNat ∧ c.toNat ≤ 57) ∨ (65 ≤ c.toNat ∧ c.toNat ≤ 70) ∨
      (97 ≤ c.toNat ∧ c.toNat ≤ 102) := by
    intro c member
    have ⟨digit, isDigit⟩ := each_of_read read c member
    exact hexadecimal_range isDigit
  have absent : ∀ mark : Char, mark.toNat < 48 ∨ mark.toNat = 88 ∨ mark.toNat = 95 ∨
      102 < mark.toNat → mark ∉ text := by
    intro mark outside member
    have inside := range mark member
    omega
  have plain : ∀ c ∈ text, toAscii c = id c := by
    intro c member
    have inside := range c member
    rw [toAscii, if_pos (by omega), id]
  have ascii : text.map toAscii = text := by
    rw [List.map_congr_left plain, List.map_id]
  have kept : ∀ c ∈ text, isBlank c = false := by
    intro c member
    have inside := range c member
    have notSpace : c ≠ ' ' := by
      rintro rfl
      exact absent ' ' (by decide) member
    simp only [isBlank, notSpace, decide_false, Bool.or_false, Bool.and_eq_false_iff,
      decide_eq_false_iff_not]
    omega
  have headless : ∀ mark ∉ text, text.head? ≠ some mark := by
    intro mark missing isHead
    exact missing (List.mem_of_mem_head? isHead)
  have unmarked : skipMark 16 text = text := by
    apply if_neg
    intro marked
    have front : ∀ mark, text.take 2 = ['0', mark] → mark ∈ text := by
      intro mark same
      have member : mark ∈ text.take 2 := by
        rw [same]
        exact List.mem_cons_of_mem _ List.mem_cons_self
      exact List.mem_of_mem_take member
    rcases marked.2 with lower | upper
    · exact absent 'x' (by decide) (front 'x' lower)
    · exact absent 'X' (by decide) (front 'X' upper)
  have minus := headless '-' (absent '-' (by decide))
  have plus := headless '+' (absent '+' (by decide))
  simp [parse, ascii, strip_kept kept, minus, plus, unmarked,
    read_plain_digits nonempty (absent '_' (by decide)) read]

end PythonInt

end AgentHarness.Library
