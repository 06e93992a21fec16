import Mathlib.Algebra.Group.Nat.Defs
import Mathlib.Data.Option.Basic
import Mathlib.Data.List.Basic
import Mathlib.Tactic.SplitIfs

/-!
# Dates with a time

`datetime` of Python with its ISO text. Only texts of the form that `isoformat` writes are read here.
-/

namespace AgentHarness.Library

set_option autoImplicit false

/-- The offset to UTC is in microseconds; a naive time has none. -/
structure DateFields where
  year : Nat
  month : Nat
  day : Nat
  hour : Nat
  minute : Nat
  second : Nat
  microsecond : Nat
  offset : Option Int
  deriving DecidableEq, Repr

def isLeap (year : Nat) : Bool := year % 4 = 0 && (year % 100 ≠ 0 || year % 400 = 0)

/-- Days of the year before the month of a year that is no leap year. -/
def daysBefore : List Nat := [0, 31, 59, 90, 120, 151, 181, 212, 243, 273, 304, 334]

def daysInMonth (year month : Nat) : Nat :=
  if month = 2 then (if isLeap year then 29 else 28)
  else if month = 4 || month = 6 || month = 9 || month = 11 then 30
  else 31

def microsecondsPerDay : Nat := 86400000000

namespace DateFields

structure Valid (fields : DateFields) : Prop where
  year : 1 ≤ fields.year ∧ fields.year ≤ 9999
  month : 1 ≤ fields.month ∧ fields.month ≤ 12
  day : 1 ≤ fields.day ∧ fields.day ≤ daysInMonth fields.year fields.month
  hour : fields.hour < 24
  minute : fields.minute < 60
  second : fields.second < 60
  microsecond : fields.microsecond < 1000000
  offset : ∀ offset ∈ fields.offset, offset.natAbs < microsecondsPerDay

instance (fields : DateFields) : Decidable fields.Valid :=
  decidable_of_iff
    ((1 ≤ fields.year ∧ fields.year ≤ 9999) ∧ (1 ≤ fields.month ∧ fields.month ≤ 12) ∧
      (1 ≤ fields.day ∧ fields.day ≤ daysInMonth fields.year fields.month) ∧ fields.hour < 24 ∧
      fields.minute < 60 ∧ fields.second < 60 ∧ fields.microsecond < 1000000 ∧
      ∀ offset ∈ fields.offset, offset.natAbs < microsecondsPerDay)
    ⟨fun ⟨year, month, day, hour, minute, second, microsecond, offset⟩ =>
        ⟨year, month, day, hour, minute, second, microsecond, offset⟩,
      fun valid => ⟨valid.year, valid.month, valid.day, valid.hour, valid.minute, valid.second,
        valid.microsecond, valid.offset⟩⟩

theorem Valid.day_lt {fields : DateFields} (valid : fields.Valid) : fields.day < 32 := by
  have longest : daysInMonth fields.year fields.month ≤ 31 := by
    unfold daysInMonth
    split_ifs <;> omega
  have day := valid.day
  omega

/-- Days since the first of January of year 1, which is day 1. -/
def ordinal (fields : DateFields) : Nat :=
  let past := fields.year - 1
  past * 365 + past / 4 - past / 100 + past / 400 + daysBefore.getD (fields.month - 1) 0 +
    (if 2 < fields.month && isLeap fields.year then 1 else 0) + fields.day

/-- Microseconds since 1970 at the given offset. -/
def since1970 (fields : DateFields) (offset : Int) : Int :=
  ((fields.ordinal - 719163 : Int) * 86400 +
    (fields.hour * 3600 + fields.minute * 60 + fields.second : Nat)) * 1000000 +
      fields.microsecond - offset

end DateFields

structure DateTime extends DateFields where
  valid : toDateFields.Valid
  deriving DecidableEq, Repr

namespace DateTime

def ofFields (fields : DateFields) : Option DateTime :=
  if valid : fields.Valid then some ⟨fields, valid⟩ else none

/-- The instant of an aware time. -/
def instant (time : DateTime) : Option Int := time.offset.map time.since1970

/-! ## Writing -/

def digit (value : Nat) : Char := Char.ofNat (48 + value)

/-- The last digits of a number. -/
def fixed : Nat → Nat → List Char
  | 0, _ => []
  | width + 1, value => digit (value / 10 ^ width % 10) :: fixed width value

def fraction (microsecond : Nat) : List Char :=
  if microsecond = 0 then [] else '.' :: fixed 6 microsecond

def offsetChars (offset : Int) : List Char :=
  let seconds := offset.natAbs / 1000000
  let microsecond := offset.natAbs % 1000000
  (if offset < 0 then '-' else '+') :: (fixed 2 (seconds / 3600) ++ ':' ::
    (fixed 2 (seconds / 60 % 60) ++
      if seconds % 60 = 0 ∧ microsecond = 0 then []
      else ':' :: (fixed 2 (seconds % 60) ++ fraction microsecond)))

def isoformat (time : DateTime) : String :=
  String.ofList (fixed 4 time.year ++ '-' :: (fixed 2 time.month ++ '-' :: (fixed 2 time.day ++
    'T' :: (fixed 2 time.hour ++ ':' :: (fixed 2 time.minute ++ ':' :: (fixed 2 time.second ++
      (fraction time.microsecond ++ (time.offset.map offsetChars).getD [])))))))

/-! ## Reading -/

def readFixed : Nat → List Char → Option (Nat × List Char)
  | 0, text => some (0, text)
  | _ + 1, [] => none
  | width + 1, c :: text =>
      if c.isDigit then
        (readFixed width text).map fun (value, rest) =>
          ((c.toNat - 48) * 10 ^ width + value, rest)
      else none

def readMark (mark : Char) : List Char → Option (List Char)
  | [] => none
  | c :: rest => if c = mark then some rest else none

def readFraction (text : List Char) : Option (Nat × List Char) :=
  match readMark '.' text with
  | some rest => readFixed 6 rest
  | none => some (0, text)

/-- The seconds of an offset may be missing. -/
def readOffsetSeconds (text : List Char) : Option (Nat × Nat) :=
  if text = [] then some (0, 0)
  else do
    let text ← readMark ':' text
    let (second, text) ← readFixed 2 text
    let (microsecond, text) ← readFraction text
    if text = [] then some (second, microsecond) else none

def readSign : List Char → Option (Bool × List Char)
  | [] => none
  | c :: rest => if c = '-' then some (true, rest) else if c = '+' then some (false, rest) else none

def readOffset (text : List Char) : Option (Option Int) :=
  if text = [] then some none
  else do
    let (negative, text) ← readSign text
    let (hour, text) ← readFixed 2 text
    let text ← readMark ':' text
    let (minute, text) ← readFixed 2 text
    let (second, microsecond) ← readOffsetSeconds text
    let size : Int := ((hour * 3600 + minute * 60 + second) * 1000000 + microsecond : Nat)
    if minute < 60 ∧ second < 60 then some (some (if negative then -size else size)) else none

/-- The inverse of `isoformat`, none for other texts. -/
def readIsoformat (text : String) : Option DateTime := do
  let (year, text) ← readFixed 4 text.toList
  let text ← readMark '-' text
  let (month, text) ← readFixed 2 text
  let text ← readMark '-' text
  let (day, text) ← readFixed 2 text
  let text ← readMark 'T' text
  let (hour, text) ← readFixed 2 text
  let text ← readMark ':' text
  let (minute, text) ← readFixed 2 text
  let text ← readMark ':' text
  let (second, text) ← readFixed 2 text
  let (microsecond, text) ← readFraction text
  let offset ← readOffset text
  ofFields ⟨year, month, day, hour, minute, second, microsecond, offset⟩

/-! ## What is written is read back -/

theorem digit_spec : ∀ value, value < 10 →
    (digit value).isDigit = true ∧ (digit value).toNat - 48 = value := by decide

theorem read_fixed (width value : Nat) (rest : List Char) (small : value < 10 ^ width) :
    readFixed width (fixed width value ++ rest) = some (value, rest) := by
  have read : ∀ width value, readFixed width (fixed width value ++ rest) =
      some (value % 10 ^ width, rest) := by
    intro width value
    induction width with
    | zero => simp [readFixed, fixed, Nat.mod_one]
    | succ width ih =>
        obtain ⟨isDigit, back⟩ := digit_spec (value / 10 ^ width % 10) (by omega)
        have split : value % 10 ^ (width + 1) =
            value / 10 ^ width % 10 * 10 ^ width + value % 10 ^ width := by
          rw [Nat.pow_succ, Nat.mod_mul, Nat.mul_comm (10 ^ width), Nat.add_comm]
        rw [fixed, List.cons_append, readFixed, if_pos isDigit, ih, Option.map_some, back, split]
  rw [read, Nat.mod_eq_of_lt small]

@[simp]
theorem read_mark (mark : Char) (rest : List Char) : readMark mark (mark :: rest) = some rest := by
  rw [readMark, if_pos rfl]

theorem read_fraction (microsecond : Nat) (rest : List Char) (small : microsecond < 1000000)
    (stops : readMark '.' rest = none) :
    readFraction (fraction microsecond ++ rest) = some (microsecond, rest) := by
  unfold fraction
  split
  · rename_i zero
    rw [List.nil_append, readFraction, stops, zero]
  · rw [List.cons_append, readFraction, read_mark]
    exact read_fixed 6 microsecond rest small

theorem read_offset_seconds (second microsecond : Nat) (secondSmall : second < 60)
    (small : microsecond < 1000000) :
    readOffsetSeconds (if second = 0 ∧ microsecond = 0 then []
      else ':' :: (fixed 2 second ++ fraction microsecond)) = some (second, microsecond) := by
  split
  · rename_i zero
    rw [readOffsetSeconds, if_pos rfl, zero.1, zero.2]
  · have fractionRead := read_fraction microsecond [] small rfl
    rw [List.append_nil] at fractionRead
    simp only [readOffsetSeconds, reduceCtorEq, if_false, read_mark, Option.bind_eq_bind,
      Option.bind_some, read_fixed 2 second _ (by omega), fractionRead, if_true]

theorem read_sign (offset : Int) (rest : List Char) :
    readSign ((if offset < 0 then '-' else '+') :: rest) = some (decide (offset < 0), rest) := by
  by_cases negative : offset < 0 <;> simp [readSign, negative]

theorem read_offset (offset : Int) (small : offset.natAbs < microsecondsPerDay) :
    readOffset (offsetChars offset) = some (some offset) := by
  have perDay : microsecondsPerDay = 86400000000 := rfl
  have seconds := read_offset_seconds (offset.natAbs / 1000000 % 60) (offset.natAbs % 1000000)
    (by omega) (by omega)
  simp only [readOffset, offsetChars, reduceCtorEq, if_false, Option.bind_eq_bind, read_sign,
    Option.bind_some, read_fixed 2 (offset.natAbs / 1000000 / 3600) _ (by omega), read_mark,
    read_fixed 2 (offset.natAbs / 1000000 / 60 % 60) _ (by omega), seconds]
  rw [if_pos (by omega)]
  by_cases negative : offset < 0
  · simp only [negative, decide_true, if_true]
    congr 2
    omega
  · simp only [negative, decide_false, Bool.false_eq_true, if_false]
    congr 2
    omega

theorem no_point_before_offset (offset : Int) : readMark '.' (offsetChars offset) = none := by
  by_cases negative : offset < 0 <;> simp [offsetChars, readMark, negative]

/-- `fromisoformat` gives back what `isoformat` was called on. -/
theorem read_isoformat (time : DateTime) : readIsoformat time.isoformat = some time := by
  obtain ⟨fields, valid⟩ := time
  have year := valid.year
  have month := valid.month
  have day := valid.day
  have hour := valid.hour
  have minute := valid.minute
  have second := valid.second
  have dayBound := valid.day_lt
  have tail : readMark '.' ((fields.offset.map offsetChars).getD []) = none ∧
      readOffset ((fields.offset.map offsetChars).getD []) = some fields.offset := by
    cases isOffset : fields.offset with
    | none => exact ⟨rfl, rfl⟩
    | some offset =>
        exact ⟨no_point_before_offset offset, read_offset offset (valid.offset offset isOffset)⟩
  simp only [readIsoformat, isoformat, String.toList_ofList, Option.bind_eq_bind, Option.bind_some,
    read_mark, read_fixed 4 fields.year _ (by omega), read_fixed 2 fields.month _ (by omega),
    read_fixed 2 fields.day _ (by omega), read_fixed 2 fields.hour _ (by omega),
    read_fixed 2 fields.minute _ (by omega), read_fixed 2 fields.second _ (by omega),
    read_fraction fields.microsecond _ valid.microsecond tail.1, tail.2]
  exact dif_pos valid

theorem length_fixed (width value : Nat) : (fixed width value).length = width := by
  induction width with
  | zero => rfl
  | succ width ih => rw [fixed, List.length_cons, ih]

theorem length_fraction_le (microsecond : Nat) : (fraction microsecond).length ≤ 7 := by
  unfold fraction
  split
  · exact Nat.zero_le 7
  · exact Nat.le_of_eq (by rw [List.length_cons, length_fixed])

theorem length_offset_le (offset : Int) : (offsetChars offset).length ≤ 16 := by
  have short := length_fraction_le (offset.natAbs % 1000000)
  simp only [offsetChars, List.length_cons, List.length_append, length_fixed]
  split
  · simp
  · simp only [List.length_cons, List.length_append, length_fixed]
    omega

theorem length_isoformat_le (time : DateTime) : time.isoformat.length ≤ 42 := by
  have short := length_fraction_le time.microsecond
  have tail : ((time.offset.map offsetChars).getD []).length ≤ 16 := by
    cases time.offset with
    | none => exact Nat.zero_le 16
    | some offset => exact length_offset_le offset
  simp only [isoformat, String.length_ofList, List.length_cons, List.length_append, length_fixed]
  omega

/-! ## The characters -/

def marks : List Char := ['-', 'T', ':', '.', '+']

/-- Digits and the marks between them. -/
def Stamp (chars : List Char) : Prop := ∀ c ∈ chars, c.isDigit = true ∨ c ∈ marks

theorem Stamp.append {left right : List Char} (leftOk : Stamp left) (rightOk : Stamp right) :
    Stamp (left ++ right) := by
  intro c member
  rcases List.mem_append.mp member with inLeft | inRight
  · exact leftOk c inLeft
  · exact rightOk c inRight

theorem Stamp.cons {c : Char} {chars : List Char} (isMark : c ∈ marks) (rest : Stamp chars) :
    Stamp (c :: chars) := by
  intro d member
  rcases List.mem_cons.mp member with rfl | later
  · exact .inr isMark
  · exact rest d later

theorem fixed_stamp (width value : Nat) : Stamp (fixed width value) := by
  induction width with
  | zero =>
      intro c member
      cases member
  | succ width ih =>
      intro c member
      rcases List.mem_cons.mp member with rfl | later
      · exact .inl (digit_spec (value / 10 ^ width % 10) (by omega)).1
      · exact ih c later

theorem nil_stamp : Stamp [] := by
  intro c member
  cases member

theorem fraction_stamp (microsecond : Nat) : Stamp (fraction microsecond) := by
  unfold fraction
  split
  · exact nil_stamp
  · exact .cons (by decide) (fixed_stamp 6 microsecond)

theorem offset_stamp (offset : Int) : Stamp (offsetChars offset) := by
  unfold offsetChars
  apply Stamp.cons
  · split <;> decide
  apply (fixed_stamp 2 _).append
  apply Stamp.cons (by decide)
  apply (fixed_stamp 2 _).append
  split
  · exact nil_stamp
  · exact .cons (by decide) ((fixed_stamp 2 _).append (fraction_stamp _))

theorem isoformat_stamp (time : DateTime) : Stamp time.isoformat.toList := by
  have tail : Stamp ((time.offset.map offsetChars).getD []) := by
    cases time.offset with
    | none => exact nil_stamp
    | some offset => exact offset_stamp offset
  rw [isoformat, String.toList_ofList]
  apply (fixed_stamp 4 _).append
  apply Stamp.cons (by decide)
  apply (fixed_stamp 2 _).append
  apply Stamp.cons (by decide)
  apply (fixed_stamp 2 _).append
  apply Stamp.cons (by decide)
  apply (fixed_stamp 2 _).append
  apply Stamp.cons (by decide)
  apply (fixed_stamp 2 _).append
  apply Stamp.cons (by decide)
  exact (fixed_stamp 2 _).append ((fraction_stamp _).append tail)

end DateTime

end AgentHarness.Library
