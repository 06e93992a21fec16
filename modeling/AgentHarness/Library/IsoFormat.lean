import AgentHarness.Library.DateTime
import Mathlib.Data.List.TakeWhile
import Mathlib.Tactic.Ring

/-!
# ISO 8601 texts

`datetime.fromisoformat` of Python 3.11 by its documented grammar: calendar and week dates, with or
without marks between the numbers, any separator, and any number of decimals, of which six count.
The C implementation departs from that grammar in two ways, which are left out: it drops an offset
of less than a second, and it takes some texts that the grammar has no place for.
-/

namespace AgentHarness.Library

set_option autoImplicit false

namespace IsoFormat

open DateTime (readFixed readMark ofFields)

/-! ## The date -/

def newYear (year : Nat) : Nat := DateFields.ordinal ⟨year, 1, 1, 0, 0, 0, 0, none⟩

def beforeMonth (year month : Nat) : Nat :=
  daysBefore.getD (month - 1) 0 + if 2 < month && isLeap year then 1 else 0

/-- The first week is the one with the first Thursday. -/
def weekOneMonday (year : Nat) : Nat :=
  let first := newYear year
  let weekday := (first + 6) % 7
  if 3 < weekday then first - weekday + 7 else first - weekday

def weeksOf (year : Nat) : Nat :=
  let weekday := newYear year % 7
  if weekday = 4 ∨ (weekday = 3 ∧ isLeap year) then 53 else 52

/-- Year, month and day of an ordinal near the year. -/
def dateNear (year ordinal : Nat) : Nat × Nat × Nat :=
  let year :=
    if ordinal < newYear year then year - 1
    else if ordinal < newYear (year + 1) then year
    else year + 1
  let day := ordinal + 1 - newYear year
  let month := ((List.range 12).filter fun index => beforeMonth year (index + 1) < day).length
  (year, month, day - beforeMonth year month)

def weekDate (year week day : Nat) : Option (Nat × Nat × Nat) :=
  if (1 ≤ year ∧ year ≤ 9999) ∧ (1 ≤ week ∧ week ≤ weeksOf year) ∧ 1 ≤ day ∧ day ≤ 7 then
    some (dateNear year (weekOneMonday year + (week - 1) * 7 + (day - 1)))
  else none

/-- Either all numbers are set apart by dashes or none is. -/
def readDate (text : List Char) : Option (Nat × Nat × Nat) := do
  let (year, text) ← readFixed 4 text
  let dashed := text.head? = some '-'
  let text := if dashed then text.tail else text
  if text.head? = some 'W' then
    let (week, text) ← readFixed 2 text.tail
    if text = [] then weekDate year week 1
    else
      let text ← if dashed then readMark '-' text else some text
      let (day, text) ← readFixed 1 text
      if text = [] then weekDate year week day else none
  else
    let (month, text) ← readFixed 2 text
    let text ← if dashed then readMark '-' text else some text
    let (day, text) ← readFixed 2 text
    if text = [] then some (year, month, day) else none

/-- Where the date ends, which the separator may not show: it is any character. -/
def separatorAt (text : List Char) : Nat :=
  if text.length = 7 then 7
  else if text[4]? = some '-' then
    if text[5]? = some 'W' then
      if text[8]? = some '-' then (if text[10]?.any Char.isDigit then 8 else 10) else 8
    else 10
  else if text[4]? = some 'W' then
    let index := 7 + ((text.drop 7).takeWhile Char.isDigit).length
    if index < 9 then index else if index % 2 = 0 then 7 else 8
  else 8

/-! ## The time -/

structure Clock where
  hour : Nat
  minute : Nat
  second : Nat
  microsecond : Nat
  deriving DecidableEq, Repr

def Clock.microseconds (clock : Clock) : Nat :=
  (clock.hour * 3600 + clock.minute * 60 + clock.second) * 1000000 + clock.microsecond

def readDecimals (digits : List Char) : Option Nat :=
  if digits ≠ [] ∧ digits.all Char.isDigit then
    (readFixed 6 (digits ++ List.replicate 6 '0')).map Prod.fst
  else none

/-- Only seconds may have decimals. -/
def readClock (text : List Char) : Option Clock := do
  let (hour, text) ← readFixed 2 text
  if text = [] then some ⟨hour, 0, 0, 0⟩
  else
    let colon := text.head? = some ':'
    let (minute, text) ← readFixed 2 (if colon then text.tail else text)
    if text = [] then some ⟨hour, minute, 0, 0⟩
    else
      let text ← if colon then readMark ':' text else some text
      let (second, text) ← readFixed 2 text
      if text = [] then some ⟨hour, minute, second, 0⟩
      else if text.head? = some '.' ∨ text.head? = some ',' then
        (readDecimals text.tail).map fun microsecond => ⟨hour, minute, second, microsecond⟩
      else none

def isZoneMark (c : Char) : Bool := c = '+' || c = '-' || c = 'Z'

/-- The size of an offset is only bounded as a whole. -/
def readZone (text : List Char) : Option (Option Int) :=
  if text = [] then some none
  else if text.head? = some 'Z' then if text.tail = [] then some (some 0) else none
  else (readClock text.tail).map fun clock =>
    some (if text.head? = some '-' then -clock.microseconds else clock.microseconds)

def readTime (text : List Char) : Option (Clock × Option Int) := do
  if text = [] then some (⟨0, 0, 0, 0⟩, none)
  else
    let clock ← readClock (text.takeWhile fun c => !isZoneMark c)
    let offset ← readZone (text.dropWhile fun c => !isZoneMark c)
    some (clock, offset)

/-- `datetime.fromisoformat`. -/
def parse (text : List Char) : Option DateTime :=
  if text.length < 7 then none
  else do
    let (year, month, day) ← readDate (text.take (separatorAt text))
    let (clock, offset) ← readTime (text.drop (separatorAt text + 1))
    ofFields ⟨year, month, day, clock.hour, clock.minute, clock.second, clock.microsecond, offset⟩

/-! ## Texts of the form of `isoformat`

Their reader is inverted from the back: what it has read of a text is what is written there. -/

open DateTime (fixed digit_spec read_fixed readFraction readOffset readOffsetSeconds readSign
  readIsoformat)

theorem fixed_digits (width value : Nat) : ∀ c ∈ fixed width value, c.isDigit = true := by
  induction width with
  | zero => simp [fixed]
  | succ width ih =>
      intro c member
      rcases List.mem_cons.mp member with rfl | later
      · exact (digit_spec (value / 10 ^ width % 10) (by omega)).1
      · exact ih c later

theorem digit_of_char {c : Char} (isDigit : c.isDigit = true) :
    c.toNat - 48 < 10 ∧ DateTime.digit (c.toNat - 48) = c := by
  have range : 48 ≤ c.toNat ∧ c.toNat ≤ 57 := by
    simpa [Char.isDigit, UInt32.le_iff_toNat_le] using isDigit
  have back : 48 + (c.toNat - 48) = c.toNat := by omega
  rw [DateTime.digit, back, Char.ofNat_toNat]
  exact ⟨by omega, rfl⟩

/-- The digits in front do not matter to the last ones. -/
theorem fixed_add (width front value : Nat) :
    fixed width (front * 10 ^ width + value) = fixed width value := by
  induction width generalizing front with
  | zero => rfl
  | succ width ih =>
      have shifted : front * 10 ^ (width + 1) + value = front * 10 * 10 ^ width + value := by ring
      have first : (front * 10 * 10 ^ width + value) / 10 ^ width % 10 =
          value / 10 ^ width % 10 := by
        rw [Nat.add_comm, Nat.add_mul_div_right _ _ (Nat.pow_pos (by decide)),
          Nat.add_mul_mod_self_right]
      rw [shifted, fixed, fixed, first, ih]

theorem fixed_of_read {width value : Nat} {text rest : List Char}
    (read : readFixed width text = some (value, rest)) :
    text = fixed width value ++ rest ∧ value < 10 ^ width := by
  induction width generalizing text value with
  | zero =>
      cases read
      exact ⟨rfl, by decide⟩
  | succ width ih =>
      cases text with
      | nil => cases read
      | cons c text =>
          rw [readFixed] at read
          split at read
          · rename_i isDigit
            obtain ⟨⟨later, left⟩, readLater, same⟩ := Option.map_eq_some_iff.mp read
            cases same
            obtain ⟨small, back⟩ := digit_of_char isDigit
            obtain ⟨isText, bound⟩ := ih readLater
            have first :
                ((c.toNat - 48) * 10 ^ width + later) / 10 ^ width % 10 = c.toNat - 48 := by
              rw [Nat.add_comm, Nat.add_mul_div_right _ _ (Nat.pow_pos (by decide)),
                Nat.div_eq_of_lt bound, Nat.zero_add, Nat.mod_eq_of_lt small]
            constructor
            · rw [fixed, first, back, fixed_add, List.cons_append, ← isText]
            · have upper : (c.toNat - 48) * 10 ^ width ≤ 9 * 10 ^ width :=
                Nat.mul_le_mul_right _ (by omega)
              rw [Nat.pow_succ]
              omega
          · cases read

theorem mark_of_read {mark : Char} {text rest : List Char}
    (read : readMark mark text = some rest) : text = mark :: rest := by
  cases text with
  | nil => cases read
  | cons c text =>
      rw [readMark] at read
      split at read
      · rename_i same
        cases read
        rw [same]
      · cases read

theorem sign_of_read {text rest : List Char} {negative : Bool}
    (read : readSign text = some (negative, rest)) :
    text = (if negative then '-' else '+') :: rest := by
  cases text with
  | nil => cases read
  | cons c text =>
      rw [readSign] at read
      split at read
      · rename_i isMinus
        cases read
        rw [isMinus, if_pos rfl]
      · split at read
        · rename_i isPlus
          cases read
          rw [isPlus, if_neg Bool.false_ne_true]
        · cases read

/-- A point with six digits, which may be missing when they are zeros. -/
def Decimals (microsecond : Nat) (text : List Char) : Prop :=
  (text = [] ∧ microsecond = 0) ∨ (text = '.' :: fixed 6 microsecond ∧ microsecond < 1000000)

theorem fraction_of_read {microsecond : Nat} {text rest : List Char}
    (read : readFraction text = some (microsecond, rest)) :
    ∃ decimals, Decimals microsecond decimals ∧ text = decimals ++ rest := by
  unfold readFraction at read
  split at read
  · rename_i digits isMark
    have ⟨isText, bound⟩ := fixed_of_read read
    refine ⟨'.' :: fixed 6 microsecond, .inr ⟨rfl, bound⟩, ?_⟩
    rw [mark_of_read isMark, isText, List.cons_append]
  · cases read
    exact ⟨[], .inl ⟨rfl, rfl⟩, rfl⟩

theorem read_fixed_end (width value : Nat) (small : value < 10 ^ width) :
    readFixed width (fixed width value) = some (value, []) := by
  have read := read_fixed width value [] small
  rwa [List.append_nil] at read

theorem read_decimals (microsecond : Nat) (small : microsecond < 1000000) :
    readDecimals (fixed 6 microsecond) = some microsecond := by
  have digits : fixed 6 microsecond ≠ [] ∧ (fixed 6 microsecond).all Char.isDigit := by
    constructor
    · simp [fixed]
    · rw [List.all_eq_true]
      exact fixed_digits 6 microsecond
  rw [readDecimals, if_pos digits, read_fixed 6 microsecond _ small, Option.map_some]

theorem read_clock (clock : Clock) {decimals : List Char} (hour : clock.hour < 100)
    (minute : clock.minute < 100) (second : clock.second < 100)
    (fraction : Decimals clock.microsecond decimals) :
    readClock (fixed 2 clock.hour ++ ':' :: (fixed 2 clock.minute ++ ':' ::
      (fixed 2 clock.second ++ decimals))) = some clock := by
  simp only [readClock, Option.bind_eq_bind, read_fixed 2 clock.hour _ hour, Option.bind_some,
    reduceCtorEq, if_false, List.head?_cons, if_true, List.tail_cons,
    read_fixed 2 clock.minute _ minute, DateTime.read_mark,
    read_fixed 2 clock.second _ second]
  rcases fraction with ⟨missing, zero⟩ | ⟨shown, small⟩
  · rw [missing, if_pos rfl, ← zero]
  · simp only [shown, reduceCtorEq, if_false, List.head?_cons, true_or, if_true, List.tail_cons,
      read_decimals _ small, Option.map_some]

theorem read_minutes (hour minute : Nat) (hourSmall : hour < 100) (minuteSmall : minute < 100) :
    readClock (fixed 2 hour ++ ':' :: fixed 2 minute) = some ⟨hour, minute, 0, 0⟩ := by
  simp only [readClock, Option.bind_eq_bind, read_fixed 2 hour _ hourSmall, Option.bind_some,
    reduceCtorEq, if_false, List.head?_cons, if_true, List.tail_cons,
    read_fixed_end 2 minute minuteSmall]

theorem digit_unmarked {c : Char} (isDigit : c.isDigit = true) : isZoneMark c = false := by
  simp only [isZoneMark, Bool.or_eq_false_iff, decide_eq_false_iff_not]
  refine ⟨⟨?_, ?_⟩, ?_⟩
  all_goals
    rintro rfl
    cases isDigit

theorem clock_unmarked (hour minute second : Nat) {microsecond : Nat} {decimals : List Char}
    (fraction : Decimals microsecond decimals) :
    ∀ c ∈ fixed 2 hour ++ ':' :: (fixed 2 minute ++ ':' :: (fixed 2 second ++ decimals)),
      isZoneMark c = false := by
  have digits : ∀ width value, ∀ c ∈ fixed width value, isZoneMark c = false :=
    fun width value c member => digit_unmarked (fixed_digits width value c member)
  have inDecimals : ∀ c ∈ decimals, isZoneMark c = false := by
    rcases fraction with ⟨missing, _⟩ | ⟨shown, _⟩
    · simp [missing]
    · rw [shown, List.forall_mem_cons]
      exact ⟨rfl, digits 6 microsecond⟩
  intro c member
  simp only [List.mem_append, List.mem_cons] at member
  rcases member with inHour | rfl | inMinute | rfl | inSecond | inFraction
  · exact digits 2 hour c inHour
  · rfl
  · exact digits 2 minute c inMinute
  · rfl
  · exact digits 2 second c inSecond
  · exact inDecimals c inFraction

/-- The seconds of an offset with the clock they belong to. -/
theorem offset_seconds_of_read {hour minute second microsecond : Nat} {text : List Char}
    (hourSmall : hour < 100) (minuteSmall : minute < 100)
    (read : readOffsetSeconds text = some (second, microsecond)) :
    readClock (fixed 2 hour ++ ':' :: (fixed 2 minute ++ text)) =
      some ⟨hour, minute, second, microsecond⟩ := by
  unfold readOffsetSeconds at read
  split at read
  · rename_i missing
    cases read
    rw [missing, List.append_nil, read_minutes hour minute hourSmall minuteSmall]
  · simp only [Option.bind_eq_bind, Option.bind_eq_some_iff, Prod.exists] at read
    have ⟨afterMark, isMark, shown, afterSecond, isSecond, micro, rest, isFraction, same⟩ := read
    have ⟨secondText, secondSmall⟩ := fixed_of_read isSecond
    have ⟨decimals, fraction, fractionText⟩ := fraction_of_read isFraction
    split at same
    · rename_i ended
      cases same
      have clockRead := read_clock ⟨hour, minute, second, microsecond⟩ hourSmall minuteSmall
        secondSmall fraction
      rw [mark_of_read isMark, secondText, fractionText, ended, List.append_nil]
      exact clockRead
    · cases same

theorem offset_of_read {text : List Char} {offset : Option Int}
    (read : readOffset text = some offset) :
    readZone text = some offset ∧ ∀ c ∈ text.head?, isZoneMark c = true := by
  unfold readOffset at read
  split at read
  · rename_i missing
    cases read
    rw [missing]
    exact ⟨rfl, by simp⟩
  · rename_i shown
    simp only [Option.bind_eq_bind, Option.bind_eq_some_iff, Prod.exists] at read
    have ⟨negative, afterSign, isSign, hour, afterHour, isHour, afterMark, isMark, minute,
      afterMinute, isMinute, second, microsecond, isSeconds, same⟩ := read
    have ⟨hourText, hourSmall⟩ := fixed_of_read isHour
    have ⟨minuteText, minuteSmall⟩ := fixed_of_read isMinute
    have clockRead := offset_seconds_of_read hourSmall minuteSmall isSeconds
    rw [← minuteText, ← mark_of_read isMark, ← hourText] at clockRead
    have isText := sign_of_read isSign
    split at same
    · cases same
      rw [isText]
      cases negative
      · exact ⟨by simp [readZone, clockRead, Clock.microseconds], by simp [isZoneMark]⟩
      · exact ⟨by simp [readZone, clockRead, Clock.microseconds], by simp [isZoneMark]⟩
    · cases same

/-- The zone starts at the first mark of one. -/
theorem read_time {clock : Clock} {offset : Option Int} {chars zone : List Char}
    (unmarked : ∀ c ∈ chars, isZoneMark c = false)
    (marked : ∀ c ∈ zone.head?, isZoneMark c = true) (shown : chars ≠ [])
    (clockRead : readClock chars = some clock) (zoneRead : readZone zone = some offset) :
    readTime (chars ++ zone) = some (clock, offset) := by
  have before : ∀ c ∈ chars, (!isZoneMark c) = true := by
    intro c member
    rw [unmarked c member, Bool.not_false]
  have front : zone.takeWhile (fun c => !isZoneMark c) = [] := by
    cases zone with
    | nil => rfl
    | cons c zone => simp [marked c rfl]
  have back : zone.dropWhile (fun c => !isZoneMark c) = zone := by
    cases zone with
    | nil => rfl
    | cons c zone => simp [marked c rfl]
  simp only [readTime, List.append_eq_nil_iff, shown, false_and, if_false,
    List.takeWhile_append_of_pos before, List.dropWhile_append_of_pos before, front, back,
    List.append_nil, clockRead, zoneRead, Option.bind_eq_bind, Option.bind_some]

theorem digit_ne_week : ∀ value, value < 10 → DateTime.digit value ≠ 'W' := by decide

theorem read_date (year month day : Nat) (yearSmall : year < 10000) (monthSmall : month < 100)
    (daySmall : day < 100) :
    readDate (fixed 4 year ++ '-' :: (fixed 2 month ++ '-' :: fixed 2 day)) =
      some (year, month, day) := by
  have noWeek : (fixed 2 month ++ '-' :: fixed 2 day).head? ≠ some 'W' := by
    simpa [fixed] using digit_ne_week (month / 10 % 10) (by omega)
  simp only [readDate, Option.bind_eq_bind, read_fixed 4 year _ yearSmall, Option.bind_some,
    List.head?_cons, if_true, List.tail_cons, noWeek, if_false, read_fixed 2 month _ monthSmall,
    DateTime.read_mark, read_fixed_end 2 day daySmall]

theorem separator_at (year month day : Nat) (rest : List Char) :
    separatorAt ((fixed 4 year ++ '-' :: (fixed 2 month ++ '-' :: fixed 2 day)) ++ 'T' :: rest) =
      10 := by
  have noWeek := digit_ne_week (month / 10 % 10) (by omega)
  simp [separatorAt, fixed, noWeek]

theorem parse_parts {date rest : List Char} {year month day : Nat} {clock : Clock}
    {offset : Option Int} (long : date.length = 10)
    (position : separatorAt (date ++ 'T' :: rest) = 10)
    (dateRead : readDate date = some (year, month, day))
    (timeRead : readTime rest = some (clock, offset)) :
    parse (date ++ 'T' :: rest) = ofFields ⟨year, month, day, clock.hour, clock.minute,
      clock.second, clock.microsecond, offset⟩ := by
  have notShort : ¬ (date ++ 'T' :: rest).length < 7 := by
    simp only [List.length_append, long]
    omega
  have front : (date ++ 'T' :: rest).take 10 = date := List.take_left' long
  have back : (date ++ 'T' :: rest).drop (10 + 1) = rest := by
    rw [List.append_cons]
    apply List.drop_left'
    simp [long]
  simp only [parse, notShort, if_false, position, front, back, dateRead, timeRead,
    Option.bind_eq_bind, Option.bind_some]

/-- A text of the form of `isoformat` is read as the same time. -/
theorem parse_of_read {text : String} {time : DateTime} (read : readIsoformat text = some time) :
    parse text.toList = some time := by
  simp only [readIsoformat, Option.bind_eq_bind, Option.bind_eq_some_iff, Prod.exists] at read
  obtain ⟨year, afterYear, isYear, afterDash, isDash, month, afterMonth, isMonth, afterSecondDash,
    isSecondDash, day, afterDay, isDay, afterT, isT, hour, afterHour, isHour, afterColon, isColon,
    minute, afterMinute, isMinute, afterSecondColon, isSecondColon, second, afterSecond, isSecond,
    microsecond, afterFraction, isFraction, offset, isOffset, isTime⟩ := read
  obtain ⟨yearText, yearSmall⟩ := fixed_of_read isYear
  obtain ⟨monthText, monthSmall⟩ := fixed_of_read isMonth
  obtain ⟨dayText, daySmall⟩ := fixed_of_read isDay
  obtain ⟨hourText, hourSmall⟩ := fixed_of_read isHour
  obtain ⟨minuteText, minuteSmall⟩ := fixed_of_read isMinute
  obtain ⟨secondText, secondSmall⟩ := fixed_of_read isSecond
  obtain ⟨decimals, fraction, fractionText⟩ := fraction_of_read isFraction
  obtain ⟨zoneRead, marked⟩ := offset_of_read isOffset
  have clockRead := read_clock ⟨hour, minute, second, microsecond⟩ hourSmall minuteSmall secondSmall
    fraction
  have timeRead := read_time (clock_unmarked hour minute second fraction) marked (by simp) clockRead
    zoneRead
  have isText : text.toList = (fixed 4 year ++ '-' :: (fixed 2 month ++ '-' :: fixed 2 day)) ++
      'T' :: ((fixed 2 hour ++ ':' :: (fixed 2 minute ++ ':' :: (fixed 2 second ++ decimals))) ++
        afterFraction) := by
    rw [yearText, mark_of_read isDash, monthText, mark_of_read isSecondDash, dayText,
      mark_of_read isT, hourText, mark_of_read isColon, minuteText, mark_of_read isSecondColon,
      secondText, fractionText]
    simp
  rw [isText, parse_parts (by simp [DateTime.length_fixed]) (separator_at year month day _)
    (read_date year month day yearSmall monthSmall daySmall) timeRead]
  exact isTime

/-- What `isoformat` writes is read as the time it was called on. -/
theorem parse_isoformat (time : DateTime) : parse time.isoformat.toList = some time :=
  parse_of_read (DateTime.read_isoformat time)

end IsoFormat

end AgentHarness.Library
