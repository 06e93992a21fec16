import Mathlib.Algebra.Group.Nat.Defs
import Mathlib.Data.List.Basic
import Mathlib.Tactic.SplitIfs

/-!
# `json.loads` of Python

The decoder of the standard library on a text: which texts it accepts, and the value it returns. It
reads some texts that are no JSON (`NaN`, lone surrogates) and refuses integers above a limit of the
interpreter. Nesting beyond another limit ends in a `RecursionError`, which is no `ValueError`.
-/

namespace AgentHarness.Library

set_option autoImplicit false

namespace PythonJson

/-- A `str`, which may hold surrogates, as its code points. -/
abbrev CodePoints := List Nat

def codePoints (text : String) : CodePoints := text.toList.map Char.toNat

/-- A `float`, as it is written. -/
inductive Float where
  | nan
  | infinity (negative : Bool)
  | decimal (negative : Bool) (digits : Nat) (exponent : Int)
  deriving DecidableEq, Repr

/-- A decimal is read as zero up to half of the smallest positive float, which is `2 ^ -1075`. -/
def Float.truthy : Float → Bool
  | .nan | .infinity _ => true
  | .decimal _ digits (.ofNat _) => digits ≠ 0
  | .decimal _ digits (.negSucc n) => 10 ^ (n + 1) < digits * 2 ^ 1075

inductive Value where
  | none
  | bool (value : Bool)
  | int (value : Int)
  | float (value : Float)
  | str (value : CodePoints)
  | list (items : List Value)
  | dict (entries : List (CodePoints × Value))
  deriving Repr

namespace Value

def truthy : Value → Bool
  | .none => false
  | .bool value => value
  | .int value => value ≠ 0
  | .float value => value.truthy
  | .str value => !value.isEmpty
  | .list items => !items.isEmpty
  | .dict entries => !entries.isEmpty

/-- `dict.get`: of equal keys the last one counts. -/
def get (key : String) (entries : List (CodePoints × Value)) : Option Value :=
  (entries.reverse.find? fun entry => entry.1 = codePoints key).map Prod.snd

def isStr (text : CodePoints) : Option Value → Bool
  | some (.str value) => value = text
  | _ => false

end Value

/-- The recursion limit and `sys.get_int_max_str_digits()`, where 0 stands for no limit. -/
structure Limits where
  depth : Nat
  digits : Nat
  deriving DecidableEq, Repr

inductive Scan (Result : Type) where
  | ok (result : Result) (rest : List Char)
  | invalid
  | tooDeep
  | outOfFuel

namespace Scan

variable {Result Next : Type}

/-- What comes next for a result and the text behind it. -/
def bind (scan : Scan Result) (next : Result → List Char → Scan Next) : Scan Next :=
  match scan with
  | .ok result rest => next result rest
  | .invalid => .invalid
  | .tooDeep => .tooDeep
  | .outOfFuel => .outOfFuel

def ofOption : Option (Result × List Char) → Scan Result
  | some (result, rest) => .ok result rest
  | none => .invalid

end Scan

def isBlank (c : Char) : Bool := c = ' ' || c = '\t' || c = '\n' || c = '\r'

def skipBlanks (text : List Char) : List Char := text.dropWhile isBlank

/-! ## Strings -/

def hexDigit (c : Char) : Option Nat :=
  if c.isDigit then some (c.toNat - 48)
  else if 'a' ≤ c ∧ c ≤ 'f' then some (c.toNat - 87)
  else if 'A' ≤ c ∧ c ≤ 'F' then some (c.toNat - 55)
  else none

def hexUnit (first second third fourth : Char) : Option Nat :=
  match hexDigit first, hexDigit second, hexDigit third, hexDigit fourth with
  | some a, some b, some c, some d => some (4096 * a + 256 * b + 16 * c + d)
  | _, _, _, _ => none

def simpleEscape (c : Char) : Option Nat :=
  if c = '"' ∨ c = '\\' ∨ c = '/' then some c.toNat
  else if c = 'b' then some 8
  else if c = 'f' then some 12
  else if c = 'n' then some 10
  else if c = 'r' then some 13
  else if c = 't' then some 9
  else none

/-- The rest of a string after its opening quote. An escape gives one UTF-16 unit. -/
def scanUnits : List Char → Option (List Nat × List Char)
  | [] => none
  | '"' :: rest => some ([], rest)
  | '\\' :: 'u' :: first :: second :: third :: fourth :: rest =>
      match hexUnit first second third fourth with
      | none => none
      | some unit => (scanUnits rest).map fun (units, rest) => (unit :: units, rest)
  | '\\' :: c :: rest =>
      match simpleEscape c with
      | none => none
      | some unit => (scanUnits rest).map fun (units, rest) => (unit :: units, rest)
  | c :: rest =>
      if c.toNat < 32 then none
      else (scanUnits rest).map fun (units, rest) => (c.toNat :: units, rest)

def isHigh (unit : Nat) : Bool := 0xD800 ≤ unit && unit < 0xDC00

def isLow (unit : Nat) : Bool := 0xDC00 ≤ unit && unit < 0xE000

/-- The text itself has no surrogates, so two in a row are two escapes in a row. -/
def joinSurrogates : List Nat → CodePoints
  | high :: low :: rest =>
      if isHigh high && isLow low then
        (0x10000 + (high - 0xD800) * 0x400 + (low - 0xDC00)) :: joinSurrogates rest
      else high :: joinSurrogates (low :: rest)
  | rest => rest

def scanString (text : List Char) : Option (CodePoints × List Char) :=
  (scanUnits text).map fun (units, rest) => (joinSurrogates units, rest)

/-! ## Numbers -/

def digitsValue (digits : List Char) : Nat :=
  digits.foldl (fun value c => 10 * value + (c.toNat - 48)) 0

def integerPart : List Char → Option (List Char × List Char)
  | [] => none
  | c :: rest =>
      if c = '0' then some (['0'], rest)
      else if c.isDigit then some (c :: rest.takeWhile Char.isDigit, rest.dropWhile Char.isDigit)
      else none

/-- A point counts only before a digit. -/
def fractionPart : List Char → Option (List Char) × List Char
  | '.' :: c :: rest =>
      if c.isDigit then
        (some (c :: rest.takeWhile Char.isDigit), rest.dropWhile Char.isDigit)
      else (none, '.' :: c :: rest)
  | text => (none, text)

/-- The letter counts only with digits behind it. -/
def exponentPart : List Char → Option Int × List Char
  | [] => (none, [])
  | mark :: text =>
      if mark = 'e' ∨ mark = 'E' then
        let negative := text.head? = some '-'
        let unsigned := if text.head? = some '-' ∨ text.head? = some '+' then text.tail else text
        let digits := unsigned.takeWhile Char.isDigit
        if digits = [] then (none, mark :: text)
        else (some (if negative then -digitsValue digits else digitsValue digits),
          unsigned.dropWhile Char.isDigit)
      else (none, mark :: text)

def scanNumber (limits : Limits) (text : List Char) : Scan Value :=
  let negative := text.head? = some '-'
  let unsigned := if text.head? = some '-' then text.tail else text
  match integerPart unsigned with
  | none => .invalid
  | some (whole, afterWhole) =>
      let (fraction, afterFraction) := fractionPart afterWhole
      let (exponent, rest) := exponentPart afterFraction
      if fraction.isSome || exponent.isSome then
        let decimals := fraction.getD []
        .ok (.float (.decimal negative (digitsValue (whole ++ decimals))
          (exponent.getD 0 - decimals.length))) rest
      else if limits.digits ≠ 0 ∧ limits.digits < whole.length then .invalid
      else .ok (.int (if negative then -digitsValue whole else digitsValue whole)) rest

/-! ## Values -/

/-- A name of the decoder with its value. -/
def constants : List (List Char × Value) :=
  [("null".toList, .none), ("true".toList, .bool true), ("false".toList, .bool false),
    ("NaN".toList, .float .nan), ("Infinity".toList, .float (.infinity false)),
    ("-Infinity".toList, .float (.infinity true))]

def scanConstant (text : List Char) : Option (Value × List Char) :=
  (constants.find? fun constant => constant.1.isPrefixOf text).map fun constant =>
    (constant.2, text.drop constant.1.length)

/-- The text after a mark that has to come next, blanks aside. -/
def expect (mark : Char) (text : List Char) : Scan Unit :=
  match skipBlanks text with
  | [] => .invalid
  | c :: rest => if c = mark then .ok () rest else .invalid

mutual

/-- The value at the start of the text, with the levels of nesting still allowed. -/
def scanOnce (limits : Limits) : (fuel depth : Nat) → List Char → Scan Value
  | 0, _, _ => .outOfFuel
  | _ + 1, _, [] => .invalid
  | fuel + 1, depth, c :: text =>
      if c = '"' then .bind (.ofOption (scanString text)) fun value rest => .ok (.str value) rest
      else if c = '{' then
        match depth with
        | 0 => .tooDeep
        | depth + 1 => (scanEntries limits fuel depth text).bind fun entries rest =>
            .ok (.dict entries) rest
      else if c = '[' then
        match depth with
        | 0 => .tooDeep
        | depth + 1 => (scanItems limits fuel depth text).bind fun items rest =>
            .ok (.list items) rest
      else match scanConstant (c :: text) with
        | some (value, rest) => .ok value rest
        | none => scanNumber limits (c :: text)
termination_by structural fuel => fuel

/-- The entries of an object after its opening brace. -/
def scanEntries (limits : Limits) :
    (fuel depth : Nat) → List Char → Scan (List (CodePoints × Value))
  | 0, _, _ => .outOfFuel
  | fuel + 1, depth, text =>
      match skipBlanks text with
      | '}' :: rest => .ok [] rest
      | text => scanMoreEntries limits fuel depth text
termination_by structural fuel => fuel

/-- At least one entry, and the closing brace. -/
def scanMoreEntries (limits : Limits) :
    (fuel depth : Nat) → List Char → Scan (List (CodePoints × Value))
  | 0, _, _ => .outOfFuel
  | fuel + 1, depth, text =>
      (expect '"' text).bind fun _ text => (Scan.ofOption (scanString text)).bind fun key text =>
      (expect ':' text).bind fun _ text =>
      (scanOnce limits fuel depth (skipBlanks text)).bind fun value text =>
        match skipBlanks text with
        | '}' :: rest => .ok [(key, value)] rest
        | ',' :: text => (scanMoreEntries limits fuel depth (skipBlanks text)).bind
            fun entries rest => .ok ((key, value) :: entries) rest
        | _ => .invalid
termination_by structural fuel => fuel

def scanItems (limits : Limits) : (fuel depth : Nat) → List Char → Scan (List Value)
  | 0, _, _ => .outOfFuel
  | fuel + 1, depth, text =>
      match skipBlanks text with
      | ']' :: rest => .ok [] rest
      | text => scanMoreItems limits fuel depth text
termination_by structural fuel => fuel

def scanMoreItems (limits : Limits) : (fuel depth : Nat) → List Char → Scan (List Value)
  | 0, _, _ => .outOfFuel
  | fuel + 1, depth, text =>
      (scanOnce limits fuel depth text).bind fun value text =>
        match skipBlanks text with
        | ']' :: rest => .ok [value] rest
        | ',' :: text => (scanMoreItems limits fuel depth (skipBlanks text)).bind
            fun items rest => .ok (value :: items) rest
        | _ => .invalid
termination_by structural fuel => fuel

end

/-! ## Enough fuel -/

/-- The scan has an answer, which is too deep only without the room for it, and what it leaves is
shorter than the bound. -/
def Scan.Within {Result : Type} (roomy : Prop) (bound : Nat) : Scan Result → Prop
  | .ok _ rest => rest.length < bound
  | .invalid => True
  | .tooDeep => ¬ roomy
  | .outOfFuel => False

theorem skip_blanks_length (text : List Char) : (skipBlanks text).length ≤ text.length :=
  (List.dropWhile_suffix isBlank).length_le

theorem scan_units_shorter (text : List Char) {units : List Nat} {rest : List Char}
    (scanned : scanUnits text = some (units, rest)) : rest.length < text.length := by
  fun_induction scanUnits text generalizing units with
  | case1 => cases scanned
  | case2 text =>
      cases scanned
      exact Nat.lt_succ_self _
  | case3 first second third fourth text bad => cases scanned
  | case4 first second third fourth text unit isUnit ih =>
      obtain ⟨⟨inner, left⟩, found, same⟩ := Option.map_eq_some_iff.mp scanned
      cases same
      have shorter := ih found
      simp only [List.length_cons]
      omega
  | case5 c text bad other => cases scanned
  | case6 c text other unit isUnit ih =>
      obtain ⟨⟨inner, left⟩, found, same⟩ := Option.map_eq_some_iff.mp scanned
      cases same
      have shorter := ih found
      simp only [List.length_cons]
      omega
  | case7 => cases scanned
  | case8 c text notQuote _ _ _ ih =>
      obtain ⟨⟨inner, left⟩, found, same⟩ := Option.map_eq_some_iff.mp scanned
      cases same
      have shorter := ih found
      simp only [List.length_cons]
      omega

theorem scan_string_shorter (text : List Char) {value : CodePoints} {rest : List Char}
    (scanned : scanString text = some (value, rest)) : rest.length < text.length := by
  obtain ⟨⟨units, left⟩, found, same⟩ := Option.map_eq_some_iff.mp scanned
  cases same
  exact scan_units_shorter text found

theorem drop_digits_length (text : List Char) :
    (text.dropWhile Char.isDigit).length ≤ text.length :=
  (List.dropWhile_suffix Char.isDigit).length_le

theorem integer_part_shorter {text whole rest : List Char}
    (found : integerPart text = some (whole, rest)) : rest.length < text.length := by
  cases text with
  | nil => cases found
  | cons c text =>
      have digits := drop_digits_length text
      simp only [integerPart] at found
      split_ifs at found
      · cases found
        exact Nat.lt_succ_self _
      · cases found
        simp only [List.length_cons]
        omega

theorem fraction_part_length (text : List Char) : (fractionPart text).2.length ≤ text.length := by
  unfold fractionPart
  split
  · rename_i c text
    have digits := drop_digits_length text
    split_ifs
    · simp only [List.length_cons]
      omega
    · exact Nat.le_refl _
  · exact Nat.le_refl _

/-- The part of an exponent after its sign. -/
theorem unsigned_length (text : List Char) (signed : Prop) [Decidable signed] :
    (if signed then text.tail else text).length ≤ text.length := by
  split_ifs
  · rw [List.length_tail]
    omega
  · exact Nat.le_refl _

theorem exponent_part_length (text : List Char) : (exponentPart text).2.length ≤ text.length := by
  cases text with
  | nil => exact Nat.le_refl _
  | cons mark text =>
      have unsigned := unsigned_length text (text.head? = some '-' ∨ text.head? = some '+')
      have digits := drop_digits_length
        (if text.head? = some '-' ∨ text.head? = some '+' then text.tail else text)
      simp only [exponentPart]
      generalize (if text.head? = some '-' ∨ text.head? = some '+' then text.tail else text) =
        after at *
      by_cases marked : mark = 'e' ∨ mark = 'E'
      · by_cases missing : after.takeWhile Char.isDigit = []
        · simp only [if_pos marked, if_pos missing, Nat.le_refl]
        · rw [if_pos marked, if_neg missing]
          simp only [List.length_cons]
          omega
      · simp only [if_neg marked, Nat.le_refl]

theorem scan_number_within (limits : Limits) (text : List Char) :
    (scanNumber limits text).Within True text.length := by
  have unsigned := unsigned_length text (text.head? = some '-')
  simp only [scanNumber]
  generalize (if text.head? = some '-' then text.tail else text) = after at *
  cases found : integerPart after with
  | none => trivial
  | some parts =>
      obtain ⟨whole, afterWhole⟩ := parts
      have shorter := integer_part_shorter found
      have fraction := fraction_part_length afterWhole
      have exponent := exponent_part_length (fractionPart afterWhole).2
      dsimp only
      split
      · simp only [Scan.Within]
        omega
      · split
        · trivial
        · simp only [Scan.Within]
          omega

theorem scan_constant_shorter {text rest : List Char} {value : Value}
    (found : scanConstant text = some (value, rest)) : rest.length < text.length := by
  obtain ⟨constant, first, same⟩ := Option.map_eq_some_iff.mp found
  cases same
  have front : constant.1 <+: text :=
    List.isPrefixOf_iff_prefix.mp (by simpa using List.find?_some first)
  have nonempty : ∀ entry ∈ constants, 0 < entry.1.length := by decide
  have positive := nonempty constant (List.mem_of_find?_eq_some first)
  have fits := front.length_le
  rw [List.length_drop]
  omega

theorem Scan.Within.mono {Result : Type} {scan : Scan Result} {roomy inner : Prop}
    {bound within : Nat} (scanned : scan.Within inner bound) (room : roomy → inner)
    (fits : bound ≤ within) : scan.Within roomy within := by
  cases scan with
  | ok result rest => exact Nat.lt_of_lt_of_le scanned fits
  | invalid => trivial
  | tooDeep => exact mt room scanned
  | outOfFuel => exact scanned

theorem Scan.bind_within {Result Next : Type} {scan : Scan Result} {roomy inner : Prop}
    {bound within : Nat} {next : Result → List Char → Scan Next}
    (scanned : scan.Within inner bound) (room : roomy → inner)
    (continued : ∀ result rest, rest.length < bound → (next result rest).Within roomy within) :
    (scan.bind next).Within roomy within := by
  cases scan with
  | ok result rest => exact continued result rest scanned
  | invalid => trivial
  | tooDeep => exact mt room scanned
  | outOfFuel => exact scanned

theorem scan_string_within (text : List Char) :
    (Scan.ofOption (scanString text)).Within True text.length := by
  cases found : scanString text with
  | none => trivial
  | some parts => exact scan_string_shorter text found

theorem expect_within (mark : Char) (text : List Char) :
    (expect mark text).Within True text.length := by
  have blanks := skip_blanks_length text
  unfold expect
  split
  · trivial
  · rename_i c rest isCons
    rw [isCons, List.length_cons] at blanks
    split_ifs
    · simp only [Scan.Within]
      omega
    · trivial

section Step

variable {limits : Limits} {fuel : Nat}

/-- What the fuel below a step is enough for. -/
structure Enough (limits : Limits) (fuel : Nat) : Prop where
  once : ∀ depth text, 3 * text.length < fuel →
    (scanOnce limits fuel depth text).Within (text.length ≤ depth) text.length
  entries : ∀ depth text, 3 * text.length + 1 < fuel →
    (scanEntries limits fuel depth text).Within (text.length ≤ depth) text.length
  moreEntries : ∀ depth text, 3 * text.length < fuel →
    (scanMoreEntries limits fuel depth text).Within (text.length ≤ depth) text.length
  items : ∀ depth text, 3 * text.length + 2 < fuel →
    (scanItems limits fuel depth text).Within (text.length ≤ depth) text.length
  moreItems : ∀ depth text, 3 * text.length + 1 < fuel →
    (scanMoreItems limits fuel depth text).Within (text.length ≤ depth) text.length

theorem once_step (enough : Enough limits fuel) (depth : Nat) (text : List Char)
    (fits : 3 * text.length < fuel + 1) :
    (scanOnce limits (fuel + 1) depth text).Within (text.length ≤ depth) text.length := by
  cases text with
  | nil =>
      rw [scanOnce]
      trivial
  | cons c text =>
      rw [List.length_cons] at fits
      simp only [scanOnce, List.length_cons]
      split_ifs
      · apply Scan.bind_within (scan_string_within text) (fun _ => trivial)
        intro value rest shorter
        simp only [Scan.Within]
        omega
      · cases depth with
        | zero => exact Nat.not_succ_le_zero _
        | succ depth =>
            apply Scan.bind_within (enough.entries depth text (by omega)) Nat.le_of_succ_le_succ
            intro entries rest shorter
            simp only [Scan.Within]
            omega
      · cases depth with
        | zero => exact Nat.not_succ_le_zero _
        | succ depth =>
            apply Scan.bind_within (enough.items depth text (by omega)) Nat.le_of_succ_le_succ
            intro items rest shorter
            simp only [Scan.Within]
            omega
      · cases found : scanConstant (c :: text) with
        | none =>
            have number := scan_number_within limits (c :: text)
            exact number.mono (fun _ => trivial) (Nat.le_refl _)
        | some parts => exact scan_constant_shorter found

theorem entries_step (enough : Enough limits fuel) (depth : Nat) (text : List Char)
    (fits : 3 * text.length + 1 < fuel + 1) :
    (scanEntries limits (fuel + 1) depth text).Within (text.length ≤ depth) text.length := by
  have blanks := skip_blanks_length text
  unfold scanEntries
  split
  · rename_i rest isCons
    rw [isCons, List.length_cons] at blanks
    simp only [Scan.Within]
    omega
  · have more := enough.moreEntries depth (skipBlanks text) (by omega)
    exact more.mono (Nat.le_trans blanks) blanks

theorem more_entries_step (enough : Enough limits fuel) (depth : Nat) (text : List Char)
    (fits : 3 * text.length < fuel + 1) :
    (scanMoreEntries limits (fuel + 1) depth text).Within (text.length ≤ depth) text.length := by
  unfold scanMoreEntries
  apply Scan.bind_within (expect_within '"' text) (fun _ => trivial)
  intro _ afterQuote quoteShorter
  apply Scan.bind_within (scan_string_within afterQuote) (fun _ => trivial)
  intro key afterKey keyShorter
  apply Scan.bind_within (expect_within ':' afterKey) (fun _ => trivial)
  intro _ afterColon colonShorter
  have blanks := skip_blanks_length afterColon
  apply Scan.bind_within (enough.once depth (skipBlanks afterColon) (by omega)) (by omega)
  intro value afterValue valueShorter
  have valueBlanks := skip_blanks_length afterValue
  split
  · rename_i rest isCons
    rw [isCons, List.length_cons] at valueBlanks
    simp only [Scan.Within]
    omega
  · rename_i later isCons
    rw [isCons, List.length_cons] at valueBlanks
    have laterBlanks := skip_blanks_length later
    apply Scan.bind_within (enough.moreEntries depth (skipBlanks later) (by omega)) (by omega)
    intro entries rest shorter
    simp only [Scan.Within]
    omega
  · trivial

theorem items_step (enough : Enough limits fuel) (depth : Nat) (text : List Char)
    (fits : 3 * text.length + 2 < fuel + 1) :
    (scanItems limits (fuel + 1) depth text).Within (text.length ≤ depth) text.length := by
  have blanks := skip_blanks_length text
  unfold scanItems
  split
  · rename_i rest isCons
    rw [isCons, List.length_cons] at blanks
    simp only [Scan.Within]
    omega
  · have more := enough.moreItems depth (skipBlanks text) (by omega)
    exact more.mono (Nat.le_trans blanks) blanks

theorem more_items_step (enough : Enough limits fuel) (depth : Nat) (text : List Char)
    (fits : 3 * text.length + 1 < fuel + 1) :
    (scanMoreItems limits (fuel + 1) depth text).Within (text.length ≤ depth) text.length := by
  unfold scanMoreItems
  apply Scan.bind_within (enough.once depth text (by omega)) id
  intro value afterValue valueShorter
  have valueBlanks := skip_blanks_length afterValue
  split
  · rename_i rest isCons
    rw [isCons, List.length_cons] at valueBlanks
    simp only [Scan.Within]
    omega
  · rename_i later isCons
    rw [isCons, List.length_cons] at valueBlanks
    have laterBlanks := skip_blanks_length later
    apply Scan.bind_within (enough.moreItems depth (skipBlanks later) (by omega)) (by omega)
    intro items rest shorter
    simp only [Scan.Within]
    omega
  · trivial

end Step

/-- With three times its length as fuel a text is scanned to an answer. -/
theorem enough_fuel (limits : Limits) (fuel : Nat) : Enough limits fuel := by
  induction fuel with
  | zero =>
      constructor
      all_goals
        intro depth text fits
        omega
  | succ fuel ih =>
      exact ⟨once_step ih, entries_step ih, more_entries_step ih, items_step ih,
        more_items_step ih⟩

inductive Loaded where
  | value (value : Value)
  | valueError
  | recursionError
  deriving Repr

/-- The fuel is enough for every text. -/
def loads (limits : Limits) (text : String) : Loaded :=
  if text.toList.head? = some (Char.ofNat 0xFEFF) then .valueError
  else match scanOnce limits (3 * text.length + 1) limits.depth (skipBlanks text.toList) with
    | .ok value rest => if skipBlanks rest = [] then .value value else .valueError
    | .tooDeep => .recursionError
    | .invalid | .outOfFuel => .valueError

/-- A text cannot be nested deeper than it is long. -/
theorem loads_shallow {limits : Limits} {text : String} (roomy : text.length ≤ limits.depth) :
    loads limits text ≠ .recursionError := by
  have blanks := skip_blanks_length text.toList
  rw [String.length_toList] at blanks
  have within := (enough_fuel limits (3 * text.length + 1)).once limits.depth
    (skipBlanks text.toList) (by omega)
  unfold loads
  split
  · simp
  · split
    · split <;> simp
    · rename_i deep
      rw [deep] at within
      exact absurd (Nat.le_trans blanks roomy) within
    · simp
    · simp

end PythonJson

end AgentHarness.Library
