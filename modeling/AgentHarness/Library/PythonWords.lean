import AgentHarness.Library.JsonText
import AgentHarness.Library.PythonJson
import Mathlib.Data.List.Find
import Mathlib.Data.List.TakeWhile

/-!
# Words of a JSON text

What the decoder reads where no string, list or object begins. A text that cannot continue a number
or a name does not change what is read before it.
-/

namespace AgentHarness.Library

set_option autoImplicit false

namespace PythonJson

open JsonText (Stops wordChar decimal)

/-- The last branch of the scanner. -/
def scanWord (limits : Limits) (text : List Char) : Scan Value :=
  match scanConstant text with
  | some (value, rest) => .ok value rest
  | none => scanNumber limits text

/-- The scan of a text with more behind it. -/
def Scan.followedBy {Result : Type} (scan : Scan Result) (tail : List Char) : Scan Result :=
  scan.bind fun result rest => .ok result (rest ++ tail)

/-- The scan has stopped inside a word. -/
def Stuck (rest : List Char) : Prop := ∃ c ∈ rest.head?, wordChar c = true

/-! ## What follows a word -/

section Following

variable {tail : List Char}

theorem stops_not_digit (stops : Stops tail) : ∀ c ∈ tail.head?, c.isDigit = false := by
  intro c first
  have notWord := stops c first
  simp only [wordChar, Char.isAlphanum, Bool.or_eq_false_iff] at notWord
  exact notWord.1.1.1.2

theorem take_digits_append (stops : Stops tail) (text : List Char) :
    (text ++ tail).takeWhile Char.isDigit = text.takeWhile Char.isDigit := by
  induction text with
  | nil =>
      cases tail with
      | nil => rfl
      | cons c tail => exact List.takeWhile_cons_of_neg (by simp [stops_not_digit stops c rfl])
  | cons c text ih => simp only [List.cons_append, List.takeWhile_cons, ih]

theorem drop_digits_append (stops : Stops tail) (text : List Char) :
    (text ++ tail).dropWhile Char.isDigit = text.dropWhile Char.isDigit ++ tail := by
  induction text with
  | nil =>
      cases tail with
      | nil => rfl
      | cons c tail => exact List.dropWhile_cons_of_neg (by simp [stops_not_digit stops c rfl])
  | cons c text ih =>
      simp only [List.cons_append, List.dropWhile_cons, ih]
      split <;> rfl

/-- A test of the first character that only word characters pass. -/
theorem head_append_iff (stops : Stops tail) (text : List Char) (mark : Char)
    (isWord : wordChar mark = true) :
    (text ++ tail).head? = some mark ↔ text.head? = some mark := by
  cases text with
  | cons c text => rfl
  | nil =>
      apply iff_of_false
      · intro first
        have notWord := stops mark first
        rw [isWord] at notWord
        cases notWord
      · intro first
        cases first

theorem tail_append_of_head {text : List Char} {mark : Char} (first : text.head? = some mark) :
    (text ++ tail).tail = text.tail ++ tail := by
  cases text with
  | nil => cases first
  | cons c text => rfl

theorem integer_part_append (stops : Stops tail) (text : List Char) :
    integerPart (text ++ tail) =
      (integerPart text).map fun parts => (parts.1, parts.2 ++ tail) := by
  cases text with
  | nil =>
      cases tail with
      | nil => rfl
      | cons c tail =>
          have notDigit := stops_not_digit stops c rfl
          have notZero : c ≠ '0' := by
            rintro rfl
            cases notDigit
          simp [integerPart, notZero, notDigit]
  | cons c text =>
      simp only [List.cons_append, integerPart, take_digits_append stops, drop_digits_append stops]
      split
      · rfl
      · split <;> rfl

theorem fraction_part_append (stops : Stops tail) (text : List Char) :
    fractionPart (text ++ tail) = ((fractionPart text).1, (fractionPart text).2 ++ tail) := by
  cases text with
  | nil =>
      cases tail with
      | nil => rfl
      | cons c tail =>
          have notPoint : c ≠ '.' := by
            rintro rfl
            cases stops '.' rfl
          unfold fractionPart
          split
          · rename_i same
            cases same
            exact absurd rfl notPoint
          · rfl
  | cons mark text =>
      by_cases isPoint : mark = '.'
      · subst isPoint
        cases text with
        | nil =>
            cases tail with
            | nil => rfl
            | cons c tail => simp [fractionPart, stops_not_digit stops c rfl]
        | cons c text =>
            simp only [List.cons_append, fractionPart, take_digits_append stops,
              drop_digits_append stops]
            split <;> rfl
      · have other : ∀ rest, fractionPart (mark :: rest) = (none, mark :: rest) := by
          intro rest
          unfold fractionPart
          split
          · rename_i same
            cases same
            exact absurd rfl isPoint
          · rfl
        rw [List.cons_append, other, other]
        rfl

theorem exponent_part_append (stops : Stops tail) (text : List Char) :
    exponentPart (text ++ tail) = ((exponentPart text).1, (exponentPart text).2 ++ tail) := by
  cases text with
  | nil =>
      cases tail with
      | nil => rfl
      | cons c tail =>
          have notMark : ¬ (c = 'e' ∨ c = 'E') := by
            rintro (rfl | rfl) <;> cases stops _ rfl
          simp [exponentPart, notMark]
  | cons mark text =>
      have minus := head_append_iff stops text '-' rfl
      have plus := head_append_iff stops text '+' rfl
      have unsigned : (if text.head? = some '-' ∨ text.head? = some '+' then (text ++ tail).tail
            else text ++ tail) =
          (if text.head? = some '-' ∨ text.head? = some '+' then text.tail else text) ++ tail := by
        split
        · rename_i signed
          rcases signed with first | first
          · exact tail_append_of_head first
          · exact tail_append_of_head first
        · rfl
      simp only [List.cons_append, exponentPart, minus, plus, unsigned, take_digits_append stops,
        drop_digits_append stops]
      generalize (if text.head? = some '-' ∨ text.head? = some '+' then text.tail else text) = after
      by_cases marked : mark = 'e' ∨ mark = 'E'
      · by_cases missing : after.takeWhile Char.isDigit = []
        · simp only [if_pos marked, if_pos missing, List.cons_append]
        · simp only [if_pos marked, if_neg missing]
      · simp only [if_neg marked, List.cons_append]

theorem scan_number_append (limits : Limits) (stops : Stops tail) (text : List Char) :
    scanNumber limits (text ++ tail) = (scanNumber limits text).followedBy tail := by
  have minus := head_append_iff stops text '-' rfl
  have unsigned : (if text.head? = some '-' then (text ++ tail).tail else text ++ tail) =
      (if text.head? = some '-' then text.tail else text) ++ tail := by
    split
    · exact tail_append_of_head ‹_›
    · rfl
  simp only [scanNumber, minus, unsigned, integer_part_append stops]
  cases integerPart (if text.head? = some '-' then text.tail else text) with
  | none => rfl
  | some parts =>
      simp only [Option.map_some, fraction_part_append stops, exponent_part_append stops]
      split
      · rfl
      · split <;> rfl

theorem prefix_append_iff (stops : Stops tail) (word text : List Char)
    (isWord : word.all wordChar = true) : word <+: text ++ tail ↔ word <+: text := by
  induction word generalizing text with
  | nil => exact iff_of_true List.nil_prefix List.nil_prefix
  | cons c word ih =>
      rw [List.all_cons, Bool.and_eq_true] at isWord
      cases text with
      | cons d text =>
          rw [List.cons_append, List.cons_prefix_cons, List.cons_prefix_cons, ih text isWord.2]
      | nil =>
          apply iff_of_false
          · intro front
            obtain ⟨rest, same⟩ := front
            rw [List.nil_append] at same
            have notWord := stops c (by rw [← same]; rfl)
            rw [isWord.1] at notWord
            cases notWord
          · intro front
            cases List.prefix_nil.mp front

theorem scan_constant_append (stops : Stops tail) (text : List Char) :
    scanConstant (text ++ tail) =
      (scanConstant text).map fun found => (found.1, found.2 ++ tail) := by
  have words : ∀ constant ∈ constants, constant.1.all wordChar = true := by decide
  have same : ∀ constant ∈ constants,
      constant.1.isPrefixOf (text ++ tail) = constant.1.isPrefixOf text := by
    intro constant member
    rw [Bool.eq_iff_iff, List.isPrefixOf_iff_prefix, List.isPrefixOf_iff_prefix]
    exact prefix_append_iff stops constant.1 text (words constant member)
  have found : (constants.find? fun constant => constant.1.isPrefixOf (text ++ tail)) =
      constants.find? fun constant => constant.1.isPrefixOf text := List.find?_congr same
  rw [scanConstant, found, scanConstant]
  cases first : constants.find? fun constant => constant.1.isPrefixOf text with
  | none => rfl
  | some constant =>
      have front : constant.1 <+: text :=
        List.isPrefixOf_iff_prefix.mp (by simpa using List.find?_some first)
      rw [Option.map_some, Option.map_some, Option.map_some, List.drop_append_of_le_length]
      exact front.length_le

/-- A word is read without regard to what follows it. -/
theorem scan_word_append (limits : Limits) (stops : Stops tail) (text : List Char) :
    scanWord limits (text ++ tail) = (scanWord limits text).followedBy tail := by
  simp only [scanWord, scan_constant_append stops, scan_number_append limits stops]
  cases scanConstant text with
  | none => rfl
  | some found => rfl

end Following

/-! ## The words that are written -/

section Written

variable {limits : Limits}

theorem take_digits_of_all {digits : List Char} (all : ∀ c ∈ digits, c.isDigit = true) :
    digits.takeWhile Char.isDigit = digits :=
  List.takeWhile_eq_self_iff.mpr all

theorem drop_digits_of_all {digits : List Char} (all : ∀ c ∈ digits, c.isDigit = true) :
    digits.dropWhile Char.isDigit = [] :=
  List.dropWhile_eq_nil_iff.mpr all

theorem digit_char_ne_zero : ∀ n, n < 10 → n ≠ 0 → n.digitChar ≠ '0' := by decide

/-- No number but zero is written with a leading zero. -/
theorem digits_head (n : Nat) (positive : n ≠ 0) : (Nat.toDigits 10 n).head? ≠ some '0' := by
  induction n using Nat.strong_induction_on with
  | _ n ih =>
      by_cases small : n < 10
      · rw [Nat.toDigits_of_lt_base small, List.head?_cons, ne_eq, Option.some.injEq]
        exact digit_char_ne_zero n small positive
      · rw [Nat.toDigits_of_base_le (by decide) (by omega),
          List.head?_append_of_ne_nil _ Nat.toDigits_ne_nil]
        exact ih (n / 10) (by omega) (by omega)

theorem integer_part_digits (n : Nat) :
    integerPart (Nat.toDigits 10 n) = some (Nat.toDigits 10 n, []) := by
  by_cases isZero : n = 0
  · rw [isZero]
    rfl
  · have head := digits_head n isZero
    have digits := JsonText.digits_isDigit n
    cases written : Nat.toDigits 10 n with
    | nil => exact absurd written Nat.toDigits_ne_nil
    | cons c rest =>
        rw [written] at head digits
        have notZero : c ≠ '0' := fun same => head (congrArg some same)
        have isDigit := digits c List.mem_cons_self
        have others : ∀ d ∈ rest, d.isDigit = true :=
          fun d member => digits d (List.mem_cons_of_mem c member)
        rw [integerPart, if_neg notZero, if_pos isDigit, take_digits_of_all others,
          drop_digits_of_all others]

theorem digits_value (n : Nat) : digitsValue (Nat.toDigits 10 n) = n :=
  Nat.ofDigitChars_ten_toDigits

/-- The number of digits is within the limit. -/
def Limits.admits (limits : Limits) (value : Int) : Bool :=
  limits.digits = 0 || (Nat.toDigits 10 value.natAbs).length ≤ limits.digits

/-- A number is not the beginning of a name. -/
theorem scan_constant_decimal (value : Int) : scanConstant (decimal value) = none := by
  have letters : ∀ constant ∈ constants,
      constant.1.all (fun c => c.isDigit || c = '-') = false := by decide
  have noName : (constants.find? fun constant => constant.1.isPrefixOf (decimal value)) = none := by
    apply List.find?_eq_none.mpr
    intro constant member front
    have part := (List.isPrefixOf_iff_prefix.mp front).subset
    have digits : constant.1.all (fun c => c.isDigit || c = '-') = true := by
      apply List.all_eq_true.mpr
      intro c inName
      simpa using JsonText.decimal_chars value c (part inName)
    rw [letters constant member] at digits
    cases digits
  rw [scanConstant, noName]
  rfl

theorem scan_number_digits (negative : Bool) (n : Nat) :
    scanNumber limits (if negative then '-' :: Nat.toDigits 10 n else Nat.toDigits 10 n) =
      if limits.admits n then .ok (.int (if negative then -(n : Int) else n)) [] else .invalid := by
  have noMinus : (Nat.toDigits 10 n).head? ≠ some '-' := by
    intro first
    cases JsonText.digits_isDigit n '-' (List.mem_of_head? first)
  have refused : (limits.digits ≠ 0 ∧ limits.digits < (Nat.toDigits 10 n).length) ↔
      ¬ limits.admits n = true := by
    simp only [Limits.admits, Int.natAbs_natCast, Bool.or_eq_true, decide_eq_true_eq, not_or,
      ne_eq, Nat.not_le]
  cases negative with
  | true =>
      simp only [scanNumber, if_true, List.head?_cons, List.tail_cons, integer_part_digits,
        fractionPart, exponentPart, Option.isSome_none, Bool.or_self, Bool.false_eq_true,
        if_false, refused, digits_value]
      by_cases admitted : limits.admits n = true
      · simp [admitted]
      · simp [admitted]
  | false =>
      simp only [scanNumber, Bool.false_eq_true, if_false, noMinus, integer_part_digits,
        fractionPart, exponentPart, Option.isSome_none, Bool.or_self, refused, digits_value]
      by_cases admitted : limits.admits n = true
      · simp [admitted]
      · simp [admitted]

theorem scan_word_decimal (value : Int) :
    scanWord limits (decimal value) =
      if limits.admits value then .ok (.int value) [] else .invalid := by
  rw [scanWord, scan_constant_decimal]
  cases value with
  | ofNat n => exact scan_number_digits false n
  | negSucc n => exact scan_number_digits true (n + 1)

/-- What the text of a float is read as. -/
def floatValue (float : FloatText) : Value :=
  match scanWord ⟨0, 0⟩ float.chars with
  | .ok value _ => value
  | _ => .none

/-- The text of the float is read to its end, as `float.__repr__` writes one. -/
def floatRead (float : FloatText) : Bool :=
  match scanWord ⟨0, 0⟩ float.chars with
  | .ok (.float _) [] => true
  | _ => false

/-- The digits of an integer are limited; nothing else in a word is. -/
theorem scan_number_unlimited {text rest : List Char} {value : Value}
    (scanned : scanNumber limits text = .ok value rest) :
    scanNumber ⟨0, 0⟩ text = .ok value rest := by
  simp only [scanNumber] at scanned ⊢
  generalize integerPart (if text.head? = some '-' then text.tail else text) = found at scanned ⊢
  cases found with
  | none => cases scanned
  | some parts =>
      have noLimit : ¬ ((0 : Nat) ≠ 0 ∧ 0 < parts.1.length) := fun refused => refused.1 rfl
      dsimp only at scanned ⊢
      rw [if_neg noLimit]
      split
      · rwa [if_pos ‹_›] at scanned
      · rw [if_neg ‹_›] at scanned
        split at scanned
        · cases scanned
        · exact scanned

theorem scan_word_unlimited {text rest : List Char} {value : Value}
    (scanned : scanWord limits text = .ok value rest) : scanWord ⟨0, 0⟩ text = .ok value rest := by
  unfold scanWord at scanned ⊢
  generalize scanConstant text = constant at scanned ⊢
  cases constant with
  | none => exact scan_number_unlimited scanned
  | some found => exact scanned

theorem scan_number_of_float {text rest : List Char} {value : Float}
    (scanned : scanNumber ⟨0, 0⟩ text = .ok (.float value) rest) :
    scanNumber limits text = .ok (.float value) rest := by
  simp only [scanNumber] at scanned ⊢
  generalize integerPart (if text.head? = some '-' then text.tail else text) = found at scanned ⊢
  cases found with
  | none => cases scanned
  | some parts =>
      dsimp only at scanned ⊢
      split
      · rwa [if_pos ‹_›] at scanned
      · simp [*] at scanned

theorem scan_word_float {float : FloatText} (read : floatRead float = true) :
    scanWord limits float.chars = .ok (floatValue float) [] := by
  unfold floatRead floatValue at *
  split at read
  · rename_i value scanned
    rw [scanned]
    unfold scanWord at scanned ⊢
    cases constant : scanConstant float.chars with
    | none =>
        rw [constant] at scanned
        exact scan_number_of_float scanned
    | some found =>
        rw [constant] at scanned
        exact scanned
  · cases read

/-- No word is read as a text. -/
theorem scan_word_not_str {text rest : List Char} {value : Value}
    (scanned : scanWord limits text = .ok value rest) (points : CodePoints) :
    value ≠ .str points := by
  unfold scanWord at scanned
  split at scanned
  · rename_i found rest constant
    cases scanned
    obtain ⟨name, first, same⟩ := Option.map_eq_some_iff.mp constant
    have noText : ∀ constant ∈ constants, ∀ points, constant.2 ≠ .str points := by
      intro constant member
      simp only [constants, List.mem_cons, List.not_mem_nil, or_false] at member
      rcases member with rfl | rfl | rfl | rfl | rfl | rfl <;> simp
    cases same
    exact noText name (List.mem_of_find?_eq_some first) points
  · simp only [scanNumber] at scanned
    generalize integerPart (if text.head? = some '-' then text.tail else text) = found at scanned
    cases found with
    | none => cases scanned
    | some parts =>
        dsimp only at scanned
        split at scanned
        · cases scanned
          simp
        · split at scanned
          · cases scanned
          · cases scanned
            simp

theorem float_value_not_str (float : FloatText) (points : CodePoints) :
    floatValue float ≠ .str points := by
  unfold floatValue
  split
  · rename_i value rest scanned
    exact scan_word_not_str scanned points
  · simp

/-! ### What is left of a word -/

theorem drop_digits_suffix (text : List Char) : text.dropWhile Char.isDigit <:+ text :=
  List.dropWhile_suffix Char.isDigit

theorem integer_part_suffix {text whole rest : List Char}
    (found : integerPart text = some (whole, rest)) : rest <:+ text := by
  cases text with
  | nil => cases found
  | cons c text =>
      simp only [integerPart] at found
      split at found
      · cases found
        exact List.suffix_cons c _
      · split at found
        · cases found
          exact (drop_digits_suffix text).trans (List.suffix_cons c text)
        · cases found

theorem fraction_part_suffix (text : List Char) : (fractionPart text).2 <:+ text := by
  unfold fractionPart
  split
  · rename_i c text
    split
    · exact ((drop_digits_suffix text).trans (List.suffix_cons c text)).trans
        (List.suffix_cons '.' _)
    · exact List.suffix_rfl
  · exact List.suffix_rfl

theorem unsigned_suffix (text : List Char) (signed : Prop) [Decidable signed] :
    (if signed then text.tail else text) <:+ text := by
  split
  · exact List.tail_suffix text
  · exact List.suffix_rfl

theorem exponent_part_suffix (text : List Char) : (exponentPart text).2 <:+ text := by
  cases text with
  | nil => exact List.suffix_rfl
  | cons mark text =>
      have unsigned := unsigned_suffix text (text.head? = some '-' ∨ text.head? = some '+')
      simp only [exponentPart]
      generalize (if text.head? = some '-' ∨ text.head? = some '+' then text.tail else text) =
        after at *
      by_cases marked : mark = 'e' ∨ mark = 'E'
      · by_cases missing : after.takeWhile Char.isDigit = []
        · simp only [if_pos marked, if_pos missing]
          exact List.suffix_rfl
        · simp only [if_pos marked, if_neg missing]
          exact ((drop_digits_suffix after).trans unsigned).trans (List.suffix_cons mark text)
      · simp only [if_neg marked]
        exact List.suffix_rfl

theorem scan_number_suffix {text rest : List Char} {value : Value}
    (scanned : scanNumber limits text = .ok value rest) : rest <:+ text := by
  have unsigned := unsigned_suffix text (text.head? = some '-')
  simp only [scanNumber] at scanned
  generalize found : integerPart (if text.head? = some '-' then text.tail else text) =
    answer at scanned
  cases answer with
  | none => cases scanned
  | some parts =>
      have whole := (integer_part_suffix found).trans unsigned
      have fraction := (fraction_part_suffix parts.2).trans whole
      have exponent := (exponent_part_suffix (fractionPart parts.2).2).trans fraction
      dsimp only at scanned
      split at scanned
      · cases scanned
        exact exponent
      · split at scanned
        · cases scanned
        · cases scanned
          exact exponent

theorem scan_word_suffix {text rest : List Char} {value : Value}
    (scanned : scanWord limits text = .ok value rest) : rest <:+ text := by
  unfold scanWord at scanned
  split at scanned
  · rename_i found rest constant
    cases scanned
    obtain ⟨name, _, same⟩ := Option.map_eq_some_iff.mp constant
    cases same
    exact List.drop_suffix _ text
  · exact scan_number_suffix scanned

end Written

end PythonJson

end AgentHarness.Library
