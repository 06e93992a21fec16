import AgentHarness.Library.JsonValue

/-!
# Numbers and equality of Python

The value of a `float` and the `==` of decoded values, where `True == 1 == 1.0` and dictionaries are
compared without the order of their keys. A `NaN` is equal to itself only as the same object, which
containers test first: here all are one object.
-/

namespace AgentHarness.Library

set_option autoImplicit false

/-! ## The value of a `float` -/

namespace PythonFloat

/-- Every finite `float` is a multiple of the smallest positive one: this many make one. -/
def one : Nat := 2 ^ 1074

inductive Value where
  | nan
  | infinity (negative : Bool)
  | units (count : Int)
  deriving DecidableEq, Repr

def numeral (text : List Char) : Nat :=
  (text.filter Char.isDigit).foldl (fun value c => 10 * value + (c.toNat - 48)) 0

/-- To the nearest integer, ties to even. -/
def roundHalfEven (numerator denominator : Nat) : Nat :=
  let quotient := numerator / denominator
  let twice := 2 * (numerator % denominator)
  if twice < denominator ∨ (twice = denominator ∧ quotient % 2 = 0) then quotient else quotient + 1

/-- The nearest `float` of `digits * 10 ^ exponent`, with 53 significant bits. -/
def nearest (negative : Bool) (digits : Nat) (exponent : Int) : Value :=
  let numerator := digits * 10 ^ exponent.toNat * one
  let denominator := 10 ^ (-exponent).toNat
  let step := 2 ^ ((numerator / denominator).log2 - 52)
  let count := roundHalfEven numerator (denominator * step) * step
  if count < 2 ^ 1024 * one then .units (if negative then -count else count)
  else .infinity negative

end PythonFloat

open PythonFloat in
def FloatText.value (float : FloatText) : PythonFloat.Value :=
  if float.chars = ['N', 'a', 'N'] then .nan
  else
    let negative := float.chars.head? = some '-'
    if float.chars.any Char.isAlpha ∧ ¬ float.chars.any Char.isDigit then .infinity negative
    else
      let mantissa := float.chars.takeWhile fun c => c ≠ 'e'
      let power := (float.chars.dropWhile fun c => c ≠ 'e').drop 1
      let fraction := (mantissa.dropWhile fun c => c ≠ '.').drop 1
      let scale : Int := if power.head? = some '-' then -numeral power else numeral power
      nearest negative (numeral mantissa) (scale - fraction.length)

/-! ## Equality -/

namespace Json

mutual

/-- The value with one form for equal numbers. -/
def plainNumbers : Json → Json
  | .bool value => .int (if value then 1 else 0)
  | .float value =>
      match value.value with
      | .units count =>
          if count % PythonFloat.one = 0 then .int (count / PythonFloat.one) else .float value
      | _ => .float value
  | .arr items => .arr (plainNumbersItems items)
  | .obj entries => .obj (plainNumbersEntries entries)
  | value => value

def plainNumbersItems : List Json → List Json
  | [] => []
  | item :: items => plainNumbers item :: plainNumbersItems items

def plainNumbersEntries : List (String × Json) → List (String × Json)
  | [] => []
  | (name, value) :: entries => (name, plainNumbers value) :: plainNumbersEntries entries

end

/-- One representative of the values that are equal to this one. -/
def canonical (value : Json) : Json := JsonText.sortKeys (plainNumbers value)

def equals (left right : Json) : Bool := canonical left == canonical right

end Json

end AgentHarness.Library
