import Mathlib.Data.List.Basic

/-!
# JSON values

Objects keep their entries in insertion order, as a decoder builds them. A number with a fraction or
an exponent is kept as the text an encoder writes for it.
-/

namespace AgentHarness.Library

set_option autoImplicit false

/-- The characters of a finite number. -/
def numberChar (c : Char) : Bool :=
  c.isDigit || c = '.' || c = 'e' || c = '+' || c = '-'

/-- What `float.__repr__` and the encoder's names for the other floats look like: a number with a
point or an exponent, or one of the three names. -/
def isFloatText (text : List Char) : Bool :=
  text = ['N', 'a', 'N'] ||
    let body := if text.head? = some '-' then text.tail else text
    body = ['I', 'n', 'f', 'i', 'n', 'i', 't', 'y'] ||
      (body.head?.any Char.isDigit && body.all numberChar &&
        body.any fun c => c = '.' || c = 'e')

structure FloatText where
  chars : List Char
  isFloat : isFloatText chars = true
  deriving DecidableEq, Repr

/-- Only the zeros are false. -/
def FloatText.truthy (float : FloatText) : Bool :=
  (float.chars.takeWhile fun c => c ≠ 'e').any fun c => c.isAlpha || (c.isDigit && c ≠ '0')

inductive Json where
  | null
  | bool (value : Bool)
  | int (value : Int)
  | float (value : FloatText)
  | str (value : String)
  | arr (items : List Json)
  | obj (entries : List (String × Json))
  deriving Repr

namespace Json

-- The deriving handler does not cover nested types, so equality is decided by hand.
mutual

def decEq : (left right : Json) → Decidable (left = right)
  | .null, .null => isTrue rfl
  | .bool a, .bool b => if h : a = b then isTrue (by rw [h]) else isFalse (by simpa using h)
  | .int a, .int b => if h : a = b then isTrue (by rw [h]) else isFalse (by simpa using h)
  | .float a, .float b => if h : a = b then isTrue (by rw [h]) else isFalse (by simpa using h)
  | .str a, .str b => if h : a = b then isTrue (by rw [h]) else isFalse (by simpa using h)
  | .arr a, .arr b =>
      match decEqItems a b with
      | isTrue h => isTrue (by rw [h])
      | isFalse h => isFalse (by simpa using h)
  | .obj a, .obj b =>
      match decEqEntries a b with
      | isTrue h => isTrue (by rw [h])
      | isFalse h => isFalse (by simpa using h)
  | .null, .bool _ | .null, .int _ | .null, .float _
  | .null, .str _ | .null, .arr _ | .null, .obj _
  | .bool _, .null | .bool _, .int _ | .bool _, .float _
  | .bool _, .str _ | .bool _, .arr _ | .bool _, .obj _
  | .int _, .null | .int _, .bool _ | .int _, .float _
  | .int _, .str _ | .int _, .arr _ | .int _, .obj _
  | .float _, .null | .float _, .bool _ | .float _, .int _
  | .float _, .str _ | .float _, .arr _ | .float _, .obj _
  | .str _, .null | .str _, .bool _ | .str _, .int _
  | .str _, .float _ | .str _, .arr _ | .str _, .obj _
  | .arr _, .null | .arr _, .bool _ | .arr _, .int _
  | .arr _, .float _ | .arr _, .str _ | .arr _, .obj _
  | .obj _, .null | .obj _, .bool _ | .obj _, .int _
  | .obj _, .float _ | .obj _, .str _ | .obj _, .arr _ =>
      isFalse (by simp)

def decEqItems : (left right : List Json) → Decidable (left = right)
  | [], [] => isTrue rfl
  | [], _ :: _ | _ :: _, [] => isFalse (by simp)
  | a :: as, b :: bs =>
      match decEq a b, decEqItems as bs with
      | isTrue h, isTrue hs => isTrue (by rw [h, hs])
      | isFalse h, _ => isFalse (by simp [h])
      | _, isFalse h => isFalse (by simp [h])

def decEqEntries : (left right : List (String × Json)) → Decidable (left = right)
  | [], [] => isTrue rfl
  | [], _ :: _ | _ :: _, [] => isFalse (by simp)
  | (k, a) :: as, (l, b) :: bs =>
      match decEq a b, decEqEntries as bs with
      | isTrue h, isTrue hs =>
          if same : k = l then isTrue (by rw [h, hs, same]) else isFalse (by simp [same])
      | isFalse h, _ => isFalse (by simp [h])
      | _, isFalse h => isFalse (by simp [h])

end

instance : DecidableEq Json := decEq

/-- The value under a key, as a decoder's mapping answers: the last entry written wins. -/
def lookup (key : String) : List (String × Json) → Option Json
  | [] => none
  | (name, value) :: rest =>
      match lookup key rest with
      | some found => some found
      | none => if name = key then some value else none

theorem mem_of_lookup {key : String} {value : Json} {entries : List (String × Json)}
    (found : lookup key entries = some value) : (key, value) ∈ entries := by
  induction entries with
  | nil => cases found
  | cons entry entries ih =>
      rw [lookup] at found
      cases later : lookup key entries with
      | some other =>
          rw [later] at found
          exact List.mem_cons_of_mem _ (ih (later.trans found))
      | none =>
          rw [later] at found
          by_cases same : entry.1 = key
          · simp only [if_pos same, Option.some.injEq] at found
            rw [← same, ← found]
            exact List.mem_cons_self
          · simp [if_neg same] at found

theorem lookup_append (key : String) (front back : List (String × Json)) :
    lookup key (front ++ back) = (lookup key back).or (lookup key front) := by
  induction front with
  | nil => simp [lookup]
  | cons entry front ih =>
      rw [List.cons_append, lookup, lookup, ih]
      cases lookup key back <;> rfl

theorem lookup_eq_none_iff {key : String} {entries : List (String × Json)} :
    lookup key entries = none ↔ key ∉ entries.map Prod.fst := by
  induction entries with
  | nil => simp [lookup]
  | cons entry entries ih =>
      rw [lookup, List.map_cons, List.mem_cons, not_or, ← ih]
      cases lookup key entries <;> simp [eq_comm]

theorem lookup_filter_names {names : List String} {key : String} (other : key ∉ names)
    (entries : List (String × Json)) :
    lookup key (entries.filter fun entry => entry.1 ∉ names) = lookup key entries := by
  induction entries with
  | nil => rfl
  | cons entry entries ih =>
      rw [List.filter_cons]
      by_cases known : entry.1 ∈ names
      · have apart : entry.1 ≠ key := fun same => other (same ▸ known)
        rw [if_neg (by simpa using known), ih, lookup, if_neg apart]
        cases lookup key entries <;> rfl
      · rw [if_pos (by simpa using known), lookup, lookup, ih]

theorem lookup_map_values (change : String → Json → Json) (key : String)
    (entries : List (String × Json)) :
    lookup key (entries.map fun entry => (entry.1, change entry.1 entry.2)) =
      (lookup key entries).map (change key) := by
  induction entries with
  | nil => rfl
  | cons entry entries ih =>
      rw [List.map_cons, lookup, lookup, ih]
      cases lookup key entries with
      | some found => rfl
      | none =>
          by_cases same : entry.1 = key
          · simp [same]
          · simp [same]

mutual

/-- Every string and key of the value satisfies the test. -/
def allTexts (test : String → Bool) : Json → Bool
  | .str value => test value
  | .arr items => allTextsItems test items
  | .obj entries => allTextsEntries test entries
  | _ => true

def allTextsItems (test : String → Bool) : List Json → Bool
  | [] => true
  | item :: items => allTexts test item && allTextsItems test items

def allTextsEntries (test : String → Bool) : List (String × Json) → Bool
  | [] => true
  | (name, value) :: entries =>
      test name && allTexts test value && allTextsEntries test entries

end

/-- Python truthiness of a decoded value. -/
def truthy : Json → Bool
  | .null => false
  | .bool value => value
  | .int value => value != 0
  | .float value => value.truthy
  | .str value => value != ""
  | .arr items => !items.isEmpty
  | .obj entries => !entries.isEmpty

end Json

end AgentHarness.Library
