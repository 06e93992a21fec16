import AgentHarness.Library.Json
import Mathlib.Data.List.Sort

/-!
# JSON text

The text an encoder writes without escaping non-ASCII characters: separators are a parameter, and
sorting the keys is a pass over the value before it is written. The text of a value determines the
value, whatever follows it, as long as what follows cannot continue a number.
-/

namespace AgentHarness.Library

set_option autoImplicit false

namespace JsonText

/-- What is written after a comma and after a colon. -/
structure Separators where
  afterItem : List Char
  afterKey : List Char
  deriving DecidableEq, Repr

def Separators.compact : Separators := ⟨[], []⟩

def Separators.default : Separators := ⟨[' '], [' ']⟩

def hexDigit (n : Nat) : Char :=
  if n < 10 then Char.ofNat (48 + n) else Char.ofNat (87 + n)

def hexValue (c : Char) : Nat :=
  if c.toNat < 58 then c.toNat - 48 else c.toNat - 87

def escape (c : Char) : List Char :=
  if c = '"' then ['\\', '"']
  else if c = '\\' then ['\\', '\\']
  else if c = '\n' then ['\\', 'n']
  else if c = '\r' then ['\\', 'r']
  else if c = '\t' then ['\\', 't']
  else if c = Char.ofNat 12 then ['\\', 'f']
  else if c = Char.ofNat 8 then ['\\', 'b']
  else if c.toNat < 32 then ['\\', 'u', '0', '0', hexDigit (c.toNat / 16), hexDigit (c.toNat % 16)]
  else [c]

def quote (text : String) : List Char :=
  '"' :: (text.toList.flatMap escape ++ ['"'])

def decimal (value : Int) : List Char :=
  match value with
  | .ofNat n => Nat.toDigits 10 n
  | .negSucc n => '-' :: Nat.toDigits 10 (n + 1)

mutual

def render (separators : Separators) : Json → List Char
  | .null => ['n', 'u', 'l', 'l']
  | .bool true => ['t', 'r', 'u', 'e']
  | .bool false => ['f', 'a', 'l', 's', 'e']
  | .int value => decimal value
  | .float value => value.chars
  | .str value => quote value
  | .arr [] => ['[', ']']
  | .arr (item :: items) => '[' :: (render separators item ++ renderItems separators items)
  | .obj [] => ['{', '}']
  | .obj ((name, value) :: entries) =>
      '{' :: (quote name ++ ':' :: (separators.afterKey ++
        (render separators value ++ renderEntries separators entries)))

def renderItems (separators : Separators) : List Json → List Char
  | [] => [']']
  | item :: items =>
      ',' :: (separators.afterItem ++ (render separators item ++ renderItems separators items))

def renderEntries (separators : Separators) : List (String × Json) → List Char
  | [] => ['}']
  | (name, value) :: entries =>
      ',' :: (separators.afterItem ++ (quote name ++ ':' :: (separators.afterKey ++
        (render separators value ++ renderEntries separators entries))))

end

def sortEntries (entries : List (String × Json)) : List (String × Json) :=
  entries.insertionSort fun left right => left.1 ≤ right.1

mutual

/-- The value with the entries of every object in key order. -/
def sortKeys : Json → Json
  | .arr items => .arr (sortKeysItems items)
  | .obj entries => .obj (sortEntries (sortKeysEntries entries))
  | value => value

def sortKeysItems : List Json → List Json
  | [] => []
  | item :: items => sortKeys item :: sortKeysItems items

def sortKeysEntries : List (String × Json) → List (String × Json)
  | [] => []
  | (name, value) :: entries => (name, sortKeys value) :: sortKeysEntries entries

end

def dumps (separators : Separators) (value : Json) : String :=
  String.ofList (render separators value)

/-! ## Reading back -/

/-- The first character of an escaped text and what is left of it. -/
def unescape : List Char → Option (Char × List Char)
  | '\\' :: 'u' :: _ :: _ :: high :: low :: rest =>
      some (Char.ofNat (16 * hexValue high + hexValue low), rest)
  | '\\' :: 'n' :: rest => some ('\n', rest)
  | '\\' :: 'r' :: rest => some ('\r', rest)
  | '\\' :: 't' :: rest => some ('\t', rest)
  | '\\' :: 'f' :: rest => some (Char.ofNat 12, rest)
  | '\\' :: 'b' :: rest => some (Char.ofNat 8, rest)
  | '\\' :: c :: rest => some (c, rest)
  | c :: rest => some (c, rest)
  | [] => none

theorem hex_value_hex_digit : ∀ n, n < 16 → hexValue (hexDigit n) = n := by decide

theorem unescape_escape (c : Char) (rest : List Char) :
    unescape (escape c ++ rest) = some (c, rest) := by
  unfold escape
  split_ifs with quoted backslash newline carriage tab feed backspace control
  · subst quoted
    rfl
  · subst backslash
    rfl
  · subst newline
    rfl
  · subst carriage
    rfl
  · subst tab
    rfl
  · subst feed
    rfl
  · subst backspace
    rfl
  · have high := hex_value_hex_digit (c.toNat / 16) (by omega)
    have low := hex_value_hex_digit (c.toNat % 16) (by omega)
    have whole : 16 * (c.toNat / 16) + c.toNat % 16 = c.toNat := by omega
    simp only [List.cons_append, List.nil_append, unescape, high, low, whole, Char.ofNat_toNat]
  · simp only [List.cons_append, List.nil_append]
    unfold unescape
    split <;> simp_all

theorem escape_head (c : Char) : ∃ first rest, escape c = first :: rest ∧ first ≠ '"' := by
  unfold escape
  split_ifs with quoted
  all_goals exact ⟨_, _, rfl, by first | decide | exact quoted⟩

theorem escaped_injective (left right leftRest rightRest : List Char)
    (same : left.flatMap escape ++ '"' :: leftRest = right.flatMap escape ++ '"' :: rightRest) :
    left = right ∧ leftRest = rightRest := by
  induction left generalizing right with
  | nil =>
      cases right with
      | nil => exact ⟨rfl, (List.cons.inj same).2⟩
      | cons d right =>
          obtain ⟨first, rest, shape, notQuote⟩ := escape_head d
          simp only [List.flatMap_nil, List.nil_append, List.flatMap_cons, shape,
            List.cons_append, List.cons.injEq] at same
          exact absurd same.1.symm notQuote
  | cons c left ih =>
      cases right with
      | nil =>
          obtain ⟨first, rest, shape, notQuote⟩ := escape_head c
          simp only [List.flatMap_nil, List.nil_append, List.flatMap_cons, shape,
            List.cons_append, List.cons.injEq] at same
          exact absurd same.1 notQuote
      | cons d right =>
          simp only [List.flatMap_cons, List.append_assoc] at same
          have decoded := congrArg unescape same
          rw [unescape_escape, unescape_escape] at decoded
          simp only [Option.some.injEq, Prod.mk.injEq] at decoded
          obtain ⟨rfl, sameRest⟩ := decoded
          obtain ⟨rfl, rest_eq⟩ := ih right sameRest
          exact ⟨rfl, rest_eq⟩

theorem quote_injective (left right : String) (leftRest rightRest : List Char)
    (same : quote left ++ leftRest = quote right ++ rightRest) :
    left = right ∧ leftRest = rightRest := by
  simp only [quote, List.cons_append, List.append_assoc, List.cons.injEq, true_and,
    List.nil_append] at same
  obtain ⟨chars, rest_eq⟩ := escaped_injective _ _ _ _ same
  exact ⟨String.toList_inj.mp chars, rest_eq⟩

/-- The characters of numbers and names. -/
def wordChar (c : Char) : Bool := c.isAlphanum || c = '.' || c = '+' || c = '-'

/-- The text that follows a value cannot continue a number. -/
def Stops (rest : List Char) : Prop := ∀ c ∈ rest.head?, wordChar c = false

theorem words_injective (left right leftRest rightRest : List Char)
    (leftWord : ∀ c ∈ left, wordChar c = true) (rightWord : ∀ c ∈ right, wordChar c = true)
    (leftStops : Stops leftRest) (rightStops : Stops rightRest)
    (same : left ++ leftRest = right ++ rightRest) : left = right ∧ leftRest = rightRest := by
  induction left generalizing right with
  | nil =>
      cases right with
      | nil => exact ⟨rfl, same⟩
      | cons d right =>
          have stops := leftStops d (by simp [List.nil_append] at same; simp [same])
          rw [rightWord d (by simp)] at stops
          cases stops
  | cons c left ih =>
      cases right with
      | nil =>
          have stops := rightStops c (by simp [List.nil_append] at same; simp [← same])
          rw [leftWord c (by simp)] at stops
          cases stops
      | cons d right =>
          simp only [List.cons_append, List.cons.injEq] at same
          obtain ⟨rfl, sameRest⟩ := same
          obtain ⟨rfl, rest_eq⟩ := ih right (fun e member => leftWord e (by simp [member]))
            (fun e member => rightWord e (by simp [member])) sameRest
          exact ⟨rfl, rest_eq⟩

theorem digits_isDigit (n : Nat) : ∀ c ∈ Nat.toDigits 10 n, c.isDigit = true :=
  fun _ member => Nat.isDigit_of_mem_toDigits (by decide) (by decide) member

theorem to_digits_injective {m n : Nat} (same : Nat.toDigits 10 m = Nat.toDigits 10 n) : m = n := by
  rw [← @Nat.ofDigitChars_ten_toDigits m, same, Nat.ofDigitChars_ten_toDigits]

theorem decimal_head (value : Int) :
    ∃ first rest, decimal value = first :: rest ∧ (first.isDigit = true ∨ first = '-') := by
  cases value with
  | ofNat n =>
      cases digits : Nat.toDigits 10 n with
      | nil => exact absurd digits Nat.toDigits_ne_nil
      | cons first rest =>
          exact ⟨first, rest, digits, .inl (digits_isDigit n first (by simp [digits]))⟩
  | negSucc n => exact ⟨'-', _, rfl, .inr rfl⟩

theorem decimal_chars (value : Int) : ∀ c ∈ decimal value, c.isDigit = true ∨ c = '-' := by
  intro c member
  cases value with
  | ofNat n => exact Or.inl (digits_isDigit n c member)
  | negSucc n =>
      rcases List.mem_cons.mp member with isMinus | isDigit
      · exact Or.inr isMinus
      · exact Or.inl (digits_isDigit (n + 1) c isDigit)

theorem decimal_injective {left right : Int} (same : decimal left = decimal right) :
    left = right := by
  have apart : ∀ m n : Nat, Nat.toDigits 10 m ≠ '-' :: Nat.toDigits 10 n := by
    intro m n clash
    have isDigit := digits_isDigit m '-' (by simp [clash])
    cases isDigit
  cases left with
  | ofNat m =>
      cases right with
      | ofNat n => exact congrArg Int.ofNat (to_digits_injective same)
      | negSucc n => exact absurd same (apart m (n + 1))
  | negSucc m =>
      cases right with
      | ofNat n => exact absurd same.symm (apart n (m + 1))
      | negSucc n =>
          have successors := to_digits_injective (List.cons.inj same).2
          exact congrArg Int.negSucc (by omega)

theorem decimal_word (value : Int) : ∀ c ∈ decimal value, wordChar c = true := by
  intro c member
  rcases decimal_chars value c member with isDigit | isMinus
  · simp [wordChar, Char.isAlphanum, isDigit]
  · rw [isMinus]
    rfl

/-! ### Floats -/

theorem float_cases (value : FloatText) :
    value.chars = ['N', 'a', 'N'] ∨ ∃ sign body, value.chars = sign ++ body ∧
      (sign = [] ∨ sign = ['-']) ∧
      (body = ['I', 'n', 'f', 'i', 'n', 'i', 't', 'y'] ∨
        (body.head?.any Char.isDigit = true ∧ body.all numberChar = true ∧
          body.any (fun c => c = '.' || c = 'e') = true)) := by
  have isFloat := value.isFloat
  simp only [isFloatText, Bool.or_eq_true, Bool.and_eq_true, decide_eq_true_eq] at isFloat
  rcases isFloat with isNan | shaped
  · exact Or.inl isNan
  · right
    by_cases signed : value.chars.head? = some '-'
    · rw [if_pos signed] at shaped
      obtain ⟨rest, isCons⟩ := List.head?_eq_some_iff.mp signed
      rw [isCons, List.tail_cons] at shaped
      exact ⟨['-'], rest, isCons, Or.inr rfl, by simpa [and_assoc] using shaped⟩
    · rw [if_neg signed] at shaped
      exact ⟨[], value.chars, rfl, Or.inl rfl, by simpa [and_assoc] using shaped⟩

theorem word_of_number {c : Char} (isNumber : numberChar c = true) : wordChar c = true := by
  simp only [numberChar, Bool.or_eq_true, decide_eq_true_eq] at isNumber
  rcases isNumber with (((isDigit | rfl) | rfl) | rfl) | rfl
  · simp [wordChar, Char.isAlphanum, isDigit]
  all_goals rfl

theorem float_word (value : FloatText) : ∀ c ∈ value.chars, wordChar c = true := by
  rcases float_cases value with isNan | ⟨sign, body, isChars, isSign, isBody⟩
  · rw [isNan]
    exact List.all_eq_true.mp (by decide)
  · intro c member
    rw [isChars, List.mem_append] at member
    rcases member with inSign | inBody
    · rcases isSign with rfl | rfl
      · cases inSign
      · rw [List.mem_singleton.mp inSign]
        rfl
    · rcases isBody with rfl | ⟨_, numbers, _⟩
      · have word : "Infinity".toList.all wordChar = true := by decide
        exact List.all_eq_true.mp word c inBody
      · exact word_of_number (List.all_eq_true.mp numbers c inBody)

/-- A float shows that it is none of the integers. -/
theorem float_mark (value : FloatText) :
    ∃ c ∈ value.chars, c.isDigit = false ∧ c ≠ '-' := by
  rcases float_cases value with isNan | ⟨sign, body, isChars, _, isBody⟩
  · exact ⟨'N', by simp [isNan], rfl, by decide⟩
  · rw [isChars]
    rcases isBody with rfl | ⟨_, _, marked⟩
    · exact ⟨'I', by simp, rfl, by decide⟩
    · obtain ⟨c, member, isMark⟩ := List.any_eq_true.mp marked
      refine ⟨c, List.mem_append_right _ member, ?_⟩
      simp only [Bool.or_eq_true, decide_eq_true_eq] at isMark
      rcases isMark with rfl | rfl
      · exact ⟨rfl, by decide⟩
      · exact ⟨rfl, by decide⟩

theorem decimal_ne_float (number : Int) (value : FloatText) : decimal number ≠ value.chars := by
  intro same
  obtain ⟨c, member, notDigit, notMinus⟩ := float_mark value
  rw [← same] at member
  rcases decimal_chars number c member with isDigit | isMinus
  · rw [notDigit] at isDigit
    cases isDigit
  · exact notMinus isMinus

/-- The kind of a value, as the first character of its text shows it. -/
def kind : Json → Nat
  | .null => 0
  | .bool true => 1
  | .bool false => 2
  | .int _ | .float _ => 3
  | .str _ => 4
  | .arr _ => 5
  | .obj _ => 6

def kindOf (first : Char) : Nat :=
  if first = 'n' then 0
  else if first = 't' then 1
  else if first = 'f' then 2
  else if first.isDigit || first = '-' || first = 'N' || first = 'I' then 3
  else if first = '"' then 4
  else if first = '[' then 5
  else if first = '{' then 6
  else 7

theorem kind_of_number {first : Char} (isNumber : first.isDigit = true ∨ first = '-' ∨
    first = 'N' ∨ first = 'I') : kindOf first = 3 := by
  rcases isNumber with isDigit | rfl | rfl | rfl
  · have apart : first ≠ 'n' ∧ first ≠ 't' ∧ first ≠ 'f' := by
      refine ⟨?_, ?_, ?_⟩ <;> intro same <;> rw [same] at isDigit <;> cases isDigit
    simp [kindOf, apart, isDigit]
  all_goals rfl

theorem float_head (value : FloatText) : ∃ first rest, value.chars = first :: rest ∧
    (first.isDigit = true ∨ first = '-' ∨ first = 'N' ∨ first = 'I') := by
  rcases float_cases value with isNan | ⟨sign, body, isChars, isSign, isBody⟩
  · exact ⟨'N', _, isNan, by simp⟩
  · rcases isSign with rfl | rfl
    · rcases isBody with rfl | ⟨startsDigit, _, _⟩
      · exact ⟨'I', _, isChars, by simp⟩
      · cases body with
        | nil => cases startsDigit
        | cons first rest => exact ⟨first, rest, isChars, Or.inl startsDigit⟩
    · exact ⟨'-', body, isChars, by simp⟩

theorem render_kind (separators : Separators) (value : Json) :
    ∃ first rest, render separators value = first :: rest ∧ kindOf first = kind value := by
  cases value with
  | null => exact ⟨_, _, by rw [render], rfl⟩
  | bool value => cases value <;> exact ⟨_, _, by rw [render], rfl⟩
  | int value =>
      obtain ⟨first, rest, shape, isNumber⟩ := decimal_head value
      refine ⟨first, rest, by rw [render, shape], kind_of_number ?_⟩
      rcases isNumber with isDigit | isMinus
      · exact Or.inl isDigit
      · exact Or.inr (Or.inl isMinus)
  | float value =>
      obtain ⟨first, rest, shape, isNumber⟩ := float_head value
      exact ⟨first, rest, by rw [render, shape], kind_of_number isNumber⟩
  | str value => exact ⟨_, _, by rw [render, quote], rfl⟩
  | arr items => cases items <;> exact ⟨_, _, by rw [render], rfl⟩
  | obj entries =>
      cases entries with
      | nil => exact ⟨_, _, by rw [render], rfl⟩
      | cons entry entries => exact ⟨_, _, by rw [render], rfl⟩

theorem same_kind {separators : Separators} {left right : Json} {leftRest rightRest : List Char}
    (same : render separators left ++ leftRest = render separators right ++ rightRest) :
    kind left = kind right := by
  obtain ⟨leftFirst, leftTail, leftShape, leftKind⟩ := render_kind separators left
  obtain ⟨rightFirst, rightTail, rightShape, rightKind⟩ := render_kind separators right
  rw [leftShape, rightShape, List.cons_append, List.cons_append, List.cons.injEq] at same
  rw [← leftKind, ← rightKind, same.1]

theorem render_not_closing {separators : Separators} {value : Json} {rest tail : List Char}
    {closing : Char} (closes : kindOf closing = 7)
    (same : render separators value ++ rest = closing :: tail) : False := by
  obtain ⟨first, more, shape, first_kind⟩ := render_kind separators value
  rw [shape, List.cons_append, List.cons.injEq] at same
  rw [same.1, closes] at first_kind
  rcases value with _ | (_ | _) | _ | _ | _ | _ | _ <;> cases first_kind

theorem stops_cons {c : Char} (rest : List Char) (notWord : wordChar c = false) :
    Stops (c :: rest) := by
  intro first member
  cases member
  exact notWord

theorem items_stop (separators : Separators) (items : List Json) (rest : List Char) :
    Stops (renderItems separators items ++ rest) := by
  cases items with
  | nil => exact stops_cons rest rfl
  | cons item items => exact stops_cons _ rfl

theorem entries_stop (separators : Separators) (entries : List (String × Json))
    (rest : List Char) : Stops (renderEntries separators entries ++ rest) := by
  cases entries with
  | nil => exact stops_cons rest rfl
  | cons entry entries => exact stops_cons _ rfl

mutual

/-- The text of a value is not the beginning of the text of another one. -/
theorem render_injective (separators : Separators) :
    (left right : Json) → (leftRest rightRest : List Char) → Stops leftRest → Stops rightRest →
    render separators left ++ leftRest = render separators right ++ rightRest →
    left = right ∧ leftRest = rightRest
  | left, right, leftRest, rightRest, leftStops, rightStops, same => by
      have kinds := same_kind same
      match left, right with
      | .null, .null => exact ⟨rfl, List.append_cancel_left same⟩
      | .bool true, .bool true => exact ⟨rfl, List.append_cancel_left same⟩
      | .bool false, .bool false => exact ⟨rfl, List.append_cancel_left same⟩
      | .int a, .int b =>
          rw [render, render] at same
          obtain ⟨texts, rest⟩ := words_injective _ _ _ _ (decimal_word a) (decimal_word b)
            leftStops rightStops same
          exact ⟨congrArg Json.int (decimal_injective texts), rest⟩
      | .int a, .float b =>
          rw [render, render] at same
          exact absurd (words_injective _ _ _ _ (decimal_word a) (float_word b)
            leftStops rightStops same).1 (decimal_ne_float a b)
      | .float a, .int b =>
          rw [render, render] at same
          exact absurd (words_injective _ _ _ _ (float_word a) (decimal_word b)
            leftStops rightStops same).1.symm (decimal_ne_float b a)
      | .float a, .float b =>
          rw [render, render] at same
          obtain ⟨texts, rest⟩ := words_injective _ _ _ _ (float_word a) (float_word b)
            leftStops rightStops same
          cases a
          cases b
          cases texts
          exact ⟨rfl, rest⟩
      | .str a, .str b =>
          rw [render, render] at same
          obtain ⟨rfl, rest⟩ := quote_injective a b _ _ same
          exact ⟨rfl, rest⟩
      | .arr [], .arr [] => exact ⟨rfl, List.append_cancel_left same⟩
      | .arr [], .arr (item :: items) =>
          simp only [render, List.cons_append, List.append_assoc, List.nil_append,
            List.cons.injEq, true_and] at same
          exact (render_not_closing rfl same.symm).elim
      | .arr (item :: items), .arr [] =>
          simp only [render, List.cons_append, List.append_assoc, List.nil_append,
            List.cons.injEq, true_and] at same
          exact (render_not_closing rfl same).elim
      | .arr (a :: as), .arr (b :: bs) =>
          simp only [render, List.cons_append, List.append_assoc, List.cons.injEq,
            true_and] at same
          obtain ⟨rfl, tails⟩ := render_injective separators a b _ _
            (items_stop separators as leftRest) (items_stop separators bs rightRest) same
          obtain ⟨rfl, rest⟩ := render_items_injective separators as bs _ _ tails
          exact ⟨rfl, rest⟩
      | .obj [], .obj [] => exact ⟨rfl, List.append_cancel_left same⟩
      | .obj [], .obj ((name, value) :: entries) =>
          simp [render, quote] at same
      | .obj ((name, value) :: entries), .obj [] =>
          simp [render, quote] at same
      | .obj ((m, a) :: as), .obj ((n, b) :: bs) =>
          simp only [render, List.cons_append, List.append_assoc, List.cons.injEq,
            true_and] at same
          obtain ⟨rfl, colon⟩ := quote_injective m n _ _ same
          have values := List.append_cancel_left (List.cons.inj colon).2
          obtain ⟨rfl, tails⟩ := render_injective separators a b _ _
            (entries_stop separators as leftRest) (entries_stop separators bs rightRest) values
          obtain ⟨rfl, rest⟩ := render_entries_injective separators as bs _ _ tails
          exact ⟨rfl, rest⟩

theorem render_items_injective (separators : Separators) :
    (left right : List Json) → (leftRest rightRest : List Char) →
    renderItems separators left ++ leftRest = renderItems separators right ++ rightRest →
    left = right ∧ leftRest = rightRest
  | [], [], leftRest, rightRest, same => ⟨rfl, List.append_cancel_left same⟩
  | [], item :: items, leftRest, rightRest, same => by simp [renderItems] at same
  | item :: items, [], leftRest, rightRest, same => by simp [renderItems] at same
  | a :: as, b :: bs, leftRest, rightRest, same => by
      simp only [renderItems, List.cons_append, List.append_assoc, List.cons.injEq,
        true_and] at same
      obtain ⟨rfl, tails⟩ := render_injective separators a b _ _
        (items_stop separators as leftRest) (items_stop separators bs rightRest)
        (List.append_cancel_left same)
      obtain ⟨rfl, rest⟩ := render_items_injective separators as bs _ _ tails
      exact ⟨rfl, rest⟩

theorem render_entries_injective (separators : Separators) :
    (left right : List (String × Json)) → (leftRest rightRest : List Char) →
    renderEntries separators left ++ leftRest = renderEntries separators right ++ rightRest →
    left = right ∧ leftRest = rightRest
  | [], [], leftRest, rightRest, same => ⟨rfl, List.append_cancel_left same⟩
  | [], (name, value) :: entries, leftRest, rightRest, same => by simp [renderEntries] at same
  | (name, value) :: entries, [], leftRest, rightRest, same => by simp [renderEntries] at same
  | (m, a) :: as, (n, b) :: bs, leftRest, rightRest, same => by
      simp only [renderEntries, List.cons_append, List.append_assoc, List.cons.injEq,
        true_and] at same
      obtain ⟨rfl, colon⟩ := quote_injective m n _ _ (List.append_cancel_left same)
      have values := List.append_cancel_left (List.cons.inj colon).2
      obtain ⟨rfl, tails⟩ := render_injective separators a b _ _
        (entries_stop separators as leftRest) (entries_stop separators bs rightRest) values
      obtain ⟨rfl, rest⟩ := render_entries_injective separators as bs _ _ tails
      exact ⟨rfl, rest⟩

end

theorem dumps_injective (separators : Separators) {left right : Json}
    (same : dumps separators left = dumps separators right) : left = right := by
  have chars := String.ofList_injective same
  refine (render_injective separators left right [] [] ?_ ?_ (by simpa using chars)).1
  · intro c first
    cases first
  · intro c first
    cases first

end JsonText

end AgentHarness.Library
