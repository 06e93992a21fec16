import AgentHarness.Library.JsonText
import AgentHarness.Library.PythonJson
import AgentHarness.Library.Text
import AgentHarness.Library.Utf8

/-!
# A list of texts as JSON

`json.dumps` of a list of strings, which writes ASCII only, and `json.loads` of its bytes.
-/

namespace AgentHarness.Library

set_option autoImplicit false

namespace PythonJson

/-- A character as UTF-16 units. -/
def utf16Units (c : Char) : List Nat :=
  if c.toNat < 0x10000 then [c.toNat]
  else [0xD800 + (c.toNat - 0x10000) / 0x400, 0xDC00 + (c.toNat - 0x10000) % 0x400]

def unitEscape (unit : Nat) : List Char :=
  ['\\', 'u', JsonText.hexDigit (unit / 4096), JsonText.hexDigit (unit / 256 % 16),
    JsonText.hexDigit (unit / 16 % 16), JsonText.hexDigit (unit % 16)]

def asciiEscape (c : Char) : List Char :=
  if c = '"' then ['\\', '"']
  else if c = '\\' then ['\\', '\\']
  else if c = '\n' then ['\\', 'n']
  else if c = '\r' then ['\\', 'r']
  else if c = '\t' then ['\\', 't']
  else if c.toNat = 12 then ['\\', 'f']
  else if c.toNat = 8 then ['\\', 'b']
  else if 32 ≤ c.toNat ∧ c.toNat < 127 then [c]
  else (utf16Units c).flatMap unitEscape

def asciiQuote (text : String) : List Char :=
  '"' :: (text.toList.flatMap asciiEscape ++ ['"'])

/-- `json.dumps` of a list of strings. -/
def dumpsTexts (texts : List String) : String :=
  String.ofList ('[' :: ([',', ' '].intercalate (texts.map asciiQuote) ++ [']']))

/-- `json.loads` of bytes. The reading of bytes that are not UTF-8 without a mark is a parameter:
the decoder tells other encodings by their first bytes, and takes encoded surrogates. -/
def loadsBytes (limits : Limits) (otherwise : List UInt8 → Loaded) (bytes : List UInt8) : Loaded :=
  if 0 ∈ bytes.take 2 then otherwise bytes
  else match Utf8.decode bytes with
    | none => otherwise bytes
    | some text =>
        if text.toList.head? = some (Char.ofNat 0xFEFF) then otherwise bytes else loads limits text

/-! ## Strings -/

theorem hex_digit_value : ∀ n, n < 16 → hexDigit (JsonText.hexDigit n) = some n := by decide

theorem char_range (c : Char) : c.toNat < 0xD800 ∨ 0xDFFF < c.toNat ∧ c.toNat < 0x110000 := by
  have valid := c.valid
  simp only [UInt32.isValidChar, Nat.isValidChar] at valid
  exact valid

theorem scan_unit_escape {unit : Nat} (small : unit < 0x10000) (rest : List Char) :
    scanUnits (unitEscape unit ++ rest) =
      (scanUnits rest).map fun (units, rest) => (unit :: units, rest) := by
  have isUnit : hexUnit (JsonText.hexDigit (unit / 4096)) (JsonText.hexDigit (unit / 256 % 16))
      (JsonText.hexDigit (unit / 16 % 16)) (JsonText.hexDigit (unit % 16)) = some unit := by
    simp only [hexUnit, hex_digit_value _ (show unit / 4096 < 16 by omega),
      hex_digit_value _ (show unit / 256 % 16 < 16 by omega),
      hex_digit_value _ (show unit / 16 % 16 < 16 by omega),
      hex_digit_value _ (show unit % 16 < 16 by omega), Option.some.injEq]
    omega
  simp only [unitEscape, List.cons_append, List.nil_append, scanUnits, isUnit]

theorem scan_ascii_escape (c : Char) (rest : List Char) :
    scanUnits (asciiEscape c ++ rest) =
      (scanUnits rest).map fun (units, rest) => (utf16Units c ++ units, rest) := by
  have range := char_range c
  unfold asciiEscape
  split_ifs with quoted backslash newline carriage tab feed backspace plain
  · rw [quoted]
    rfl
  · rw [backslash]
    rfl
  · rw [newline]
    rfl
  · rw [carriage]
    rfl
  · rw [tab]
    rfl
  · simp [scanUnits, simpleEscape, utf16Units, feed]
  · simp [scanUnits, simpleEscape, utf16Units, backspace]
  · rw [List.singleton_append, scanUnits, if_neg (by omega), utf16Units, if_pos (by omega)]
    · rfl
    · exact quoted
    · intro _ _ _ _ _ isBackslash
      exact absurd isBackslash backslash
    · intro _ _ isBackslash
      exact absurd isBackslash backslash
  · by_cases small : c.toNat < 0x10000
    · rw [utf16Units, if_pos small, List.flatMap_singleton, scan_unit_escape small]
      rfl
    · rw [utf16Units, if_neg small, List.flatMap_cons, List.flatMap_singleton, List.append_assoc,
        scan_unit_escape (by omega), scan_unit_escape (by omega), Option.map_map]
      rfl

/-- The units of a text are joined to its code points again. -/
theorem join_surrogates_units (chars : List Char) :
    joinSurrogates (chars.flatMap utf16Units) = chars.map Char.toNat := by
  induction chars with
  | nil => rfl
  | cons c chars ih =>
      have range := char_range c
      rw [List.flatMap_cons, utf16Units]
      split
      · rename_i small
        have notHigh : isHigh c.toNat = false := by
          simp only [isHigh, Bool.and_eq_false_iff, decide_eq_false_iff_not]
          omega
        cases units : chars.flatMap utf16Units with
        | nil =>
            rw [units] at ih
            rw [List.map_cons, ← ih]
            rfl
        | cons unit units' =>
            rw [units] at ih
            rw [List.singleton_append, joinSurrogates, notHigh, Bool.false_and,
              if_neg Bool.false_ne_true, ih, List.map_cons]
      · have high : isHigh (0xD800 + (c.toNat - 0x10000) / 0x400) = true := by
          simp only [isHigh, Bool.and_eq_true, decide_eq_true_eq]
          omega
        have low : isLow (0xDC00 + (c.toNat - 0x10000) % 0x400) = true := by
          simp only [isLow, Bool.and_eq_true, decide_eq_true_eq]
          omega
        have joined : 0x10000 + (0xD800 + (c.toNat - 0x10000) / 0x400 - 0xD800) * 0x400 +
            (0xDC00 + (c.toNat - 0x10000) % 0x400 - 0xDC00) = c.toNat := by omega
        rw [List.cons_append, List.singleton_append, joinSurrogates, high, low, Bool.and_self,
          if_pos rfl, joined, ih, List.map_cons]

theorem scan_quoted (text : String) (rest : List Char) :
    scanString (text.toList.flatMap asciiEscape ++ '"' :: rest) = some (codePoints text, rest) := by
  have units : ∀ chars : List Char, scanUnits (chars.flatMap asciiEscape ++ '"' :: rest) =
      some (chars.flatMap utf16Units, rest) := by
    intro chars
    induction chars with
    | nil => rfl
    | cons c chars ih =>
        rw [List.flatMap_cons, List.append_assoc, scan_ascii_escape, ih]
        rfl
  rw [scanString, units, Option.map_some]
  dsimp only
  rw [join_surrogates_units]
  rfl

/-! ## Lists of texts -/

section Texts

variable {limits : Limits}

theorem scan_quote (fuel depth : Nat) (text : String) (rest : List Char) :
    scanOnce limits (fuel + 1) depth (asciiQuote text ++ rest) =
      .ok (.str (codePoints text)) rest := by
  simp only [asciiQuote, List.cons_append, List.append_assoc, List.nil_append, scanOnce, if_true,
    scan_quoted]
  rfl

theorem scan_more_texts (text : String) (texts : List String) (fuel depth : Nat) (rest : List Char)
    (enough : texts.length + 1 < fuel) :
    scanMoreItems limits fuel depth
        ([',', ' '].intercalate ((text :: texts).map asciiQuote) ++ ']' :: rest) =
      .ok ((text :: texts).map fun text => .str (codePoints text)) rest := by
  induction texts generalizing text fuel with
  | nil =>
      obtain ⟨fuel, rfl⟩ : ∃ less, fuel = less + 2 := ⟨fuel - 2, by simp at enough; omega⟩
      rw [List.map_singleton, List.intercalate_singleton, scanMoreItems, scan_quote]
      rfl
  | cons next texts ih =>
      rw [List.length_cons] at enough
      obtain ⟨fuel, rfl⟩ : ∃ less, fuel = less + 2 := ⟨fuel - 2, by omega⟩
      have later := ih next (fuel + 1) (by omega)
      have more : [',', ' '].intercalate ((text :: next :: texts).map asciiQuote) ++ ']' :: rest =
          asciiQuote text ++ (',' :: ' ' ::
            ([',', ' '].intercalate ((next :: texts).map asciiQuote) ++ ']' :: rest)) := by
        simp [List.intercalate_cons_cons]
      have blanks : skipBlanks (' ' ::
            ([',', ' '].intercalate ((next :: texts).map asciiQuote) ++ ']' :: rest)) =
          [',', ' '].intercalate ((next :: texts).map asciiQuote) ++ ']' :: rest := by
        cases texts <;> rfl
      rw [more, scanMoreItems, scan_quote]
      simp only [Scan.bind]
      have comma : skipBlanks (',' :: ' ' ::
            ([',', ' '].intercalate ((next :: texts).map asciiQuote) ++ ']' :: rest)) =
          ',' :: ' ' ::
            ([',', ' '].intercalate ((next :: texts).map asciiQuote) ++ ']' :: rest) := rfl
      rw [comma]
      simp only [blanks, later]
      rfl

theorem quotes_length (texts : List String) :
    texts.length ≤ ([',', ' '].intercalate (texts.map asciiQuote)).length := by
  induction texts with
  | nil => exact Nat.zero_le _
  | cons text texts ih =>
      cases texts with
      | nil => simp [asciiQuote, List.intercalate_singleton]
      | cons next texts =>
          rw [List.map_cons, List.map_cons, List.intercalate_cons_cons, ← List.map_cons]
          simp only [List.length_append, List.length_cons] at ih ⊢
          omega

/-- A list of texts is read back. -/
theorem loads_dumps_texts (deepEnough : 0 < limits.depth) (text : String) (texts : List String) :
    loads limits (dumpsTexts (text :: texts)) =
      .value (.list ((text :: texts).map fun text => .str (codePoints text))) := by
  obtain ⟨depth, isDepth⟩ : ∃ depth, limits.depth = depth + 1 := ⟨limits.depth - 1, by omega⟩
  have long := quotes_length (text :: texts)
  have chars : (dumpsTexts (text :: texts)).toList =
      '[' :: ([',', ' '].intercalate ((text :: texts).map asciiQuote) ++ [']']) :=
    String.toList_ofList
  obtain ⟨fuel, isFuel⟩ : ∃ fuel, 3 * (dumpsTexts (text :: texts)).length + 1 = fuel + 3 ∧
      texts.length + 1 < fuel + 1 := by
    refine ⟨3 * (dumpsTexts (text :: texts)).length - 2, ?_⟩
    rw [← String.length_toList, chars]
    simp only [List.length_cons, List.length_append] at long ⊢
    omega
  have scanned : scanOnce limits (fuel + 3) (depth + 1)
      ('[' :: ([',', ' '].intercalate ((text :: texts).map asciiQuote) ++ [']'])) =
      .ok (.list ((text :: texts).map fun text => .str (codePoints text))) [] := by
    have items : scanItems limits (fuel + 2) depth
        ([',', ' '].intercalate ((text :: texts).map asciiQuote) ++ [']']) =
        .ok ((text :: texts).map fun text => .str (codePoints text)) [] := by
      have more : scanMoreItems limits (fuel + 1) depth
          ([',', ' '].intercalate ((text :: texts).map asciiQuote) ++ [']']) =
          .ok ((text :: texts).map fun text => .str (codePoints text)) [] :=
        scan_more_texts text texts (fuel + 1) depth [] isFuel.2
      rw [← more]
      cases texts <;> rfl
    simp only [scanOnce, items]
    rfl
  have blanks : skipBlanks (dumpsTexts (text :: texts)).toList =
      '[' :: ([',', ' '].intercalate ((text :: texts).map asciiQuote) ++ [']']) := by
    rw [chars]
    rfl
  have unmarked : (dumpsTexts (text :: texts)).toList.head? ≠ some (Char.ofNat 0xFEFF) := by
    rw [chars, List.head?_cons]
    decide
  rw [loads, if_neg unmarked, isFuel.1, isDepth, blanks, scanned]
  rfl

/-! ## The bytes -/

/-- What is left unescaped in ASCII. -/
def Visible (chars : List Char) : Prop := ∀ c ∈ chars, 32 ≤ c.toNat ∧ c.toNat < 127

theorem Visible.of_all {chars : List Char}
    (all : chars.all (fun c => 32 ≤ c.toNat ∧ c.toNat < 127) = true) : Visible chars :=
  fun c member => of_decide_eq_true (List.all_eq_true.mp all c member)

theorem hex_digit_visible : ∀ n, n < 16 →
    32 ≤ (JsonText.hexDigit n).toNat ∧ (JsonText.hexDigit n).toNat < 127 := by decide

theorem unit_escape_visible {unit : Nat} (small : unit < 0x10000) : Visible (unitEscape unit) := by
  intro c member
  simp only [unitEscape, List.mem_cons, List.not_mem_nil, or_false] at member
  rcases member with rfl | rfl | rfl | rfl | rfl | rfl
  · decide
  · decide
  all_goals exact hex_digit_visible _ (by omega)

theorem ascii_escape_visible (c : Char) : Visible (asciiEscape c) := by
  have range := char_range c
  unfold asciiEscape
  split_ifs with quoted backslash newline carriage tab feed backspace plain
  on_goal 8 =>
    intro d member
    rw [List.mem_singleton.mp member]
    exact plain
  on_goal 8 =>
    intro d member
    obtain ⟨unit, isUnit, inEscape⟩ := List.mem_flatMap.mp member
    apply unit_escape_visible _ d inEscape
    unfold utf16Units at isUnit
    split at isUnit
    all_goals
      simp only [List.mem_cons, List.not_mem_nil, or_false] at isUnit
      omega
  all_goals exact .of_all (by decide)

theorem dumps_texts_visible (texts : List String) : Visible (dumpsTexts texts).toList := by
  have quoted : ∀ text : String, Visible (asciiQuote text) := by
    intro text c member
    simp only [asciiQuote, List.mem_cons, List.mem_append, List.mem_flatMap, List.not_mem_nil,
      or_false] at member
    rcases member with rfl | ⟨d, -, inEscape⟩ | rfl
    · decide
    · exact ascii_escape_visible d c inEscape
    · decide
  have joined : Visible ([',', ' '].intercalate (texts.map asciiQuote)) := by
    intro c member
    rcases Text.mem_intercalate_list member with inComma | ⟨_, isItem, inItem⟩
    · exact Visible.of_all (by decide : [',', ' '].all _ = true) c inComma
    · obtain ⟨text, -, rfl⟩ := List.mem_map.mp isItem
      exact quoted text c inItem
  intro c member
  rw [dumpsTexts, String.toList_ofList] at member
  simp only [List.mem_cons, List.mem_append, List.not_mem_nil, or_false] at member
  rcases member with rfl | inItems | rfl
  · decide
  · exact joined c inItems
  · decide

theorem encode_dumps_texts (texts : List String) :
    (Utf8.encode (dumpsTexts texts)).length = (dumpsTexts texts).length := by
  have visible := dumps_texts_visible texts
  rw [Utf8.encode_ascii fun c member => by have bounds := visible c member; omega,
    List.length_map, String.length_toList]

theorem dumps_texts_no_zero (texts : List String) :
    0 ∉ (Utf8.encode (dumpsTexts texts)).take 2 := by
  intro member
  have isChar := Utf8.ascii_mem_encode (Char.ofNat 0) (by decide) (List.mem_of_mem_take member)
  have bounds := (dumps_texts_visible texts _ isChar).1
  exact absurd bounds (by decide)

theorem dumps_texts_unmarked (texts : List String) :
    (dumpsTexts texts).toList.head? ≠ some (Char.ofNat 0xFEFF) := by
  rw [dumpsTexts, String.toList_ofList, List.head?_cons]
  decide

/-- The bytes of a list of texts are read back. -/
theorem loads_bytes_dumps_texts (deepEnough : 0 < limits.depth)
    (otherwise : List UInt8 → Loaded) (text : String) (texts : List String) :
    loadsBytes limits otherwise (Utf8.encode (dumpsTexts (text :: texts))) =
      .value (.list ((text :: texts).map fun text => .str (codePoints text))) := by
  rw [loadsBytes, if_neg (dumps_texts_no_zero _), Utf8.decode_encode]
  dsimp only
  rw [if_neg (dumps_texts_unmarked _)]
  exact loads_dumps_texts deepEnough text texts

/-- A character that is written without an escape. -/
def Unescaped (c : Char) : Prop := 32 ≤ c.toNat ∧ c.toNat < 127 ∧ c ≠ '"' ∧ c ≠ '\\'

theorem ascii_escape_unescaped {c : Char} (unescaped : Unescaped c) : asciiEscape c = [c] := by
  obtain ⟨high, low, notQuote, notBackslash⟩ := unescaped
  have notSmall : ∀ d : Char, d.toNat < 32 → c ≠ d := by
    intro d small same
    rw [same] at high
    omega
  rw [asciiEscape, if_neg notQuote, if_neg notBackslash, if_neg (notSmall '\n' (by decide)),
    if_neg (notSmall '\r' (by decide)), if_neg (notSmall '\t' (by decide)), if_neg (by omega),
    if_neg (by omega), if_pos ⟨high, low⟩]

theorem length_ascii_quote {text : String} (plain : ∀ c ∈ text.toList, Unescaped c) :
    (asciiQuote text).length = text.length + 2 := by
  have same : ∀ chars : List Char, (∀ c ∈ chars, Unescaped c) →
      chars.flatMap asciiEscape = chars := by
    intro chars unescaped
    induction chars with
    | nil => rfl
    | cons c chars ih =>
        have rest := ih fun d later => unescaped d (List.mem_cons_of_mem c later)
        rw [List.flatMap_cons, ascii_escape_unescaped (unescaped c List.mem_cons_self), rest]
        rfl
  rw [asciiQuote, same text.toList plain, List.length_cons, List.length_append,
    String.length_toList]
  rfl

end Texts

end PythonJson

end AgentHarness.Library
