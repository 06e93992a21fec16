import AgentHarness.Library.PythonTexts
import AgentHarness.Library.PythonWords

/-!
# Reading written JSON back

`json.loads` of a text that an encoder has written. Whatever the limits of the decoder are, it
answers with the value that was written or with none; with room for the value it answers.
-/

namespace AgentHarness.Library

set_option autoImplicit false

namespace Json

open PythonJson (CodePoints codePoints Limits Value floatValue floatRead)

mutual

/-- What the decoder makes of the text of the value. -/
def decoded : Json → Value
  | .null => .none
  | .bool value => .bool value
  | .int value => .int value
  | .float value => floatValue value
  | .str value => .str (codePoints value)
  | .arr items => .list (decodedItems items)
  | .obj entries => .dict (decodedEntries entries)

def decodedItems : List Json → List Value
  | [] => []
  | item :: items => decoded item :: decodedItems items

def decodedEntries : List (String × Json) → List (CodePoints × Value)
  | [] => []
  | (name, value) :: entries => (codePoints name, decoded value) :: decodedEntries entries

end

mutual

/-- The levels of nesting and the digits of integers are within the limits, and floats are written
as `float.__repr__` writes them. -/
def fits (limits : Limits) : Json → (depth : Nat) → Bool
  | .int value, _ => limits.admits value
  | .float value, _ => floatRead value
  | .arr _, 0 => false
  | .arr items, depth + 1 => fitsItems limits items depth
  | .obj _, 0 => false
  | .obj entries, depth + 1 => fitsEntries limits entries depth
  | _, _ => true

def fitsItems (limits : Limits) : List Json → (depth : Nat) → Bool
  | [], _ => true
  | item :: items, depth => fits limits item depth && fitsItems limits items depth

def fitsEntries (limits : Limits) : List (String × Json) → (depth : Nat) → Bool
  | [], _ => true
  | (_, value) :: entries, depth => fits limits value depth && fitsEntries limits entries depth

end

theorem code_points_injective {left right : String} (same : codePoints left = codePoints right) :
    left = right := by
  have distinct : Function.Injective Char.toNat := fun _ _ => Char.toNat_inj.mp
  exact String.toList_inj.mp (distinct.list_map same)

theorem decoded_str_iff {value : Json} {points : CodePoints} :
    value.decoded = .str points ↔ ∃ text, value = .str text ∧ points = codePoints text := by
  cases value with
  | str text => simp [decoded, eq_comm]
  | float value => simp [decoded, PythonJson.float_value_not_str]
  | null | bool _ | int _ | arr _ | obj _ => simp [decoded]

/-- The decoder's mapping answers as the written one. -/
theorem get_decoded (key : String) (entries : List (String × Json)) :
    Value.get key (decodedEntries entries) = (lookup key entries).map decoded := by
  induction entries with
  | nil => rfl
  | cons entry entries ih =>
      unfold Value.get at ih ⊢
      rw [decodedEntries, List.reverse_cons, List.find?_append, lookup]
      cases later : lookup key entries with
      | some found =>
          rw [later, Option.map_some, Option.map_eq_some_iff] at ih
          obtain ⟨entry, isFirst, isFound⟩ := ih
          rw [isFirst, Option.some_or, Option.map_some, isFound]
          rfl
      | none =>
          rw [later, Option.map_none, Option.map_eq_none_iff] at ih
          rw [ih, Option.none_or]
          by_cases same : entry.1 = key
          · simp [same]
          · have apart : codePoints entry.1 ≠ codePoints key :=
              fun points => same (code_points_injective points)
            simp [same, apart]

end Json

namespace PythonJson

open JsonText (Stops wordChar render renderItems renderEntries Separators)

/-! ## Strings -/

theorem scan_escape (c : Char) (rest : List Char) :
    scanUnits (JsonText.escape c ++ rest) =
      (scanUnits rest).map fun (units, rest) => (c.toNat :: units, rest) := by
  unfold JsonText.escape
  split_ifs with quoted backslash newline carriage tab feed backspace control
  · rw [quoted]
    rfl
  · rw [backslash]
    rfl
  · rw [newline]
    rfl
  · rw [carriage]
    rfl
  · rw [tab]
    rfl
  · rw [feed]
    rfl
  · rw [backspace]
    rfl
  · have isUnit : hexUnit '0' '0' (JsonText.hexDigit (c.toNat / 16))
        (JsonText.hexDigit (c.toNat % 16)) = some c.toNat := by
      have zero : hexDigit '0' = some 0 := rfl
      simp only [hexUnit, zero, hex_digit_value _ (show c.toNat / 16 < 16 by omega),
        hex_digit_value _ (show c.toNat % 16 < 16 by omega), Option.some.injEq]
      omega
    simp only [List.cons_append, List.nil_append, scanUnits, isUnit]
  · rw [List.singleton_append, scanUnits, if_neg control]
    · exact quoted
    · intro _ _ _ _ _ isBackslash
      exact absurd isBackslash backslash
    · intro _ _ isBackslash
      exact absurd isBackslash backslash

/-- Characters have no surrogates to join. -/
theorem join_surrogates_chars (chars : List Char) :
    joinSurrogates (chars.map Char.toNat) = chars.map Char.toNat := by
  induction chars with
  | nil => rfl
  | cons c chars ih =>
      have range := char_range c
      have notHigh : isHigh c.toNat = false := by
        simp only [isHigh, Bool.and_eq_false_iff, decide_eq_false_iff_not]
        omega
      cases chars with
      | nil => rfl
      | cons d chars =>
          rw [List.map_cons] at ih
          rw [List.map_cons, List.map_cons, joinSurrogates, notHigh, Bool.false_and,
            if_neg Bool.false_ne_true, ih]

theorem scan_written_string (text : String) (rest : List Char) :
    scanString (text.toList.flatMap JsonText.escape ++ '"' :: rest) =
      some (codePoints text, rest) := by
  have units : ∀ chars : List Char,
      scanUnits (chars.flatMap JsonText.escape ++ '"' :: rest) =
        some (chars.map Char.toNat, rest) := by
    intro chars
    induction chars with
    | nil => rfl
    | cons c chars ih =>
        rw [List.flatMap_cons, List.append_assoc, scan_escape, ih]
        rfl
  rw [scanString, units, Option.map_some]
  dsimp only
  rw [join_surrogates_chars]
  rfl

/-! ## Scans of written texts -/

/-- The scan is of a text that begins with the result: it finds that, or no result, or stops inside
of a word. With enough room it finds it. -/
structure Reads {Result : Type} (room : Prop) (result : Result) (rest : List Char)
    (scan : Scan Result) : Prop where
  only : ∀ found left, scan = .ok found left → (found = result ∧ left = rest) ∨ Stuck left
  found : room → scan = .ok result rest

section Scans

variable {Result Next : Type} {limits : Limits} {separators : Separators}

theorem Reads.of_ok {room : Prop} {result : Result} {rest : List Char} :
    Reads room result rest (.ok result rest) where
  only := by
    intro found left same
    cases same
    exact .inl ⟨rfl, rfl⟩
  found := fun _ => rfl

theorem Reads.of_failure {room : Prop} {result : Result} {rest : List Char}
    {scan : Scan Result} (fails : ∀ found left, scan ≠ .ok found left) (noRoom : ¬ room) :
    Reads room result rest scan where
  only := fun found left same => absurd same (fails found left)
  found := fun enough => absurd enough noRoom

theorem Reads.mono {room less : Prop} {result : Result} {rest : List Char} {scan : Scan Result}
    (reads : Reads less result rest scan) (enough : room → less) :
    Reads room result rest scan :=
  ⟨reads.only, fun given => reads.found (enough given)⟩

/-- What is scanned next stays inside of a word the first scan has stopped in. -/
theorem Reads.bind {room first second : Prop} {result : Result} {value : Next}
    {middle rest : List Char} {scan : Scan Result} {next : Result → List Char → Scan Next}
    (reads : Reads first result middle scan)
    (stuck : ∀ found left, Stuck left →
      ∀ value more, next found left = .ok value more → Stuck more)
    (continued : Reads second value rest (next result middle))
    (enough : room → first ∧ second) : Reads room value rest (scan.bind next) where
  only := by
    intro found left same
    cases scan with
    | ok here after =>
        rcases reads.only here after rfl with ⟨rfl, rfl⟩ | inside
        · exact continued.only found left same
        · exact .inr (stuck here after inside found left same)
    | invalid => cases same
    | tooDeep => cases same
    | outOfFuel => cases same
  found := by
    intro given
    rw [reads.found (enough given).1]
    exact continued.found (enough given).2

theorem word_not_blank {c : Char} (isWord : wordChar c = true) : isBlank c = false := by
  cases blank : isBlank c with
  | false => rfl
  | true =>
      simp only [isBlank, Bool.or_eq_true, decide_eq_true_eq] at blank
      rcases blank with ((rfl | rfl) | rfl) | rfl <;> cases isWord

theorem skip_blanks_of_head {c : Char} {text : List Char} (notBlank : isBlank c = false) :
    skipBlanks (c :: text) = c :: text :=
  List.dropWhile_cons_of_neg (by simp [notBlank])

/-- Inside of a word no mark is found. -/
theorem stuck_head {left : List Char} (stuck : Stuck left) :
    ∃ c more, skipBlanks left = c :: more ∧ wordChar c = true := by
  obtain ⟨c, first, isWord⟩ := stuck
  cases left with
  | nil => cases first
  | cons d left =>
      cases first
      exact ⟨c, left, skip_blanks_of_head (word_not_blank isWord), isWord⟩

/-! ### Marks between values -/

def afterItem (limits : Limits) (fuel depth : Nat) (value : Value) (text : List Char) :
    Scan (List Value) :=
  match skipBlanks text with
  | ']' :: rest => .ok [value] rest
  | ',' :: text => (scanMoreItems limits fuel depth (skipBlanks text)).bind
      fun items rest => .ok (value :: items) rest
  | _ => .invalid

def afterEntry (limits : Limits) (fuel depth : Nat) (key : CodePoints) (value : Value)
    (text : List Char) : Scan (List (CodePoints × Value)) :=
  match skipBlanks text with
  | '}' :: rest => .ok [(key, value)] rest
  | ',' :: text => (scanMoreEntries limits fuel depth (skipBlanks text)).bind
      fun entries rest => .ok ((key, value) :: entries) rest
  | _ => .invalid

theorem scan_more_items_succ (fuel depth : Nat) (text : List Char) :
    scanMoreItems limits (fuel + 1) depth text =
      (scanOnce limits fuel depth text).bind (afterItem limits fuel depth) := rfl

theorem scan_more_entries_succ (fuel depth : Nat) (text : List Char) :
    scanMoreEntries limits (fuel + 1) depth text =
      (expect '"' text).bind fun _ text => (Scan.ofOption (scanString text)).bind fun key text =>
      (expect ':' text).bind fun _ text =>
      (scanOnce limits fuel depth (skipBlanks text)).bind (afterEntry limits fuel depth key) := rfl

theorem after_item_stuck {fuel depth : Nat} {value : Value} {left : List Char}
    (stuck : Stuck left) : afterItem limits fuel depth value left = .invalid := by
  obtain ⟨c, more, found, isWord⟩ := stuck_head stuck
  rw [afterItem, found]
  split
  · rename_i same
    cases same
    cases isWord
  · rename_i same
    cases same
    cases isWord
  · rfl

theorem after_entry_stuck {fuel depth : Nat} {key : CodePoints} {value : Value}
    {left : List Char} (stuck : Stuck left) :
    afterEntry limits fuel depth key value left = .invalid := by
  obtain ⟨c, more, found, isWord⟩ := stuck_head stuck
  rw [afterEntry, found]
  split
  · rename_i same
    cases same
    cases isWord
  · rename_i same
    cases same
    cases isWord
  · rfl

/-! ### Texts of values -/

/-- Between the parts of a value there are blanks only. -/
def OnlyBlanks (separators : Separators) : Prop :=
  separators.afterItem.all isBlank = true ∧ separators.afterKey.all isBlank = true

theorem skip_blanks_append {blanks : List Char} (all : blanks.all isBlank = true)
    (text : List Char) : skipBlanks (blanks ++ text) = skipBlanks text :=
  List.dropWhile_append_of_pos (List.all_eq_true.mp all)

theorem head_not_blank {value : Json} {c : Char}
    (isKind : JsonText.kindOf c = JsonText.kind value) : isBlank c = false := by
  cases blank : isBlank c with
  | false => rfl
  | true =>
      have unknown : JsonText.kindOf c = 7 := by
        simp only [isBlank, Bool.or_eq_true, decide_eq_true_eq] at blank
        rcases blank with ((rfl | rfl) | rfl) | rfl <;> rfl
      rw [unknown] at isKind
      rcases value with _ | (_ | _) | _ | _ | _ | _ | _ <;> cases isKind

theorem skip_blanks_value (value : Json) (rest : List Char) :
    skipBlanks (render separators value ++ rest) = render separators value ++ rest := by
  obtain ⟨c, more, shape, isKind⟩ := JsonText.render_kind separators value
  rw [shape, List.cons_append]
  exact skip_blanks_of_head (head_not_blank isKind)

theorem scan_once_word {word rest : List Char} (fuel depth : Nat) (nonempty : word ≠ [])
    (isWord : ∀ c ∈ word, wordChar c = true) (stops : Stops rest) :
    scanOnce limits (fuel + 1) depth (word ++ rest) = (scanWord limits word).followedBy rest := by
  cases word with
  | nil => exact absurd rfl nonempty
  | cons c word =>
      have firstWord := isWord c List.mem_cons_self
      have notQuote : c ≠ '"' := by
        rintro rfl
        cases firstWord
      have notBrace : c ≠ '{' := by
        rintro rfl
        cases firstWord
      have notBracket : c ≠ '[' := by
        rintro rfl
        cases firstWord
      rw [← scan_word_append limits stops, List.cons_append]
      simp only [scanOnce, if_neg notQuote, if_neg notBrace, if_neg notBracket]
      rfl

theorem Stuck.append {left : List Char} (stuck : Stuck left) (rest : List Char) :
    Stuck (left ++ rest) := by
  obtain ⟨c, first, isWord⟩ := stuck
  cases left with
  | nil => cases first
  | cons d left => exact ⟨c, first, isWord⟩

/-- The text of the value is read, whatever follows it. -/
def ValueRead (limits : Limits) (separators : Separators) (value : Json) : Prop :=
  ∀ fuel depth rest, Stops rest →
    Reads (value.fits limits depth = true ∧
        3 * (render separators value ++ rest).length < fuel)
      value.decoded rest (scanOnce limits fuel depth (render separators value ++ rest))

def ItemsRead (limits : Limits) (separators : Separators) (item : Json) (items : List Json) :
    Prop :=
  ∀ fuel depth rest,
    Reads (Json.fitsItems limits (item :: items) depth = true ∧
        3 * (render separators item ++ (renderItems separators items ++ rest)).length + 1 < fuel)
      (Json.decodedItems (item :: items)) rest
      (scanMoreItems limits fuel depth
        (render separators item ++ (renderItems separators items ++ rest)))

/-- The text of an entry with those behind it. -/
def entryText (separators : Separators) (name : String) (value : Json)
    (entries : List (String × Json)) (rest : List Char) : List Char :=
  JsonText.quote name ++ ':' :: (separators.afterKey ++
    (render separators value ++ (renderEntries separators entries ++ rest)))

def EntriesRead (limits : Limits) (separators : Separators) (name : String) (value : Json)
    (entries : List (String × Json)) : Prop :=
  ∀ fuel depth rest,
    Reads (Json.fitsEntries limits ((name, value) :: entries) depth = true ∧
        3 * (entryText separators name value entries rest).length < fuel)
      (Json.decodedEntries ((name, value) :: entries)) rest
      (scanMoreEntries limits fuel depth (entryText separators name value entries rest))

theorem reads_out_of_fuel {room : Prop} {result : Result} {rest : List Char} {bound : Nat} :
    Reads (room ∧ bound < 0) result rest (.outOfFuel : Scan Result) :=
  .of_failure (by simp) (by omega)

/-- A value that is written as one word. -/
theorem value_read_word (value : Json) (isWord : ∀ c ∈ render separators value, wordChar c = true)
    (scanned : ∀ found left, scanWord limits (render separators value) = .ok found left →
      (found = value.decoded ∧ left = []) ∨ Stuck left)
    (read : ∀ depth, value.fits limits depth = true →
      scanWord limits (render separators value) = .ok value.decoded []) :
    ValueRead limits separators value := by
  intro fuel depth rest stops
  obtain ⟨c, more, shape, -⟩ := JsonText.render_kind separators value
  cases fuel with
  | zero => exact reads_out_of_fuel
  | succ fuel =>
      rw [scan_once_word fuel depth (by simp [shape]) isWord stops]
      constructor
      · intro found left same
        cases word : scanWord limits (render separators value) with
        | ok result after =>
            rw [word] at same
            cases same
            rcases scanned _ _ word with ⟨rfl, rfl⟩ | stuck
            · exact .inl ⟨rfl, rfl⟩
            · exact .inr (stuck.append rest)
        | invalid =>
            rw [word] at same
            cases same
        | tooDeep =>
            rw [word] at same
            cases same
        | outOfFuel =>
            rw [word] at same
            cases same
      · intro room
        rw [read depth room.1]
        rfl

theorem value_read_null : ValueRead limits separators .null := by
  apply value_read_word
  · exact List.all_eq_true.mp rfl
  · intro found left same
    cases same
    exact .inl ⟨rfl, rfl⟩
  · intro _ _
    rfl

theorem value_read_bool (value : Bool) : ValueRead limits separators (.bool value) := by
  cases value with
  | true =>
      apply value_read_word
      · exact List.all_eq_true.mp rfl
      · intro found left same
        cases same
        exact .inl ⟨rfl, rfl⟩
      · intro _ _
        rfl
  | false =>
      apply value_read_word
      · exact List.all_eq_true.mp rfl
      · intro found left same
        cases same
        exact .inl ⟨rfl, rfl⟩
      · intro _ _
        rfl

theorem value_read_int (value : Int) : ValueRead limits separators (.int value) := by
  apply value_read_word
  · exact JsonText.decimal_word value
  · intro found left same
    rw [render, scan_word_decimal] at same
    split at same
    · cases same
      exact .inl ⟨rfl, rfl⟩
    · cases same
  · intro _ admitted
    rw [render, scan_word_decimal, if_pos (by simpa [Json.fits] using admitted)]
    rfl

theorem value_read_float (value : FloatText) : ValueRead limits separators (.float value) := by
  apply value_read_word
  · exact JsonText.float_word value
  · intro found left same
    have unlimited := scan_word_unlimited same
    rw [render] at unlimited
    cases left with
    | nil => exact .inl ⟨by rw [Json.decoded, floatValue, unlimited], rfl⟩
    | cons c left =>
        have inWord := (scan_word_suffix same).subset List.mem_cons_self
        exact .inr ⟨c, rfl, JsonText.float_word value c inWord⟩
  · intro _ read
    exact scan_word_float (by simpa [Json.fits] using read)

theorem value_read_str (value : String) : ValueRead limits separators (.str value) := by
  intro fuel depth rest _
  cases fuel with
  | zero => exact reads_out_of_fuel
  | succ fuel =>
      have scanned : scanOnce limits (fuel + 1) depth (render separators (.str value) ++ rest) =
          .ok (.str (codePoints value)) rest := by
        simp only [render, JsonText.quote, List.cons_append, List.append_assoc, List.nil_append,
          scanOnce, if_true, scan_written_string]
        rfl
      rw [scanned]
      exact .of_ok

/-! ### Lists and objects -/

variable {item next value : Json} {items : List Json} {name : String}
  {entries : List (String × Json)}

theorem items_read_last (head : ValueRead limits separators item) :
    ItemsRead limits separators item [] := by
  intro fuel depth rest
  cases fuel with
  | zero => exact reads_out_of_fuel
  | succ fuel =>
      have first := head fuel depth (renderItems separators [] ++ rest)
        (JsonText.items_stop separators [] rest)
      rw [scan_more_items_succ]
      apply first.bind
      · intro found left stuck result more same
        rw [after_item_stuck stuck] at same
        cases same
      · exact @Reads.of_ok _ True _ _
      · rintro ⟨fits, enough⟩
        simp only [Json.fitsItems, Bool.and_true] at fits
        exact ⟨⟨fits, by omega⟩, trivial⟩

theorem items_read_cons (blanks : OnlyBlanks separators)
    (head : ValueRead limits separators item) (tail : ItemsRead limits separators next items) :
    ItemsRead limits separators item (next :: items) := by
  intro fuel depth rest
  cases fuel with
  | zero => exact reads_out_of_fuel
  | succ fuel =>
      have first := head fuel depth (renderItems separators (next :: items) ++ rest)
        (JsonText.items_stop separators (next :: items) rest)
      have later := tail fuel depth rest
      have shape : renderItems separators (next :: items) ++ rest =
          ',' :: (separators.afterItem ++ (render separators next ++
            (renderItems separators items ++ rest))) := by
        simp [renderItems]
      have comma : afterItem limits fuel depth item.decoded
          (renderItems separators (next :: items) ++ rest) =
          (scanMoreItems limits fuel depth
            (render separators next ++ (renderItems separators items ++ rest))).bind
            fun items rest => .ok (item.decoded :: items) rest := by
        have here : skipBlanks (renderItems separators (next :: items) ++ rest) =
            ',' :: (separators.afterItem ++ (render separators next ++
              (renderItems separators items ++ rest))) := by
          rw [shape]
          rfl
        rw [afterItem, here]
        simp only [skip_blanks_append blanks.1, skip_blanks_value]
      rw [scan_more_items_succ]
      apply first.bind
      · intro found left stuck result more same
        rw [after_item_stuck stuck] at same
        cases same
      · rw [comma]
        apply later.bind
        · intro found left stuck result more same
          cases same
          exact stuck
        · exact @Reads.of_ok _ True _ _
        · exact fun room => ⟨room, trivial⟩
      · rintro ⟨fits, enough⟩
        rw [Json.fitsItems, Bool.and_eq_true] at fits
        rw [shape] at enough ⊢
        simp only [List.length_append, List.length_cons] at enough ⊢
        exact ⟨⟨fits.1, by omega⟩, fits.2, by omega⟩

theorem value_read_arr_nil : ValueRead limits separators (.arr []) := by
  intro fuel depth rest _
  cases fuel with
  | zero => exact reads_out_of_fuel
  | succ fuel =>
      cases depth with
      | zero => exact .of_failure (by simp [render, scanOnce]) (by simp [Json.fits])
      | succ depth =>
          cases fuel with
          | zero =>
              apply Reads.of_failure
              · intro found left same
                cases same
              · simp only [List.length_append, render, List.length_cons]
                omega
          | succ fuel => exact .of_ok

theorem value_read_arr_cons (read : ItemsRead limits separators item items) :
    ValueRead limits separators (.arr (item :: items)) := by
  intro fuel depth rest _
  cases fuel with
  | zero => exact reads_out_of_fuel
  | succ fuel =>
      cases depth with
      | zero => exact .of_failure (by simp [render, scanOnce]) (by simp [Json.fits])
      | succ depth =>
          have shape : render separators (.arr (item :: items)) ++ rest =
              '[' :: (render separators item ++ (renderItems separators items ++ rest)) := by
            simp [render]
          rw [shape]
          have opened : scanOnce limits (fuel + 1) (depth + 1)
              ('[' :: (render separators item ++ (renderItems separators items ++ rest))) =
              (scanItems limits fuel depth
                (render separators item ++ (renderItems separators items ++ rest))).bind
                fun items rest => .ok (.list items) rest := rfl
          rw [opened]
          cases fuel with
          | zero =>
              apply Reads.of_failure
              · intro found left same
                cases same
              · simp only [List.length_cons]
                omega
          | succ fuel =>
              have more : scanItems limits (fuel + 1) depth
                  (render separators item ++ (renderItems separators items ++ rest)) =
                  scanMoreItems limits fuel depth
                    (render separators item ++ (renderItems separators items ++ rest)) := by
                rw [scanItems, skip_blanks_value]
                split
                · rename_i closing
                  exact (JsonText.render_not_closing rfl closing).elim
                · rfl
              rw [more]
              apply (read fuel depth rest).bind
              · intro found left stuck result more same
                cases same
                exact stuck
              · exact @Reads.of_ok _ True _ _
              · rintro ⟨fits, enough⟩
                simp only [List.length_cons] at enough
                exact ⟨⟨by simpa [Json.fits] using fits, by omega⟩, trivial⟩

/-- Name and colon are read before the value. -/
theorem scan_entry_text (blanks : OnlyBlanks separators) (fuel depth : Nat) (rest : List Char) :
    scanMoreEntries limits (fuel + 1) depth (entryText separators name value entries rest) =
      (scanOnce limits fuel depth
        (render separators value ++ (renderEntries separators entries ++ rest))).bind
        (afterEntry limits fuel depth (codePoints name)) := by
  have shape : entryText separators name value entries rest =
      '"' :: (name.toList.flatMap JsonText.escape ++ '"' :: ':' :: (separators.afterKey ++
        (render separators value ++ (renderEntries separators entries ++ rest)))) := by
    simp [entryText, JsonText.quote]
  have opened : ∀ text : List Char, expect '"' ('"' :: text) = .ok () text := fun _ => rfl
  have colon : ∀ text : List Char, expect ':' (':' :: text) = .ok () text := fun _ => rfl
  rw [scan_more_entries_succ, shape, opened]
  simp only [Scan.bind, scan_written_string, Scan.ofOption, colon, skip_blanks_append blanks.2,
    skip_blanks_value]

theorem entries_read_last (blanks : OnlyBlanks separators)
    (head : ValueRead limits separators value) : EntriesRead limits separators name value [] := by
  intro fuel depth rest
  cases fuel with
  | zero => exact reads_out_of_fuel
  | succ fuel =>
      have first := head fuel depth (renderEntries separators [] ++ rest)
        (JsonText.entries_stop separators [] rest)
      rw [scan_entry_text blanks]
      apply first.bind
      · intro found left stuck result more same
        rw [after_entry_stuck stuck] at same
        cases same
      · exact @Reads.of_ok _ True _ _
      · rintro ⟨fits, enough⟩
        simp only [Json.fitsEntries, Bool.and_true] at fits
        simp only [entryText, List.length_append, List.length_cons] at enough ⊢
        exact ⟨⟨fits, by omega⟩, trivial⟩

theorem entries_read_cons {other : String} (blanks : OnlyBlanks separators)
    (head : ValueRead limits separators value)
    (tail : EntriesRead limits separators other next entries) :
    EntriesRead limits separators name value ((other, next) :: entries) := by
  intro fuel depth rest
  cases fuel with
  | zero => exact reads_out_of_fuel
  | succ fuel =>
      have first := head fuel depth (renderEntries separators ((other, next) :: entries) ++ rest)
        (JsonText.entries_stop separators ((other, next) :: entries) rest)
      have later := tail fuel depth rest
      have shape : renderEntries separators ((other, next) :: entries) ++ rest =
          ',' :: (separators.afterItem ++ entryText separators other next entries rest) := by
        simp [renderEntries, entryText]
      have comma : afterEntry limits fuel depth (codePoints name) value.decoded
          (renderEntries separators ((other, next) :: entries) ++ rest) =
          (scanMoreEntries limits fuel depth (entryText separators other next entries rest)).bind
            fun entries rest => .ok ((codePoints name, value.decoded) :: entries) rest := by
        have here : skipBlanks (renderEntries separators ((other, next) :: entries) ++ rest) =
            ',' :: (separators.afterItem ++ entryText separators other next entries rest) := by
          rw [shape]
          rfl
        have quoted : skipBlanks (entryText separators other next entries rest) =
            entryText separators other next entries rest := rfl
        rw [afterEntry, here]
        simp only [skip_blanks_append blanks.1, quoted]
      rw [scan_entry_text blanks]
      apply first.bind
      · intro found left stuck result more same
        rw [after_entry_stuck stuck] at same
        cases same
      · rw [comma]
        apply later.bind
        · intro found left stuck result more same
          cases same
          exact stuck
        · exact @Reads.of_ok _ True _ _
        · exact fun room => ⟨room, trivial⟩
      · rintro ⟨fits, enough⟩
        rw [Json.fitsEntries, Bool.and_eq_true] at fits
        rw [entryText, shape] at enough
        rw [shape]
        simp only [List.length_append, List.length_cons] at enough ⊢
        exact ⟨⟨fits.1, by omega⟩, fits.2, by omega⟩

theorem value_read_obj_nil : ValueRead limits separators (.obj []) := by
  intro fuel depth rest _
  cases fuel with
  | zero => exact reads_out_of_fuel
  | succ fuel =>
      cases depth with
      | zero => exact .of_failure (by simp [render, scanOnce]) (by simp [Json.fits])
      | succ depth =>
          cases fuel with
          | zero =>
              apply Reads.of_failure
              · intro found left same
                cases same
              · simp only [List.length_append, render, List.length_cons]
                omega
          | succ fuel => exact .of_ok

theorem value_read_obj_cons (read : EntriesRead limits separators name value entries) :
    ValueRead limits separators (.obj ((name, value) :: entries)) := by
  intro fuel depth rest _
  cases fuel with
  | zero => exact reads_out_of_fuel
  | succ fuel =>
      cases depth with
      | zero => exact .of_failure (by simp [render, scanOnce]) (by simp [Json.fits])
      | succ depth =>
          have shape : render separators (.obj ((name, value) :: entries)) ++ rest =
              '{' :: entryText separators name value entries rest := by
            simp [render, entryText]
          rw [shape]
          have opened : scanOnce limits (fuel + 1) (depth + 1)
              ('{' :: entryText separators name value entries rest) =
              (scanEntries limits fuel depth (entryText separators name value entries rest)).bind
                fun entries rest => .ok (.dict entries) rest := rfl
          rw [opened]
          cases fuel with
          | zero =>
              apply Reads.of_failure
              · intro found left same
                cases same
              · simp only [List.length_cons]
                omega
          | succ fuel =>
              have more : scanEntries limits (fuel + 1) depth
                  (entryText separators name value entries rest) =
                  scanMoreEntries limits fuel depth
                    (entryText separators name value entries rest) := rfl
              rw [more]
              apply (read fuel depth rest).bind
              · intro found left stuck result more same
                cases same
                exact stuck
              · exact @Reads.of_ok _ True _ _
              · rintro ⟨fits, enough⟩
                simp only [List.length_cons] at enough
                exact ⟨⟨by simpa [Json.fits] using fits, by omega⟩, trivial⟩

end Scans

/-! ## Every value -/

section Values

variable (limits : Limits) {separators : Separators}

mutual

/-- An induction over the value, where a list or an object is read entry by entry. -/
theorem value_read (blanks : OnlyBlanks separators) (value : Json) :
    ValueRead limits separators value := by
  match value with
  | .null => exact value_read_null
  | .bool value => exact value_read_bool value
  | .int value => exact value_read_int value
  | .float value => exact value_read_float value
  | .str value => exact value_read_str value
  | .arr [] => exact value_read_arr_nil
  | .arr (item :: items) => exact value_read_arr_cons (items_read blanks item items)
  | .obj [] => exact value_read_obj_nil
  | .obj ((name, value) :: entries) =>
      exact value_read_obj_cons (entries_read blanks name value entries)
termination_by sizeOf value

theorem items_read (blanks : OnlyBlanks separators) (item : Json) (items : List Json) :
    ItemsRead limits separators item items := by
  match items with
  | [] => exact items_read_last (value_read blanks item)
  | next :: items =>
      exact items_read_cons blanks (value_read blanks item) (items_read blanks next items)
termination_by sizeOf item + sizeOf items + 1

theorem entries_read (blanks : OnlyBlanks separators) (name : String) (value : Json)
    (entries : List (String × Json)) : EntriesRead limits separators name value entries := by
  match entries with
  | [] => exact entries_read_last blanks (value_read blanks value)
  | (other, next) :: entries =>
      exact entries_read_cons blanks (value_read blanks value)
        (entries_read blanks other next entries)
termination_by sizeOf value + sizeOf entries + 1

end

theorem value_not_marked (value : Json) :
    (JsonText.dumps separators value).toList.head? ≠ some (Char.ofNat 0xFEFF) := by
  obtain ⟨c, more, shape, isKind⟩ := JsonText.render_kind separators value
  rw [JsonText.dumps, String.toList_ofList, shape, List.head?_cons]
  intro same
  rw [Option.some.inj same] at isKind
  rcases value with _ | (_ | _) | _ | _ | _ | _ | _ <;> cases isKind

/-- What is read is what was written. -/
theorem loads_dumps_only (blanks : OnlyBlanks separators) {value : Json} {found : Value}
    (loaded : loads limits (JsonText.dumps separators value) = .value found) :
    found = value.decoded := by
  have ends : Stops ([] : List Char) := by
    intro c first
    cases first
  have read := value_read limits blanks value (3 * (JsonText.dumps separators value).length + 1)
    limits.depth [] ends
  have start : skipBlanks (render separators value ++ []) = render separators value ++ [] :=
    skip_blanks_value value []
  rw [List.append_nil] at read start
  rw [loads, if_neg (value_not_marked value), JsonText.dumps, String.toList_ofList, start,
    ← JsonText.dumps] at loaded
  split at loaded
  · rename_i result rest scanned
    split at loaded
    · rename_i atEnd
      cases loaded
      rcases read.only found rest scanned with ⟨same, -⟩ | stuck
      · exact same
      · obtain ⟨c, more, here, -⟩ := stuck_head stuck
        rw [atEnd] at here
        cases here
    · cases loaded
  all_goals cases loaded

/-- A value the decoder has room for is read back. -/
theorem loads_dumps (blanks : OnlyBlanks separators) {value : Json}
    (fits : value.fits limits limits.depth = true) :
    loads limits (JsonText.dumps separators value) = .value value.decoded := by
  have ends : Stops ([] : List Char) := by
    intro c first
    cases first
  have read := value_read limits blanks value (3 * (JsonText.dumps separators value).length + 1)
    limits.depth [] ends
  have start : skipBlanks (render separators value ++ []) = render separators value ++ [] :=
    skip_blanks_value value []
  have length : (render separators value).length = (JsonText.dumps separators value).length := by
    rw [JsonText.dumps, String.length_ofList]
  rw [List.append_nil] at read start
  have scanned := read.found ⟨fits, by omega⟩
  rw [loads, if_neg (value_not_marked value), JsonText.dumps, String.toList_ofList, start,
    ← JsonText.dumps, scanned]
  rfl

end Values

end PythonJson

end AgentHarness.Library
