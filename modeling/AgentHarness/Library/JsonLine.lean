import AgentHarness.Library.JsonText

/-!
# JSON on one line

Strings are escaped and the default separators are blanks, so the text of a value has no control
character, whatever the value is.
-/

namespace AgentHarness.Library

set_option autoImplicit false

namespace JsonText

/-- No control character, so no end of line either. -/
def Printable (chars : List Char) : Prop := ∀ c ∈ chars, 32 ≤ c.toNat

theorem Printable.append {left right : List Char} (leftOk : Printable left)
    (rightOk : Printable right) : Printable (left ++ right) := by
  intro c member
  rcases List.mem_append.mp member with inLeft | inRight
  · exact leftOk c inLeft
  · exact rightOk c inRight

theorem Printable.cons {c : Char} {chars : List Char} (isPrintable : 32 ≤ c.toNat)
    (rest : Printable chars) : Printable (c :: chars) := by
  intro d member
  rcases List.mem_cons.mp member with rfl | later
  · exact isPrintable
  · exact rest d later

theorem Printable.of_all {chars : List Char}
    (all : chars.all (fun c => 32 ≤ c.toNat) = true) : Printable chars :=
  fun c member => of_decide_eq_true (List.all_eq_true.mp all c member)

theorem hex_digit_printable : ∀ n, n < 16 → 32 ≤ (hexDigit n).toNat := by decide

theorem escape_printable (c : Char) : Printable (escape c) := by
  unfold escape
  split_ifs with quoted backslash newline carriage tab feed backspace control
  -- The last two cases are the code of a control character and a character left alone.
  on_goal 8 =>
    have high := hex_digit_printable (c.toNat / 16) (by omega)
    have low := hex_digit_printable (c.toNat % 16) (by omega)
    simp [Printable, high, low]
  on_goal 8 =>
    simp [Printable]
    omega
  all_goals exact .of_all (by decide)

theorem quote_printable (text : String) : Printable (quote text) := by
  apply Printable.cons (by decide)
  apply Printable.append
  · intro c member
    obtain ⟨d, -, inEscape⟩ := List.mem_flatMap.mp member
    exact escape_printable d c inEscape
  · exact .of_all (by decide)

theorem word_printable {c : Char} (isWord : wordChar c = true) : 32 ≤ c.toNat := by
  by_contra small
  have noWord : ∀ n, n < 32 → wordChar (Char.ofNat n) = false := by decide
  have same := noWord c.toNat (by omega)
  rw [Char.ofNat_toNat, isWord] at same
  cases same

mutual

theorem render_printable (value : Json) : Printable (render .default value) := by
  match value with
  | .null => rw [render]; exact .of_all (by decide)
  | .bool true => rw [render]; exact .of_all (by decide)
  | .bool false => rw [render]; exact .of_all (by decide)
  | .int value =>
      rw [render]
      exact fun c member => word_printable (decimal_word value c member)
  | .float value =>
      rw [render]
      exact fun c member => word_printable (float_word value c member)
  | .str value =>
      rw [render]
      exact quote_printable value
  | .arr [] => rw [render]; exact .of_all (by decide)
  | .arr (item :: items) =>
      rw [render]
      exact .cons (by decide) ((render_printable item).append (render_items_printable items))
  | .obj [] => rw [render]; exact .of_all (by decide)
  | .obj ((name, value) :: entries) =>
      rw [render]
      exact .cons (by decide) ((quote_printable name).append (.cons (by decide)
        (.cons (by decide) ((render_printable value).append (render_entries_printable entries)))))

theorem render_items_printable (items : List Json) : Printable (renderItems .default items) := by
  match items with
  | [] => rw [renderItems]; exact .of_all (by decide)
  | item :: items =>
      rw [renderItems]
      exact .cons (by decide) (.cons (by decide)
        ((render_printable item).append (render_items_printable items)))

theorem render_entries_printable (entries : List (String × Json)) :
    Printable (renderEntries .default entries) := by
  match entries with
  | [] => rw [renderEntries]; exact .of_all (by decide)
  | (name, value) :: entries =>
      rw [renderEntries]
      exact .cons (by decide) (.cons (by decide) ((quote_printable name).append (.cons (by decide)
        (.cons (by decide) ((render_printable value).append
          (render_entries_printable entries))))))

end

theorem dumps_printable (value : Json) : Printable (dumps .default value).toList := by
  rw [dumps, String.toList_ofList]
  exact render_printable value

end JsonText

end AgentHarness.Library
