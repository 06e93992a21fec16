import Mathlib.Data.List.Basic

/-!
# Lines of a stream

A stream is cut at every mark, and what follows the last mark waits for more. Cutting the pieces a
stream arrives in, with what waits in front of each, gives the lines of the whole.
-/

namespace AgentHarness.Library

set_option autoImplicit false

namespace Lines

variable {Symbol : Type*} [DecidableEq Symbol] (mark : Symbol)

/-- The terminated lines, without their marks, and the unterminated rest. -/
def cut : List Symbol → List (List Symbol) × List Symbol
  | [] => ([], [])
  | symbol :: stream =>
      let found := cut stream
      if symbol = mark then ([] :: found.1, found.2)
      else match found.1 with
        | [] => ([], symbol :: found.2)
        | line :: lines => ((symbol :: line) :: lines, found.2)

variable {mark}

theorem cut_of_not_mem {stream : List Symbol} (unmarked : mark ∉ stream) :
    cut mark stream = ([], stream) := by
  induction stream with
  | nil => rfl
  | cons symbol stream ih =>
      have other : symbol ≠ mark := fun same => unmarked (same ▸ List.mem_cons_self)
      have rest := ih fun member => unmarked (List.mem_cons_of_mem symbol member)
      simp [cut, rest, other]

/-- The first line ends at the first mark. -/
theorem cut_line {line : List Symbol} (unmarked : mark ∉ line) (stream : List Symbol) :
    cut mark (line ++ mark :: stream) = (line :: (cut mark stream).1, (cut mark stream).2) := by
  induction line with
  | nil => simp [cut]
  | cons symbol line ih =>
      have other : symbol ≠ mark := fun same => unmarked (same ▸ List.mem_cons_self)
      have rest := ih fun member => unmarked (List.mem_cons_of_mem symbol member)
      simp [cut, rest, other]

/-- Terminated lines and an unterminated rest are found as they are. -/
theorem cut_lines (lines : List (List Symbol)) (rest : List Symbol)
    (unmarked : ∀ line ∈ lines, mark ∉ line) (tail : mark ∉ rest) :
    cut mark (lines.flatMap (fun line => line ++ [mark]) ++ rest) = (lines, rest) := by
  induction lines with
  | nil => exact cut_of_not_mem tail
  | cons line lines ih =>
      have inner := ih fun other member => unmarked other (List.mem_cons_of_mem line member)
      rw [List.flatMap_cons, List.append_assoc, List.append_assoc, List.singleton_append,
        cut_line (unmarked line List.mem_cons_self), inner]

/-- The stream is its lines and the rest. -/
theorem cut_spec (mark : Symbol) (stream : List Symbol) :
    stream = (cut mark stream).1.flatMap (fun line => line ++ [mark]) ++ (cut mark stream).2 ∧
      (∀ line ∈ (cut mark stream).1, mark ∉ line) ∧ mark ∉ (cut mark stream).2 := by
  induction stream with
  | nil => simp [cut]
  | cons symbol stream ih =>
      obtain ⟨whole, unmarked, tail⟩ := ih
      simp only [cut]
      by_cases found : symbol = mark
      · subst found
        simp only [if_pos]
        refine ⟨?_, ?_, tail⟩
        · rw [List.flatMap_cons, List.nil_append, List.append_assoc, ← whole]
          rfl
        · intro line member
          rcases List.mem_cons.mp member with rfl | later
          · exact List.not_mem_nil
          · exact unmarked line later
      · rw [if_neg found]
        have differ : mark ≠ symbol := fun same => found same.symm
        cases first : (cut mark stream).1 with
        | nil =>
            rw [first, List.flatMap_nil, List.nil_append] at whole
            simp only [List.flatMap_nil, List.nil_append]
            refine ⟨by rw [← whole], by simp, ?_⟩
            simp [differ, tail]
        | cons line lines =>
            rw [first] at whole unmarked
            refine ⟨?_, ?_, tail⟩
            · simp only [List.flatMap_cons, List.cons_append]
              simp only [List.flatMap_cons] at whole
              rw [← whole]
            · intro other member
              rcases List.mem_cons.mp member with rfl | later
              · have clear := unmarked line List.mem_cons_self
                simp [differ, clear]
              · exact unmarked other (List.mem_cons_of_mem line later)

theorem cut_append (left right : List Symbol) :
    cut mark (left ++ right) =
      ((cut mark left).1 ++ (cut mark ((cut mark left).2 ++ right)).1,
        (cut mark ((cut mark left).2 ++ right)).2) := by
  obtain ⟨whole, unmarked, -⟩ := cut_spec mark left
  obtain ⟨later, laterUnmarked, tail⟩ := cut_spec mark ((cut mark left).2 ++ right)
  have joined : left ++ right =
      ((cut mark left).1 ++ (cut mark ((cut mark left).2 ++ right)).1).flatMap
        (fun line => line ++ [mark]) ++ (cut mark ((cut mark left).2 ++ right)).2 := by
    rw [List.flatMap_append, List.append_assoc, ← later, ← List.append_assoc, ← whole]
  rw [joined]
  apply cut_lines _ _ _ tail
  intro line member
  rcases List.mem_append.mp member with inLeft | inRight
  · exact unmarked line inLeft
  · exact laterUnmarked line inRight

/-- Terminated lines in front of a stream are its first lines. -/
theorem cut_lines_append (lines : List (List Symbol)) (stream : List Symbol)
    (unmarked : ∀ line ∈ lines, mark ∉ line) :
    (cut mark (lines.flatMap (fun line => line ++ [mark]) ++ stream)).1 =
      lines ++ (cut mark stream).1 := by
  have front := cut_lines lines [] unmarked List.not_mem_nil
  rw [List.append_nil] at front
  rw [cut_append, front, List.nil_append]

/-- What is appended without a mark ends no line. -/
theorem cut_append_unmarked (stream tail : List Symbol) (unmarked : mark ∉ tail) :
    (cut mark (stream ++ tail)).1 = (cut mark stream).1 := by
  obtain ⟨-, -, waiting⟩ := cut_spec mark stream
  have rest : mark ∉ (cut mark stream).2 ++ tail := by
    rw [List.mem_append, not_or]
    exact ⟨waiting, unmarked⟩
  rw [cut_append, cut_of_not_mem rest, List.append_nil]

end Lines

end AgentHarness.Library
