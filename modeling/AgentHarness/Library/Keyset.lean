import Mathlib.Data.List.Pairwise
import Mathlib.Data.List.Sort

/-!
# Keyset selection

Rows are listed from the greatest key down, after an optional cursor. A key is shared by no two rows
of a table, so a page does not depend on the order the table keeps them in.
-/

namespace AgentHarness.Library

set_option autoImplicit false

namespace Keyset

variable {Row Key : Type*} (key : Row → Key)

/-- No two rows have the same key. -/
def Apart (rows : List Row) : Prop := rows.Pairwise fun left right => key left ≠ key right

theorem Apart.eq {key : Row → Key} {rows : List Row} (apart : Apart key rows) {row other : Row}
    (rowMem : row ∈ rows) (otherMem : other ∈ rows) (same : key row = key other) : row = other := by
  by_contra differ
  have symm : Std.Symm fun left right : Row => key left ≠ key right :=
    ⟨fun _ _ unlike => unlike.symm⟩
  exact List.Pairwise.forall apart rowMem otherMem differ same

variable [LinearOrder Key]

/-- `ORDER BY key DESC`. -/
def newestFirst (rows : List Row) : List Row :=
  rows.insertionSort fun left right => key right ≤ key left

/-- `WHERE key < before ORDER BY key DESC LIMIT limit`. -/
def select (limit : Nat) (before : Option Key) (rows : List Row) : List Row :=
  (newestFirst key (rows.filter fun row => before.all fun cursor => key row < cursor)).take limit

variable {key} {rows left right : List Row}

theorem newest_first_perm (rows : List Row) : (newestFirst key rows).Perm rows :=
  List.perm_insertionSort _ rows

theorem newest_first_sorted (rows : List Row) :
    (newestFirst key rows).Pairwise fun left right => key right ≤ key left := by
  have total : Std.Total fun left right : Row => key right ≤ key left :=
    ⟨fun left right => le_total (key right) (key left)⟩
  have trans : IsTrans Row fun left right => key right ≤ key left :=
    ⟨fun _ _ _ first second => second.trans first⟩
  exact List.pairwise_insertionSort _ rows

theorem newest_first_congr (apart : Apart key left) (same : left.Perm right) :
    newestFirst key left = newestFirst key right := by
  apply List.Perm.eq_of_pairwise _ (newest_first_sorted left) (newest_first_sorted right)
  · exact ((newest_first_perm left).trans same).trans (newest_first_perm right).symm
  · intro row other rowMem otherMem after before
    have inLeft := (newest_first_perm left).mem_iff.mp rowMem
    have inRight := same.mem_iff.mpr ((newest_first_perm right).mem_iff.mp otherMem)
    exact apart.eq inLeft inRight (le_antisymm before after)

theorem mem_of_mem_select {limit : Nat} {before : Option Key} {row : Row}
    (member : row ∈ select key limit before rows) : row ∈ rows :=
  List.mem_of_mem_filter ((newest_first_perm _).mem_iff.mp (List.mem_of_mem_take member))

theorem select_congr (limit : Nat) (before : Option Key) (apart : Apart key left)
    (same : left.Perm right) : select key limit before left = select key limit before right := by
  unfold select
  rw [newest_first_congr (apart.filter _) (same.filter _)]

end Keyset

end AgentHarness.Library
