import Mathlib.Data.List.Basic
import Mathlib.Data.List.Pairwise
import Mathlib.Tactic.SplitIfs

/-!
# A table under concurrent transactions

Every row of the table has a slot, which keeps the committed version and the version of the one
transaction that has written or locked it. Statements run at read committed: they see committed
versions and those of their own transaction, and a statement that would have to wait for another
transaction is not enabled. `conflict` says which two rows the unique indexes keep apart.
-/

namespace AgentHarness.Library

set_option autoImplicit false

structure Slot (Txn Row : Type*) where
  committed : Option Row
  writer : Option (Txn × Row)
  deriving DecidableEq, Repr

structure RowStore (Txn Row : Type*) where
  slots : List (Slot Txn Row)
  deriving DecidableEq, Repr

namespace Slot

variable {Txn Row : Type*}

/-- The versions the row can end up with. -/
def versions (slot : Slot Txn Row) : List Row :=
  slot.committed.toList ++ (slot.writer.map Prod.snd).toList

theorem committed_mem_versions {slot : Slot Txn Row} {row : Row}
    (isCommitted : slot.committed = some row) : row ∈ slot.versions := by
  simp [versions, isCommitted]

theorem written_mem_versions {slot : Slot Txn Row} {txn : Txn} {row : Row}
    (written : slot.writer = some (txn, row)) : row ∈ slot.versions := by
  simp [versions, written]

variable [DecidableEq Txn]

def writtenBy (slot : Slot Txn Row) (txn : Txn) : Option Row :=
  match slot.writer with
  | some (other, row) => if other = txn then some row else none
  | none => none

/-- The version a statement of the transaction reads. -/
def visible (slot : Slot Txn Row) (txn : Txn) : Option Row :=
  match slot.writtenBy txn with
  | some row => some row
  | none => slot.committed

/-- Another transaction has written or locked the row. -/
def heldByOther (slot : Slot Txn Row) (txn : Txn) : Bool :=
  match slot.writer with
  | some (other, _) => other ≠ txn
  | none => false

def update (slot : Slot Txn Row) (txn : Txn) (wanted : Row → Bool) (change : Row → Row) :
    Slot Txn Row :=
  match slot.visible txn with
  | some row => if wanted row then { slot with writer := some (txn, change row) } else slot
  | none => slot

def commit (slot : Slot Txn Row) (txn : Txn) : Slot Txn Row :=
  match slot.writtenBy txn with
  | some row => { committed := some row, writer := none }
  | none => slot

def rollback (slot : Slot Txn Row) (txn : Txn) : Slot Txn Row :=
  match slot.writtenBy txn with
  | some _ => { slot with writer := none }
  | none => slot

theorem written_by_eq_some_iff (slot : Slot Txn Row) (txn : Txn) (row : Row) :
    slot.writtenBy txn = some row ↔ slot.writer = some (txn, row) := by
  rcases slot with ⟨committed, _ | ⟨other, version⟩⟩
  · simp [writtenBy]
  · by_cases same : other = txn <;> simp [writtenBy, same]

theorem written_by_other {slot : Slot Txn Row} {txn other : Txn} {row : Row}
    (written : slot.writer = some (other, row)) (apart : other ≠ txn) :
    slot.writtenBy txn = none := by
  simp [writtenBy, written, apart]

theorem visible_of_written {slot : Slot Txn Row} {txn : Txn} {row : Row}
    (written : slot.writer = some (txn, row)) : slot.visible txn = some row := by
  simp [visible, (slot.written_by_eq_some_iff txn row).mpr written]

theorem visible_mem_versions {slot : Slot Txn Row} {txn : Txn} {row : Row}
    (seen : slot.visible txn = some row) : row ∈ slot.versions := by
  unfold visible at seen
  split at seen
  · rename_i version written
    cases seen
    exact written_mem_versions ((slot.written_by_eq_some_iff txn row).mp written)
  · exact committed_mem_versions seen

/-- What a transaction sees is its own version or, if it has none, the committed one. -/
theorem visible_cases {slot : Slot Txn Row} {txn : Txn} {row : Row}
    (seen : slot.visible txn = some row) (free : slot.heldByOther txn = false) :
    slot.writer = some (txn, row) ∨ (slot.writer = none ∧ slot.committed = some row) := by
  rcases slot with ⟨committed, _ | ⟨other, version⟩⟩
  · exact Or.inr ⟨rfl, seen⟩
  · have same : other = txn := by simpa [heldByOther] using free
    subst same
    left
    simpa [visible, writtenBy] using seen

end Slot

namespace RowStore

variable {Txn Row : Type*}

def ofRows (rows : List Row) : RowStore Txn Row where
  slots := rows.map fun row => { committed := some row, writer := none }

def committed (store : RowStore Txn Row) : List Row :=
  store.slots.filterMap Slot.committed

/-- No two rows of the table can end up in conflict, however the open transactions end. -/
def Consistent (conflict : Row → Row → Bool) (store : RowStore Txn Row) : Prop :=
  store.slots.Pairwise fun left right =>
    ∀ row ∈ left.versions, ∀ other ∈ right.versions, conflict row other = false

/-- A version that is not committed yet comes after the committed one. -/
def Grows (advances : Row → Row → Prop) (store : RowStore Txn Row) : Prop :=
  ∀ slot ∈ store.slots, ∀ row ∈ slot.committed, ∀ entry ∈ slot.writer, advances row entry.2

/-- Every version in the table satisfies `holds`. -/
def Every (holds : Row → Prop) (store : RowStore Txn Row) : Prop :=
  ∀ slot ∈ store.slots, ∀ row ∈ slot.versions, holds row

inductive InsertOutcome (Txn Row : Type*) where
  | waits
  | conflicted
  | inserted (store : RowStore Txn Row)

variable [DecidableEq Txn]

def select (store : RowStore Txn Row) (txn : Txn) (wanted : Row → Bool) : List Row :=
  (store.slots.filterMap fun slot => slot.visible txn).filter wanted

/-- The row conflicts with this slot however the other transaction ends. -/
def certainConflict (conflict : Row → Row → Bool) (txn : Txn) (row : Row)
    (slot : Slot Txn Row) : Bool :=
  match slot.writer with
  | some (other, version) =>
      conflict row version && (other = txn || slot.committed.any (conflict row))
  | none => slot.committed.any (conflict row)

def possibleConflict (conflict : Row → Row → Bool) (row : Row) (slot : Slot Txn Row) : Bool :=
  slot.versions.any (conflict row)

/-- `INSERT … ON CONFLICT DO NOTHING` without a conflict target. It waits while it depends on an
open transaction whether the row is in conflict. -/
def insertOnConflictDoNothing (conflict : Row → Row → Bool) (store : RowStore Txn Row)
    (txn : Txn) (row : Row) : InsertOutcome Txn Row :=
  if store.slots.any (certainConflict conflict txn row) then .conflicted
  else if store.slots.any (possibleConflict conflict row) then .waits
  else .inserted { slots := store.slots ++ [{ committed := none, writer := some (txn, row) }] }

/-- `UPDATE … WHERE` with the rows it changed, or nothing while one of them is locked. A
`SELECT … FOR UPDATE` is the update that changes nothing. -/
def updateWhere (store : RowStore Txn Row) (txn : Txn) (wanted : Row → Bool)
    (change : Row → Row) : Option (List Row × RowStore Txn Row) :=
  if store.slots.any fun slot => slot.heldByOther txn && (slot.visible txn).any wanted then none
  else some ((store.select txn wanted).map change,
    { slots := store.slots.map fun slot => slot.update txn wanted change })

def lockWhere (store : RowStore Txn Row) (txn : Txn) (wanted : Row → Bool) :
    Option (List Row × RowStore Txn Row) :=
  store.updateWhere txn wanted id

def commit (store : RowStore Txn Row) (txn : Txn) : RowStore Txn Row where
  slots := store.slots.map fun slot => slot.commit txn

def rollback (store : RowStore Txn Row) (txn : Txn) : RowStore Txn Row where
  slots := store.slots.map fun slot => slot.rollback txn

/-! ## Reading -/

omit [DecidableEq Txn] in
theorem mem_committed_iff (store : RowStore Txn Row) (row : Row) :
    row ∈ store.committed ↔ ∃ slot ∈ store.slots, slot.committed = some row := by
  simp [committed]

theorem mem_select_iff (store : RowStore Txn Row) (txn : Txn) (wanted : Row → Bool) (row : Row) :
    row ∈ store.select txn wanted ↔
      ∃ slot ∈ store.slots, slot.visible txn = some row ∧ wanted row = true := by
  simp only [select, List.mem_filter, List.mem_filterMap]
  constructor
  · rintro ⟨⟨slot, member, seen⟩, matched⟩
    exact ⟨slot, member, seen, matched⟩
  · rintro ⟨slot, member, seen, matched⟩
    exact ⟨⟨slot, member, seen⟩, matched⟩

section SameSlot

variable {conflict : Row → Row → Bool} {store : RowStore Txn Row} {left right : Slot Txn Row}
  {row other : Row}

omit [DecidableEq Txn] in
/-- Two versions that conflict belong to one slot. -/
theorem same_slot (symmetric : ∀ row other, conflict row other = conflict other row)
    (consistent : store.Consistent conflict)
    (leftMem : left ∈ store.slots) (rightMem : right ∈ store.slots)
    (rowMem : row ∈ left.versions) (otherMem : other ∈ right.versions)
    (clash : conflict row other = true) : left = right := by
  by_contra apart
  have symm : Std.Symm fun left right : Slot Txn Row =>
      ∀ row ∈ left.versions, ∀ other ∈ right.versions, conflict row other = false := by
    constructor
    intro left right clear row rowMem other otherMem
    rw [symmetric]
    exact clear other otherMem row rowMem
  have clear := List.Pairwise.forall consistent leftMem rightMem apart
  rw [clear row rowMem other otherMem] at clash
  cases clash

omit [DecidableEq Txn] in
theorem same_committed (symmetric : ∀ row other, conflict row other = conflict other row)
    (consistent : store.Consistent conflict)
    (rowMem : row ∈ store.committed) (otherMem : other ∈ store.committed)
    (clash : conflict row other = true) : row = other := by
  obtain ⟨left, leftMem, leftRow⟩ := (store.mem_committed_iff row).mp rowMem
  obtain ⟨right, rightMem, rightRow⟩ := (store.mem_committed_iff other).mp otherMem
  have same := same_slot symmetric consistent leftMem rightMem
    (Slot.committed_mem_versions leftRow) (Slot.committed_mem_versions rightRow) clash
  rw [same, rightRow] at leftRow
  exact (Option.some.inj leftRow).symm

end SameSlot

/-! ## What a statement leaves in the slots -/

section Slots

variable {store next : RowStore Txn Row} {txn : Txn} {wanted : Row → Bool} {change : Row → Row}
  {rows : List Row} {slot : Slot Txn Row}

/-- What an update does once it need not wait. -/
theorem update_inversion (updated : store.updateWhere txn wanted change = some (rows, next)) :
    (∀ slot ∈ store.slots, ∀ row, slot.visible txn = some row → wanted row = true →
      slot.heldByOther txn = false) ∧
      rows = (store.select txn wanted).map change ∧
      next.slots = store.slots.map fun slot => slot.update txn wanted change := by
  unfold updateWhere at updated
  split_ifs at updated with blocked
  cases updated
  refine ⟨?_, rfl, rfl⟩
  intro slot member row seen matched
  by_contra held
  apply blocked
  rw [List.any_eq_true]
  exact ⟨slot, member, by simpa [seen, matched] using held⟩

/-- An update waits for nothing but the rows it would change. -/
theorem update_runs (change : Row → Row)
    (free : ∀ slot ∈ store.slots, ∀ row, slot.visible txn = some row → wanted row = true →
      slot.heldByOther txn = false) :
    ∃ result, store.updateWhere txn wanted change = some result := by
  unfold updateWhere
  split_ifs with blocked
  · rw [List.any_eq_true] at blocked
    have ⟨slot, member, held⟩ := blocked
    rw [Bool.and_eq_true] at held
    have ⟨row, seen, matched⟩ := (Option.any_eq_true wanted _).mp held.2
    rw [free slot member row seen matched] at held
    cases held.1
  · exact ⟨_, rfl⟩

/-- A slot of the table after an update is an old one that did not match or one whose visible row
was changed. -/
theorem update_cases (updated : store.updateWhere txn wanted change = some (rows, next))
    (member : slot ∈ next.slots) :
    (slot ∈ store.slots ∧ ∀ row, slot.visible txn = some row → wanted row = false) ∨
      ∃ old ∈ store.slots, ∃ row, old.visible txn = some row ∧ wanted row = true ∧
        slot = { old with writer := some (txn, change row) } := by
  rw [(update_inversion updated).2.2] at member
  obtain ⟨old, oldMem, rfl⟩ := List.mem_map.mp member
  cases seen : old.visible txn with
  | none =>
      left
      have same : old.update txn wanted change = old := by simp only [Slot.update, seen]
      rw [same]
      exact ⟨oldMem, fun row isSeen => by rw [seen] at isSeen; cases isSeen⟩
  | some row =>
      cases matched : wanted row with
      | false =>
          left
          have same : old.update txn wanted change = old := by simp [Slot.update, seen, matched]
          rw [same]
          refine ⟨oldMem, fun version isSeen => ?_⟩
          rw [seen] at isSeen
          cases isSeen
          exact matched
      | true =>
          right
          exact ⟨old, oldMem, row, seen, matched, by simp only [Slot.update, seen, matched, if_true]⟩

theorem update_writes (updated : store.updateWhere txn wanted change = some (rows, next))
    (member : slot ∈ store.slots) {row : Row} (seen : slot.visible txn = some row)
    (matched : wanted row = true) :
    { slot with writer := some (txn, change row) } ∈ next.slots := by
  rw [(update_inversion updated).2.2]
  exact List.mem_map.mpr ⟨slot, member, by simp only [Slot.update, seen, matched, if_true]⟩

/-- The rows another transaction holds are left as they are. -/
theorem update_frame (updated : store.updateWhere txn wanted change = some (rows, next))
    (member : slot ∈ store.slots) {other : Txn} {row : Row}
    (held : slot.writer = some (other, row)) (apart : other ≠ txn) : slot ∈ next.slots := by
  have blocked : slot.heldByOther txn = true := by simp [Slot.heldByOther, held, apart]
  obtain ⟨free, _, slots⟩ := update_inversion updated
  rw [slots]
  refine List.mem_map.mpr ⟨slot, member, ?_⟩
  cases seen : slot.visible txn with
  | none => simp only [Slot.update, seen]
  | some version =>
      cases matched : wanted version with
      | false => simp [Slot.update, seen, matched]
      | true =>
          rw [free slot member version seen matched] at blocked
          cases blocked

theorem update_committed (updated : store.updateWhere txn wanted change = some (rows, next)) :
    next.committed = store.committed := by
  simp only [committed, (update_inversion updated).2.2, List.filterMap_map]
  apply List.filterMap_congr
  intro slot _
  simp only [Function.comp_apply, Slot.update]
  split
  · split_ifs <;> rfl
  · rfl

theorem commit_cases (member : slot ∈ (store.commit txn).slots) :
    (slot ∈ store.slots ∧ slot.writtenBy txn = none) ∨
      ∃ old ∈ store.slots, ∃ row, old.writer = some (txn, row) ∧
        slot = { committed := some row, writer := none } := by
  obtain ⟨old, oldMem, rfl⟩ := List.mem_map.mp member
  cases written : old.writtenBy txn with
  | none =>
      left
      simpa only [Slot.commit, written] using And.intro oldMem written
  | some row =>
      right
      exact ⟨old, oldMem, row, (old.written_by_eq_some_iff txn row).mp written,
        by simp only [Slot.commit, written]⟩

theorem commit_keeps (member : slot ∈ store.slots) (untouched : slot.writtenBy txn = none) :
    slot ∈ (store.commit txn).slots :=
  List.mem_map.mpr ⟨slot, member, by simp only [Slot.commit, untouched]⟩

theorem commit_writes {row : Row} (member : slot ∈ store.slots)
    (written : slot.writer = some (txn, row)) :
    { committed := some row, writer := none } ∈ (store.commit txn).slots := by
  have own := (slot.written_by_eq_some_iff txn row).mpr written
  exact List.mem_map.mpr ⟨slot, member, by simp only [Slot.commit, own]⟩

theorem commit_free (member : slot ∈ (store.commit txn).slots) (row : Row) :
    slot.writer ≠ some (txn, row) := by
  intro written
  rcases commit_cases member with ⟨_, untouched⟩ | ⟨old, _, version, _, rfl⟩
  · rw [(slot.written_by_eq_some_iff txn row).mpr written] at untouched
    cases untouched
  · cases written

theorem mem_committed_commit {row : Row} (member : row ∈ (store.commit txn).committed) :
    row ∈ store.committed ∨ ∃ slot ∈ store.slots, slot.writer = some (txn, row) := by
  obtain ⟨slot, slotMem, isCommitted⟩ := (mem_committed_iff _ row).mp member
  rcases commit_cases slotMem with ⟨oldMem, _⟩ | ⟨old, oldMem, version, written, rfl⟩
  · exact Or.inl ((store.mem_committed_iff row).mpr ⟨slot, oldMem, isCommitted⟩)
  · cases isCommitted
    exact Or.inr ⟨old, oldMem, written⟩

/-- Where the commit of a transaction leaves in every slot what a change makes of the committed row,
it is that change of the committed rows. -/
theorem committed_commit_of_map (change : Row → Row)
    (changed : ∀ slot ∈ store.slots,
      (slot.commit txn).committed = slot.committed.map change) :
    (store.commit txn).committed = store.committed.map change := by
  simp only [committed, commit, List.filterMap_map, List.map_filterMap]
  apply List.filterMap_congr
  intro slot member
  simp only [Function.comp_apply, changed slot member]

theorem mem_committed_commit_iff (row : Row) :
    row ∈ (store.commit txn).committed ↔
      (∃ slot ∈ store.slots, slot.writtenBy txn = none ∧ slot.committed = some row) ∨
        ∃ slot ∈ store.slots, slot.writer = some (txn, row) := by
  rw [mem_committed_iff]
  constructor
  · rintro ⟨slot, member, isCommitted⟩
    rcases commit_cases member with ⟨old, untouched⟩ | ⟨old, oldMem, version, written, same⟩
    · exact Or.inl ⟨slot, old, untouched, isCommitted⟩
    · rw [same] at isCommitted
      cases isCommitted
      exact Or.inr ⟨old, oldMem, written⟩
  · rintro (⟨slot, member, untouched, isCommitted⟩ | ⟨slot, member, written⟩)
    · exact ⟨slot, commit_keeps member untouched, isCommitted⟩
    · exact ⟨_, commit_writes member written, rfl⟩

theorem commit_unwritten (unwritten : ∀ slot ∈ store.slots, slot.writtenBy txn = none) :
    store.commit txn = store := by
  have same : store.slots.map (fun slot => slot.commit txn) = store.slots := by
    conv_rhs => rw [← List.map_id store.slots]
    apply List.map_congr_left
    intro slot member
    simp only [Slot.commit, unwritten slot member, id]
  rw [commit, same]

/-- A commit only moves a committed row forward. -/
theorem commit_advances {advances : Row → Row → Prop} (refl : ∀ row, advances row row)
    (grows : store.Grows advances) {row : Row} (member : row ∈ store.committed) :
    ∃ version ∈ (store.commit txn).committed, advances row version := by
  obtain ⟨slot, slotMem, isCommitted⟩ := (store.mem_committed_iff row).mp member
  cases written : slot.writtenBy txn with
  | none =>
      exact ⟨row, (mem_committed_iff _ row).mpr ⟨slot, commit_keeps slotMem written, isCommitted⟩,
        refl row⟩
  | some version =>
      have writer := (slot.written_by_eq_some_iff txn version).mp written
      exact ⟨version, (mem_committed_iff _ version).mpr ⟨_, commit_writes slotMem writer, rfl⟩,
        grows slot slotMem row isCommitted _ writer⟩

theorem rollback_cases (member : slot ∈ (store.rollback txn).slots) :
    (slot ∈ store.slots ∧ slot.writtenBy txn = none) ∨
      ∃ old ∈ store.slots, slot = { committed := old.committed, writer := none } := by
  obtain ⟨old, oldMem, rfl⟩ := List.mem_map.mp member
  cases written : old.writtenBy txn with
  | none =>
      left
      simpa only [Slot.rollback, written] using And.intro oldMem written
  | some row =>
      right
      exact ⟨old, oldMem, by simp only [Slot.rollback, written]⟩

theorem rollback_keeps (member : slot ∈ store.slots) (untouched : slot.writtenBy txn = none) :
    slot ∈ (store.rollback txn).slots :=
  List.mem_map.mpr ⟨slot, member, by simp only [Slot.rollback, untouched]⟩

theorem rollback_free (member : slot ∈ (store.rollback txn).slots) (row : Row) :
    slot.writer ≠ some (txn, row) := by
  intro written
  rcases rollback_cases member with ⟨_, untouched⟩ | ⟨old, _, rfl⟩
  · rw [(slot.written_by_eq_some_iff txn row).mpr written] at untouched
    cases untouched
  · cases written

theorem rollback_committed (store : RowStore Txn Row) (txn : Txn) :
    (store.rollback txn).committed = store.committed := by
  simp only [committed, rollback, List.filterMap_map]
  apply List.filterMap_congr
  intro slot _
  simp only [Function.comp_apply, Slot.rollback]
  split <;> rfl

end Slots

/-! ## Inserting -/

section Insert

variable {conflict : Row → Row → Bool} {store next : RowStore Txn Row} {txn : Txn} {row : Row}

theorem insert_slots
    (inserted : insertOnConflictDoNothing conflict store txn row = .inserted next) :
    next.slots = store.slots ++ [{ committed := none, writer := some (txn, row) }] := by
  unfold insertOnConflictDoNothing at inserted
  split_ifs at inserted
  cases inserted
  rfl

theorem insert_clear
    (inserted : insertOnConflictDoNothing conflict store txn row = .inserted next)
    {slot : Slot Txn Row} (member : slot ∈ store.slots) {version : Row}
    (isVersion : version ∈ slot.versions) : conflict row version = false := by
  unfold insertOnConflictDoNothing at inserted
  split_ifs at inserted with certain possible
  by_contra clash
  apply possible
  rw [List.any_eq_true]
  refine ⟨slot, member, ?_⟩
  rw [possibleConflict, List.any_eq_true]
  exact ⟨version, isVersion, by simpa using clash⟩

/-- Where no transaction is open, an insert knows at once whether its row is in conflict. -/
theorem insert_runs (conflict : Row → Row → Bool) (txn : Txn) (row : Row)
    (free : ∀ slot ∈ store.slots, slot.writer = none) :
    insertOnConflictDoNothing conflict store txn row ≠ .waits := by
  unfold insertOnConflictDoNothing
  split_ifs with certain possible
  · simp
  · exfalso
    apply certain
    rw [List.any_eq_true] at possible ⊢
    have ⟨slot, member, clash⟩ := possible
    refine ⟨slot, member, ?_⟩
    have unwritten := free slot member
    have ⟨version, isVersion, isClash⟩ := List.any_eq_true.mp clash
    simp only [Slot.versions, unwritten, Option.map_none, Option.toList_none, List.append_nil,
      Option.mem_toList] at isVersion
    simp [certainConflict, unwritten, isVersion, isClash]
  · simp

theorem insert_committed
    (inserted : insertOnConflictDoNothing conflict store txn row = .inserted next) :
    next.committed = store.committed := by
  simp [committed, insert_slots inserted]

end Insert

/-! ## The unique indexes -/

section Consistency

variable {conflict : Row → Row → Bool} {store next : RowStore Txn Row} {txn : Txn}

omit [DecidableEq Txn] in
theorem consistent_of_rows {rows : List Row}
    (apart : rows.Pairwise fun row other => conflict row other = false) :
    (ofRows rows : RowStore Txn Row).Consistent conflict := by
  simp only [Consistent, ofRows, List.pairwise_map]
  apply apart.imp
  intro row other clear version isVersion otherVersion isOther
  simp only [Slot.versions, Option.toList_some, Option.map_none, Option.toList_none,
    List.append_nil, List.mem_singleton] at isVersion isOther
  rw [isVersion, isOther]
  exact clear

omit [DecidableEq Txn] in
/-- A table stays consistent when every version a slot gets conflicts with no more than one it
had. -/
theorem consistent_map (symmetric : ∀ row other, conflict row other = conflict other row)
    (consistent : store.Consistent conflict) (change : Slot Txn Row → Slot Txn Row)
    (narrows : ∀ slot ∈ store.slots, ∀ version ∈ (change slot).versions,
      ∃ old ∈ slot.versions, ∀ other, conflict version other = true → conflict old other = true) :
    (RowStore.mk (store.slots.map change)).Consistent conflict := by
  simp only [Consistent, List.pairwise_map]
  apply consistent.imp_of_mem
  intro left right leftMem rightMem clear version isVersion other isOther
  obtain ⟨old, oldMem, oldClash⟩ := narrows left leftMem version isVersion
  obtain ⟨oldOther, oldOtherMem, otherClash⟩ := narrows right rightMem other isOther
  by_contra clash
  have first := oldClash other (by simpa using clash)
  have second := otherClash old (by rw [symmetric]; exact first)
  rw [symmetric, clear old oldMem oldOther oldOtherMem] at second
  cases second

omit [DecidableEq Txn] in
theorem committed_apart (consistent : store.Consistent conflict) :
    store.committed.Pairwise fun row other => conflict row other = false := by
  apply List.Pairwise.filterMap Slot.committed _ consistent
  intro left right clear row isRow other isOther
  exact clear row (Slot.committed_mem_versions isRow) other (Slot.committed_mem_versions isOther)

/-- The rows a transaction sees are not in conflict either. -/
theorem select_apart (consistent : store.Consistent conflict) (txn : Txn) (wanted : Row → Bool) :
    (store.select txn wanted).Pairwise fun row other => conflict row other = false := by
  apply List.Pairwise.filter
  apply List.Pairwise.filterMap (fun slot => slot.visible txn) _ consistent
  intro left right clear row isRow other isOther
  exact clear row (Slot.visible_mem_versions isRow) other (Slot.visible_mem_versions isOther)

theorem consistent_insert {row : Row}
    (symmetric : ∀ row other, conflict row other = conflict other row)
    (consistent : store.Consistent conflict)
    (inserted : insertOnConflictDoNothing conflict store txn row = .inserted next) :
    next.Consistent conflict := by
  simp only [Consistent, insert_slots inserted, List.pairwise_append]
  refine ⟨consistent, List.pairwise_singleton _ _, ?_⟩
  intro slot member added single version isVersion other isOther
  rw [List.mem_singleton] at single
  subst single
  simp only [Slot.versions, Option.toList_none, Option.map_some, Option.toList_some,
    List.nil_append, List.mem_singleton] at isOther
  rw [isOther, symmetric]
  exact insert_clear inserted member isVersion

theorem consistent_update {wanted : Row → Bool} {change : Row → Row} {rows : List Row}
    (symmetric : ∀ row other, conflict row other = conflict other row)
    (consistent : store.Consistent conflict)
    (narrows : ∀ slot ∈ store.slots, ∀ row, slot.visible txn = some row → wanted row = true →
      ∀ other, conflict (change row) other = true → conflict row other = true)
    (updated : store.updateWhere txn wanted change = some (rows, next)) :
    next.Consistent conflict := by
  have mapped : (RowStore.mk (store.slots.map fun slot =>
      slot.update txn wanted change)).Consistent conflict := by
    apply consistent_map symmetric consistent
    intro slot member version isVersion
    simp only [Slot.update] at isVersion
    split at isVersion
    · rename_i row seen
      split_ifs at isVersion with matched
      · simp only [Slot.versions, Option.map_some, Option.toList_some, List.mem_append,
          List.mem_singleton] at isVersion
        rcases isVersion with isCommitted | rfl
        · exact ⟨version, by simp [Slot.versions, isCommitted], fun other clash => clash⟩
        · exact ⟨row, Slot.visible_mem_versions seen, narrows slot member row seen matched⟩
      · exact ⟨version, isVersion, fun other clash => clash⟩
    · exact ⟨version, isVersion, fun other clash => clash⟩
  rw [Consistent, (update_inversion updated).2.2]
  exact mapped

theorem consistent_commit (symmetric : ∀ row other, conflict row other = conflict other row)
    (consistent : store.Consistent conflict) : (store.commit txn).Consistent conflict := by
  apply consistent_map symmetric consistent
  intro slot member version isVersion
  simp only [Slot.commit] at isVersion
  split at isVersion
  · rename_i row written
    simp only [Slot.versions, Option.toList_some, Option.map_none, Option.toList_none,
      List.append_nil, List.mem_singleton] at isVersion
    subst isVersion
    exact ⟨version, Slot.written_mem_versions ((slot.written_by_eq_some_iff txn version).mp written),
      fun other clash => clash⟩
  · exact ⟨version, isVersion, fun other clash => clash⟩

theorem consistent_rollback (symmetric : ∀ row other, conflict row other = conflict other row)
    (consistent : store.Consistent conflict) : (store.rollback txn).Consistent conflict := by
  apply consistent_map symmetric consistent
  intro slot member version isVersion
  simp only [Slot.rollback] at isVersion
  split at isVersion
  · simp only [Slot.versions, Option.map_none, Option.toList_none, List.append_nil] at isVersion
    exact ⟨version, by simp [Slot.versions, isVersion], fun other clash => clash⟩
  · exact ⟨version, isVersion, fun other clash => clash⟩

end Consistency

/-! ## What holds of every version -/

section Versions

variable {conflict : Row → Row → Bool} {store next : RowStore Txn Row} {txn : Txn}
  {wanted : Row → Bool} {change : Row → Row} {rows : List Row} {row : Row}
  {holds : Row → Prop} {advances : Row → Row → Prop}

omit [DecidableEq Txn] in
theorem Every.committed (every : store.Every holds) (member : row ∈ store.committed) :
    holds row := by
  obtain ⟨slot, slotMem, isCommitted⟩ := (store.mem_committed_iff row).mp member
  exact every slot slotMem row (Slot.committed_mem_versions isCommitted)

omit [DecidableEq Txn] in
theorem Every.imp {weaker : Row → Prop} (every : store.Every holds)
    (implies : ∀ row, holds row → weaker row) : store.Every weaker :=
  fun slot member row isVersion => implies row (every slot member row isVersion)

theorem every_insert (every : store.Every holds) (holdsNew : holds row)
    (inserted : insertOnConflictDoNothing conflict store txn row = .inserted next) :
    next.Every holds := by
  intro slot member version isVersion
  rw [insert_slots inserted, List.mem_append, List.mem_singleton] at member
  rcases member with old | added
  · exact every slot old version isVersion
  · rw [added] at isVersion
    have same : version = row := by simpa [Slot.versions] using isVersion
    rw [same]
    exact holdsNew

theorem every_update (every : store.Every holds)
    (keeps : ∀ slot ∈ store.slots, ∀ row, slot.visible txn = some row → wanted row = true →
      holds (change row))
    (updated : store.updateWhere txn wanted change = some (rows, next)) : next.Every holds := by
  intro slot member version isVersion
  rcases update_cases updated member with ⟨old, _⟩ | ⟨old, oldMem, row, seen, matched, same⟩
  · exact every slot old version isVersion
  · rw [same] at isVersion
    simp only [Slot.versions, Option.map_some, Option.toList_some, List.mem_append,
      List.mem_singleton] at isVersion
    rcases isVersion with isCommitted | isWritten
    · apply every old oldMem version
      simp [Slot.versions, isCommitted]
    · rw [isWritten]
      exact keeps old oldMem row seen matched

theorem every_commit (every : store.Every holds) : (store.commit txn).Every holds := by
  intro slot member version isVersion
  rcases commit_cases member with ⟨old, _⟩ | ⟨old, oldMem, row, written, same⟩
  · exact every slot old version isVersion
  · rw [same] at isVersion
    have isRow : version = row := by simpa [Slot.versions] using isVersion
    rw [isRow]
    exact every old oldMem row (Slot.written_mem_versions written)

theorem every_rollback (every : store.Every holds) : (store.rollback txn).Every holds := by
  intro slot member version isVersion
  rcases rollback_cases member with ⟨old, _⟩ | ⟨old, oldMem, same⟩
  · exact every slot old version isVersion
  · rw [same] at isVersion
    apply every old oldMem version
    simp only [Slot.versions, Option.map_none, Option.toList_none, List.append_nil] at isVersion
    simp [Slot.versions, isVersion]

theorem grows_insert (grows : store.Grows advances)
    (inserted : insertOnConflictDoNothing conflict store txn row = .inserted next) :
    next.Grows advances := by
  intro slot member old isCommitted entry isWriter
  rw [insert_slots inserted, List.mem_append, List.mem_singleton] at member
  rcases member with isOld | added
  · exact grows slot isOld old isCommitted entry isWriter
  · rw [added] at isCommitted
    cases isCommitted

theorem grows_update (trans : ∀ {first second third}, advances first second →
      advances second third → advances first third)
    (grows : store.Grows advances)
    (moves : ∀ slot ∈ store.slots, ∀ row, slot.visible txn = some row → wanted row = true →
      advances row (change row))
    (updated : store.updateWhere txn wanted change = some (rows, next)) :
    next.Grows advances := by
  intro slot member old isCommitted entry isWriter
  rcases update_cases updated member with ⟨isOld, _⟩ | ⟨before, isOld, row, seen, matched, same⟩
  · exact grows slot isOld old isCommitted entry isWriter
  · subst same
    cases isWriter
    have moved := moves before isOld row seen matched
    have free := (update_inversion updated).1 before isOld row seen matched
    rcases Slot.visible_cases seen free with own | ⟨_, isRow⟩
    · exact trans (grows before isOld old isCommitted _ own) moved
    · rw [Option.mem_def.mp isCommitted] at isRow
      cases isRow
      exact moved

theorem grows_commit (grows : store.Grows advances) : (store.commit txn).Grows advances := by
  intro slot member old isCommitted entry isWriter
  rcases commit_cases member with ⟨isOld, _⟩ | ⟨before, isOld, row, written, same⟩
  · exact grows slot isOld old isCommitted entry isWriter
  · subst same
    cases isWriter

theorem grows_rollback (grows : store.Grows advances) : (store.rollback txn).Grows advances := by
  intro slot member old isCommitted entry isWriter
  rcases rollback_cases member with ⟨isOld, _⟩ | ⟨before, isOld, same⟩
  · exact grows slot isOld old isCommitted entry isWriter
  · subst same
    cases isWriter

end Versions

/-! ## The steps of one transaction -/

/-- How the rows of a table may change: an advance brings a row into no new conflict. -/
structure Discipline (conflict : Row → Row → Bool) (advances : Row → Row → Prop) : Prop where
  symmetric : ∀ row other, conflict row other = conflict other row
  refl : ∀ row, advances row row
  narrows : ∀ old new other, advances old new → conflict new other = true →
    conflict old other = true

/-- What the statements of one transaction do to a table: committed rows only advance, a version
is an advanced old one or a fresh one, and the rows of other transactions stay as they are. -/
structure Transition (conflict : Row → Row → Bool) (advances : Row → Row → Prop)
    (fresh : Row → Prop) (txn : Txn) (before after : RowStore Txn Row) : Prop where
  consistent : after.Consistent conflict
  advanced : ∀ row ∈ before.committed, ∃ version ∈ after.committed, advances row version
  versions : ∀ slot ∈ after.slots, ∀ row ∈ slot.versions,
    fresh row ∨ ∃ old ∈ before.slots, ∃ version ∈ old.versions, advances version row
  kept : ∀ slot ∈ before.slots, ∀ other row, other ≠ txn → slot.writer = some (other, row) →
    slot ∈ after.slots
  others : ∀ slot ∈ after.slots, ∀ other row, other ≠ txn → slot.writer = some (other, row) →
    slot ∈ before.slots

section Transitions

variable {conflict : Row → Row → Bool} {advances : Row → Row → Prop} {fresh : Row → Prop}
  {store next : RowStore Txn Row} {txn : Txn}

omit [DecidableEq Txn] in
theorem transition_none (discipline : Discipline conflict advances)
    (consistent : store.Consistent conflict) :
    Transition conflict advances fresh txn store store where
  consistent := consistent
  advanced := fun row member => ⟨row, member, discipline.refl row⟩
  versions := fun slot member row isVersion =>
    Or.inr ⟨slot, member, row, isVersion, discipline.refl row⟩
  kept := fun _ member _ _ _ _ => member
  others := fun _ member _ _ _ _ => member

theorem transition_insert {row : Row} (discipline : Discipline conflict advances)
    (consistent : store.Consistent conflict) (isFresh : fresh row)
    (inserted : insertOnConflictDoNothing conflict store txn row = .inserted next) :
    Transition conflict advances fresh txn store next where
  consistent := consistent_insert discipline.symmetric consistent inserted
  advanced := fun old member =>
    ⟨old, by rw [insert_committed inserted]; exact member, discipline.refl old⟩
  versions := by
    intro slot member version isVersion
    rw [insert_slots inserted, List.mem_append, List.mem_singleton] at member
    rcases member with old | rfl
    · exact Or.inr ⟨slot, old, version, isVersion, discipline.refl version⟩
    · have same : version = row := by simpa [Slot.versions] using isVersion
      exact Or.inl (same ▸ isFresh)
  kept := by
    intro slot member other version _ _
    rw [insert_slots inserted]
    exact List.mem_append_left _ member
  others := by
    intro slot member other version apart written
    rw [insert_slots inserted, List.mem_append, List.mem_singleton] at member
    rcases member with old | rfl
    · exact old
    · cases written
      exact absurd rfl apart

theorem transition_update {wanted : Row → Bool} {change : Row → Row} {rows : List Row}
    (discipline : Discipline conflict advances) (consistent : store.Consistent conflict)
    (moves : ∀ slot ∈ store.slots, ∀ row, slot.visible txn = some row → wanted row = true →
      advances row (change row))
    (updated : store.updateWhere txn wanted change = some (rows, next)) :
    Transition conflict advances fresh txn store next where
  consistent := by
    apply consistent_update discipline.symmetric consistent _ updated
    intro slot member row seen matched other
    exact discipline.narrows row _ other (moves slot member row seen matched)
  advanced := fun old member =>
    ⟨old, by rw [update_committed updated]; exact member, discipline.refl old⟩
  versions := by
    intro slot member version isVersion
    rcases update_cases updated member with ⟨old, _⟩ | ⟨old, oldMem, row, seen, matched, rfl⟩
    · exact Or.inr ⟨slot, old, version, isVersion, discipline.refl version⟩
    · simp only [Slot.versions, Option.map_some, Option.toList_some, List.mem_append,
        List.mem_singleton] at isVersion
      rcases isVersion with isCommitted | rfl
      · exact Or.inr ⟨old, oldMem, version, by simp [Slot.versions, isCommitted],
          discipline.refl version⟩
      · exact Or.inr ⟨old, oldMem, row, Slot.visible_mem_versions seen,
          moves old oldMem row seen matched⟩
  kept := fun slot member other row apart written => update_frame updated member written apart
  others := by
    intro slot member other row apart written
    rcases update_cases updated member with ⟨old, _⟩ | ⟨old, oldMem, version, _, _, rfl⟩
    · exact old
    · cases written
      exact absurd rfl apart

theorem transition_commit (discipline : Discipline conflict advances)
    (consistent : store.Consistent conflict) (grows : store.Grows advances) :
    Transition conflict advances fresh txn store (store.commit txn) where
  consistent := consistent_commit discipline.symmetric consistent
  advanced := fun _ member => commit_advances discipline.refl grows member
  versions := by
    intro slot member version isVersion
    rcases commit_cases member with ⟨old, _⟩ | ⟨old, oldMem, row, written, rfl⟩
    · exact Or.inr ⟨slot, old, version, isVersion, discipline.refl version⟩
    · have same : version = row := by simpa [Slot.versions] using isVersion
      subst same
      exact Or.inr ⟨old, oldMem, version, Slot.written_mem_versions written,
        discipline.refl version⟩
  kept := fun slot member other row apart written =>
    commit_keeps member (Slot.written_by_other written apart)
  others := by
    intro slot member other row apart written
    rcases commit_cases member with ⟨old, _⟩ | ⟨old, oldMem, version, _, rfl⟩
    · exact old
    · cases written

theorem transition_rollback (discipline : Discipline conflict advances)
    (consistent : store.Consistent conflict) :
    Transition conflict advances fresh txn store (store.rollback txn) where
  consistent := consistent_rollback discipline.symmetric consistent
  advanced := fun row member =>
    ⟨row, by rw [rollback_committed]; exact member, discipline.refl row⟩
  versions := by
    intro slot member version isVersion
    rcases rollback_cases member with ⟨old, _⟩ | ⟨old, oldMem, rfl⟩
    · exact Or.inr ⟨slot, old, version, isVersion, discipline.refl version⟩
    · have inOld : version ∈ old.versions := by
        simp only [Slot.versions, Option.map_none, Option.toList_none, List.append_nil]
          at isVersion
        simp [Slot.versions, isVersion]
      exact Or.inr ⟨old, oldMem, version, inOld, discipline.refl version⟩
  kept := fun slot member other row apart written =>
    rollback_keeps member (Slot.written_by_other written apart)
  others := by
    intro slot member other row apart written
    rcases rollback_cases member with ⟨old, _⟩ | ⟨old, oldMem, rfl⟩
    · exact old
    · cases written

end Transitions

end RowStore

end AgentHarness.Library
