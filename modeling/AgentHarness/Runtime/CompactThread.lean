import AgentHarness.Runtime.StreamTurn
import Mathlib.Data.List.Forall2

/-!
# Manual compaction

`CodexRuntime.compact_thread` after `thread.compact()` was acknowledged: the loop that reads the
thread until a turn that was not there before has ended. The reads are a list of any length, so a
run that never ends is the family of its finite parts.
-/

namespace AgentHarness.Runtime

open AgentHarness.Library

set_option autoImplicit false

/-- A turn of a snapshot; an item is its `model_dump`. -/
structure Turn where
  id : String
  status : String
  items : List (List (String × Json))
  deriving DecidableEq, Repr

structure ExecutionFailed where
  code : String
  deriving DecidableEq, Repr

/-- The reads of the thread so far, and how the call ended if it did. -/
structure Compaction where
  reads : Nat
  outcome : Option (Except ExecutionFailed Unit)

def isContextCompaction (item : List (String × Json)) : Bool :=
  Json.lookup "type" item == some (.str "contextCompaction")

namespace Turn

def Stopped (turn : Turn) : Prop := turn.status = "failed" ∨ turn.status = "interrupted"

def Compacted (turn : Turn) : Prop :=
  turn.status = "completed" ∧ ∃ item ∈ turn.items, isContextCompaction item = true

end Turn

namespace CodexRuntime

/-- The turns of one snapshot, in order: the first that decides ends the call. -/
def examine (previousIds : List String) : List Turn → Option (Except ExecutionFailed Unit)
  | [] => none
  | turn :: turns =>
      if turn.id ∈ previousIds then examine previousIds turns
      else if turn.status ∈ ["failed", "interrupted"] then some (.error ⟨"COMPACTION_FAILED"⟩)
      else if turn.status = "completed" ∧ turn.items.any isContextCompaction = true then
        some (.ok ())
      else examine previousIds turns

def poll (previousIds : List String) : Nat → List (List Turn) → Compaction
  | reads, [] => ⟨reads, none⟩
  | reads, snapshot :: later =>
      match examine previousIds snapshot with
      | some outcome => ⟨reads + 1, some outcome⟩
      | none => poll previousIds (reads + 1) later

/-- The first read is the one before the compaction. -/
def compactThread (before : List Turn) (later : List (List Turn)) : Compaction :=
  poll (before.map Turn.id) 1 later

/-! ## Which turn decides -/

/-- A turn that was not in the snapshot before the compaction. -/
def New (before : List Turn) (turn : Turn) : Prop := ∀ old ∈ before, old.id ≠ turn.id

/-- The turn ends the call with this outcome. -/
def Decides (before : List Turn) (turn : Turn) : Except ExecutionFailed Unit → Prop
  | .ok _ => New before turn ∧ turn.Compacted
  | .error fault =>
      fault = ⟨"COMPACTION_FAILED"⟩ ∧ New before turn ∧ turn.Stopped

/-- No turn of the snapshot ends the call. -/
def Undecided (before : List Turn) (snapshot : List Turn) : Prop :=
  ∀ turn ∈ snapshot, ∀ outcome, ¬ Decides before turn outcome

/-- Two snapshots that differ at most in the status and the items of old turns. -/
def AgreeOnNew (before : List Turn) : List Turn → List Turn → Prop :=
  List.Forall₂ fun turn changed =>
    turn.id = changed.id ∧ (New before turn → turn = changed)

section Snapshots

variable {before : List Turn} {turn : Turn}

theorem new_iff : New before turn ↔ turn.id ∉ before.map Turn.id := by
  constructor
  · intro new known
    have ⟨old, listed, same⟩ := List.mem_map.mp known
    exact new old listed same
  · intro unknown old listed same
    exact unknown (List.mem_map.mpr ⟨old, listed, same⟩)

/-- What the body of the inner loop does with one turn. -/
theorem examine_cons (before : List Turn) (turn : Turn) (turns : List Turn) :
    (∃ outcome, Decides before turn outcome ∧
      examine (before.map Turn.id) (turn :: turns) = some outcome) ∨
    ((∀ outcome, ¬ Decides before turn outcome) ∧
      examine (before.map Turn.id) (turn :: turns) = examine (before.map Turn.id) turns) := by
  rw [examine]
  split
  · rename_i known
    right
    apply And.intro _ rfl
    intro outcome decides
    have new : New before turn := by
      cases outcome with
      | ok _ => exact decides.1
      | error _ => exact decides.2.1
    exact new_iff.mp new known
  · rename_i unknown
    have new : New before turn := new_iff.mpr unknown
    split
    · rename_i stopped
      have stopped : turn.Stopped := by simpa [Turn.Stopped] using stopped
      exact .inl ⟨.error ⟨"COMPACTION_FAILED"⟩, ⟨rfl, new, stopped⟩, rfl⟩
    · rename_i running
      have running : ¬ turn.Stopped := by simpa [Turn.Stopped] using running
      split
      · rename_i compacted
        have compacted : turn.Compacted := by
          simpa [Turn.Compacted] using compacted
        exact .inl ⟨.ok (), ⟨new, compacted⟩, rfl⟩
      · rename_i unended
        right
        apply And.intro _ rfl
        intro outcome decides
        cases outcome with
        | ok _ =>
            apply unended
            simpa [Turn.Compacted] using decides.2
        | error _ => exact running decides.2.2

theorem undecided_cons {turns : List Turn} (here : ∀ outcome, ¬ Decides before turn outcome) :
    Undecided before (turn :: turns) ↔ Undecided before turns := by
  simp only [Undecided, List.forall_mem_cons, and_iff_right here]

theorem examine_none_iff {snapshot : List Turn} :
    examine (before.map Turn.id) snapshot = none ↔ Undecided before snapshot := by
  induction snapshot with
  | nil => simp [examine, Undecided]
  | cons turn turns ih =>
      rcases examine_cons before turn turns with
        ⟨outcome, decides, ended⟩ | ⟨passed, continued⟩
      · rw [ended]
        constructor
        · intro impossible
          cases impossible
        · intro undecided
          exact absurd decides (undecided turn List.mem_cons_self outcome)
      · rw [continued, ih, undecided_cons passed]

/-- The deciding turn, with the turns before it that decide nothing. -/
theorem examine_some {snapshot : List Turn} {outcome : Except ExecutionFailed Unit}
    (ended : examine (before.map Turn.id) snapshot = some outcome) :
    ∃ passed turn rest, snapshot = passed ++ turn :: rest ∧ Undecided before passed ∧
      Decides before turn outcome := by
  induction snapshot with
  | nil => cases ended
  | cons turn turns ih =>
      rcases examine_cons before turn turns with
        ⟨found, decides, same⟩ | ⟨here, continued⟩
      · rw [same] at ended
        cases ended
        exact ⟨[], turn, turns, rfl, by simp [Undecided], decides⟩
      · rw [continued] at ended
        have ⟨passed, deciding, rest, cut, undecided, decides⟩ := ih ended
        refine ⟨turn :: passed, deciding, rest, ?_, (undecided_cons here).mpr undecided, decides⟩
        rw [cut, List.cons_append]

theorem examine_agree {snapshot changed : List Turn}
    (agree : AgreeOnNew before snapshot changed) :
    examine (before.map Turn.id) snapshot = examine (before.map Turn.id) changed := by
  induction agree with
  | nil => rfl
  | @cons turn other turns others same _ ih =>
      rw [examine, examine, ih]
      by_cases known : turn.id ∈ before.map Turn.id
      · rw [if_pos known, if_pos (same.1 ▸ known)]
      · rw [same.2 (new_iff.mpr known)]

end Snapshots

section Polls

variable {before : List Turn}

theorem poll_none_iff {reads : Nat} {later : List (List Turn)} :
    (poll (before.map Turn.id) reads later).outcome = none ↔
      ∀ snapshot ∈ later, Undecided before snapshot := by
  induction later generalizing reads with
  | nil => simp [poll]
  | cons snapshot later ih =>
      rw [poll, List.forall_mem_cons, ← examine_none_iff]
      cases examined : examine (before.map Turn.id) snapshot with
      | none => simpa using ih
      | some outcome => simp

theorem poll_reads_of_none {reads : Nat} {later : List (List Turn)}
    (polling : (poll (before.map Turn.id) reads later).outcome = none) :
    (poll (before.map Turn.id) reads later).reads = reads + later.length := by
  induction later generalizing reads with
  | nil => rfl
  | cons snapshot later ih =>
      rw [poll] at polling ⊢
      cases examined : examine (before.map Turn.id) snapshot with
      | none =>
          simp only [examined] at polling ⊢
          rw [ih polling, List.length_cons]
          omega
      | some outcome =>
          simp only [examined] at polling
          cases polling

/-- The call ends at the first snapshot with a deciding turn. -/
theorem poll_some {reads : Nat} {later : List (List Turn)} {outcome : Except ExecutionFailed Unit}
    (ended : (poll (before.map Turn.id) reads later).outcome = some outcome) :
    ∃ earlier passed turn rest unread, later = earlier ++ (passed ++ turn :: rest) :: unread ∧
      (∀ snapshot ∈ earlier, Undecided before snapshot) ∧ Undecided before passed ∧
      Decides before turn outcome ∧
      (poll (before.map Turn.id) reads later).reads = reads + earlier.length + 1 := by
  induction later generalizing reads with
  | nil => cases ended
  | cons snapshot later ih =>
      rw [poll] at ended ⊢
      cases examined : examine (before.map Turn.id) snapshot with
      | some found =>
          simp only [examined] at ended
          cases ended
          have ⟨passed, turn, rest, cut, undecided, decides⟩ := examine_some examined
          refine ⟨[], passed, turn, rest, later, ?_, by simp, undecided, decides, rfl⟩
          rw [cut, List.nil_append]
      | none =>
          simp only [examined] at ended
          have ⟨earlier, passed, turn, rest, unread, cut, idle, undecided, decides, count⟩ :=
            ih ended
          refine ⟨snapshot :: earlier, passed, turn, rest, unread, ?_, ?_, undecided, decides, ?_⟩
          · rw [cut, List.cons_append]
          · exact List.forall_mem_cons.mpr ⟨examine_none_iff.mp examined, idle⟩
          · rw [count, List.length_cons]
            omega

theorem poll_agree {reads : Nat} {later changed : List (List Turn)}
    (agree : List.Forall₂ (AgreeOnNew before) later changed) :
    poll (before.map Turn.id) reads later = poll (before.map Turn.id) reads changed := by
  induction agree generalizing reads with
  | nil => rfl
  | cons same _ ih => rw [poll, poll, examine_agree same, ih]

end Polls

/-- The call ends at the first snapshot with a turn that is new and has stopped or compacted, and
with that turn's outcome; it goes on through every other snapshot; old turns play no part. -/
theorem compaction_depends_on_new_turns (before : List Turn) (later : List (List Turn)) :
    (∀ outcome, (compactThread before later).outcome = some outcome →
      ∃ earlier passed turn rest unread, later = earlier ++ (passed ++ turn :: rest) :: unread ∧
        (∀ snapshot ∈ earlier, Undecided before snapshot) ∧ Undecided before passed ∧
        Decides before turn outcome ∧ (compactThread before later).reads = earlier.length + 2) ∧
    ((compactThread before later).outcome = none ↔
      ∀ snapshot ∈ later, Undecided before snapshot) ∧
    ((compactThread before later).outcome = none →
      (compactThread before later).reads = later.length + 1) ∧
    ∀ changed, List.Forall₂ (AgreeOnNew before) later changed →
      compactThread before changed = compactThread before later := by
  refine ⟨?_, poll_none_iff, ?_, ?_⟩
  · intro outcome ended
    have ⟨earlier, passed, turn, rest, unread, cut, idle, undecided, decides, count⟩ :=
      poll_some ended
    refine ⟨earlier, passed, turn, rest, unread, cut, idle, undecided, decides, ?_⟩
    rw [compactThread, count]
    omega
  · intro polling
    rw [compactThread, poll_reads_of_none polling]
    omega
  · intro changed agree
    exact (poll_agree agree).symm

end CodexRuntime

end AgentHarness.Runtime
