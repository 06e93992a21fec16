import Mathlib.Data.List.Basic

/-!
# The event loop's bounded queue

`put_nowait` and `get_nowait` never wait: they raise on a full or an empty queue. A queue whose
`maxsize` is not positive is never full.
-/

namespace AgentHarness.Library

set_option autoImplicit false

inductive QueueFault where
  | full
  | empty
  deriving DecidableEq, Repr

structure AsyncQueue (Item : Type*) where
  maxsize : Int
  items : List Item
  deriving DecidableEq, Repr

namespace AsyncQueue

variable {Item : Type*}

def full (queue : AsyncQueue Item) : Bool :=
  decide (0 < queue.maxsize) && decide (queue.maxsize ≤ queue.items.length)

def putNowait (queue : AsyncQueue Item) (item : Item) : Except QueueFault (AsyncQueue Item) :=
  if queue.full then .error .full else .ok { queue with items := queue.items ++ [item] }

def getNowait (queue : AsyncQueue Item) : Except QueueFault (Item × AsyncQueue Item) :=
  match queue.items with
  | [] => .error .empty
  | item :: rest => .ok (item, { queue with items := rest })

/-- The outcome of taking items until the queue is empty. -/
def clear (queue : AsyncQueue Item) : AsyncQueue Item := { queue with items := [] }

theorem put_nowait_cases (queue : AsyncQueue Item) (item : Item) :
    (queue.full = true ∧ queue.putNowait item = .error .full) ∨
      (queue.full = false ∧
        queue.putNowait item = .ok { queue with items := queue.items ++ [item] }) := by
  cases room : queue.full <;> simp [putNowait, room]

theorem not_full_of_length_lt (queue : AsyncQueue Item)
    (room : (queue.items.length : Int) < queue.maxsize) : queue.full = false := by
  simp only [full, Bool.and_eq_false_iff, decide_eq_false_iff_not]
  right
  omega

end AsyncQueue

end AgentHarness.Library
