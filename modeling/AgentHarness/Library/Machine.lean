import Mathlib.Data.List.Basic
import Mathlib.Data.List.Induction

/-!
# Guarded machines

A machine takes one labelled step at a time and refuses the labels that are not enabled. An
interleaving of a concurrent component is one list of labels, so a statement about every
schedule is a statement about every list the machine accepts.
-/

namespace AgentHarness.Library

set_option autoImplicit false

structure Machine (State Label : Type*) where
  step : State → Label → Option State

namespace Machine

variable {State Label Observation : Type*}

/-- The state after a whole schedule, if every label is enabled where it stands. -/
def run (machine : Machine State Label) : State → List Label → Option State
  | state, [] => some state
  | state, label :: labels =>
      (machine.step state label).bind fun next => run machine next labels

/-- A schedule that only makes steps the guard admits. -/
def restrict (machine : Machine State Label) (guard : State → Label → Bool) :
    Machine State Label where
  step state label := if guard state label then machine.step state label else none

@[simp] theorem run_nil (machine : Machine State Label) (state : State) :
    machine.run state [] = some state := rfl

theorem run_cons (machine : Machine State Label) (state final : State) (label : Label)
    (labels : List Label) :
    machine.run state (label :: labels) = some final ↔
      ∃ next, machine.step state label = some next ∧ machine.run next labels = some final := by
  simp only [run, Option.bind_eq_some_iff]

theorem run_append (machine : Machine State Label) (state final : State)
    (left right : List Label) :
    machine.run state (left ++ right) = some final ↔
      ∃ middle, machine.run state left = some middle ∧ machine.run middle right = some final := by
  induction left generalizing state with
  | nil => simp
  | cons label left ih =>
      simp only [List.cons_append, run_cons, ih]
      constructor
      · rintro ⟨next, first, middle, before, after⟩
        exact ⟨middle, ⟨next, first, before⟩, after⟩
      · rintro ⟨middle, ⟨next, first, before⟩, after⟩
        exact ⟨next, first, middle, before, after⟩

/-- Forward simulation: where every step of the fine machine is the coarse step its label stands for
or leaves the abstract state alone, every run of it is a run of the coarse machine. -/
theorem run_of_abstraction {Fine FineLabel : Type*} (fine : Machine Fine FineLabel)
    (coarse : Machine State Label) (abstract : Fine → State) (outer : FineLabel → Option Label)
    (invariant : Fine → Prop)
    (keeps : ∀ state label next, invariant state →
      fine.step state label = some next → invariant next)
    (simulates : ∀ state label next, invariant state → fine.step state label = some next →
      coarse.run (abstract state) (outer label).toList = some (abstract next))
    {state final : Fine} {labels : List FineLabel} (initial : invariant state)
    (reached : fine.run state labels = some final) :
    coarse.run (abstract state) (labels.filterMap outer) = some (abstract final) := by
  induction labels generalizing state with
  | nil =>
      cases reached
      rfl
  | cons label labels ih =>
      obtain ⟨next, first, rest⟩ := (fine.run_cons ..).1 reached
      have here := simulates state label next initial first
      have later := ih (keeps state label next initial first) rest
      have split : (label :: labels).filterMap outer =
          (outer label).toList ++ labels.filterMap outer := by
        cases stands : outer label <;> simp [stands]
      rw [split]
      exact (coarse.run_append ..).2 ⟨abstract next, here, later⟩

/-- Forward simulation along a relation: where every step of the fine machine is answered by a block
of coarse steps that it stands for, every run of it is answered by the blocks one after another. -/
theorem run_of_simulation {Fine FineLabel : Type*} (fine : Machine Fine FineLabel)
    (coarse : Machine State Label) (related : Fine → State → Prop)
    (stands : FineLabel → List Label → Prop)
    (simulates : ∀ state label next abstract, related state abstract →
      fine.step state label = some next →
      ∃ block final, stands label block ∧ coarse.run abstract block = some final ∧
        related next final)
    {state final : Fine} {labels : List FineLabel} {abstract : State}
    (initial : related state abstract) (reached : fine.run state labels = some final) :
    ∃ blocks abstractFinal, List.Forall₂ stands labels blocks ∧
      coarse.run abstract blocks.flatten = some abstractFinal ∧ related final abstractFinal := by
  induction labels generalizing state abstract with
  | nil =>
      cases reached
      exact ⟨[], abstract, .nil, rfl, initial⟩
  | cons label labels ih =>
      have ⟨next, first, rest⟩ := (fine.run_cons ..).1 reached
      have ⟨block, middle, standsFor, here, nextRelated⟩ :=
        simulates state label next abstract initial first
      have ⟨blocks, abstractFinal, allStand, later, finalRelated⟩ := ih nextRelated rest
      refine ⟨block :: blocks, abstractFinal, .cons standsFor allStand, ?_, finalRelated⟩
      exact (coarse.run_append ..).2 ⟨middle, here, later⟩

theorem restrict_step_eq_some (machine : Machine State Label) (guard : State → Label → Bool)
    (state next : State) (label : Label) :
    (machine.restrict guard).step state label = some next ↔
      guard state label = true ∧ machine.step state label = some next := by
  simp only [restrict]
  split_ifs with admitted <;> simp [admitted]

theorem run_of_restrict (machine : Machine State Label) (guard : State → Label → Bool)
    {state final : State} {labels : List Label}
    (reached : (machine.restrict guard).run state labels = some final) :
    machine.run state labels = some final := by
  have admitted : ∀ state label next,
      (machine.restrict guard).step state label = some next →
        machine.run state [label] = some next := by
    intro state label next first
    have stepped := (machine.restrict_step_eq_some guard state next label).1 first
    exact (run_cons ..).2 ⟨next, stepped.2, rfl⟩
  have simulated := (machine.restrict guard).run_of_abstraction machine id some (fun _ => True)
    (fun _ _ _ _ _ => trivial) (fun state label next _ => admitted state label next) trivial
    reached
  rwa [List.filterMap_some] at simulated

/-- Every step of the run, seen with the states before and after it, satisfies `holds`. -/
def EachStep (machine : Machine State Label) (holds : State → Label → State → Prop) :
    State → List Label → Prop
  | _, [] => True
  | state, label :: labels =>
      ∀ next, machine.step state label = some next →
        holds state label next ∧ EachStep machine holds next labels

instance instDecidableEachStep (machine : Machine State Label)
    (holds : State → Label → State → Prop)
    [∀ state label next, Decidable (holds state label next)] :
    (state : State) → (labels : List Label) → Decidable (machine.EachStep holds state labels)
  | _, [] => isTrue trivial
  | state, label :: labels =>
      match stepped : machine.step state label with
      | none => isTrue fun next first => by
          rw [stepped] at first
          cases first
      | some next =>
          have := instDecidableEachStep machine holds next labels
          decidable_of_iff (holds state label next ∧ machine.EachStep holds next labels)
            (by simp [EachStep, stepped])

theorem each_step_of_forall (machine : Machine State Label)
    {holds : State → Label → State → Prop} (always : ∀ state label next, holds state label next)
    (state : State) (labels : List Label) : machine.EachStep holds state labels := by
  induction labels generalizing state with
  | nil => trivial
  | cons label labels ih => exact fun next _ => ⟨always state label next, ih next⟩

/-- The invariant rule for runs whose steps are known to satisfy a condition. -/
theorem run_invariant_of_each_step (machine : Machine State Label)
    (holds : State → Label → State → Prop) (invariant : State → Prop)
    (keeps : ∀ state label next, invariant state → holds state label next →
      machine.step state label = some next → invariant next)
    {state final : State} {labels : List Label}
    (initial : invariant state) (each : machine.EachStep holds state labels)
    (reached : machine.run state labels = some final) :
    invariant final := by
  induction labels generalizing state with
  | nil =>
      cases reached
      exact initial
  | cons label labels ih =>
      obtain ⟨next, first, rest⟩ := (machine.run_cons ..).1 reached
      obtain ⟨here, later⟩ := each next first
      exact ih (keeps state label next initial here first) later rest

/-- The induction rule of every safety proof: what one step keeps, a whole run keeps. -/
theorem run_invariant (machine : Machine State Label) (invariant : State → Prop)
    (keeps : ∀ state label next, invariant state →
      machine.step state label = some next → invariant next)
    {state final : State} {labels : List Label}
    (initial : invariant state) (reached : machine.run state labels = some final) :
    invariant final :=
  machine.run_invariant_of_each_step (fun _ _ _ => True) invariant
    (fun state label next valid _ stepped => keeps state label next valid stepped) initial
    (machine.each_step_of_forall (fun _ _ _ => trivial) state labels) reached

/-- Induction along the schedule: what holds of the empty run and stays true as a run is extended by
one step holds of every run. -/
theorem run_induction (machine : Machine State Label) (holds : List Label → State → Prop)
    {start : State} (initial : holds [] start)
    (keeps : ∀ labels state label next, holds labels state →
      machine.run start labels = some state → machine.step state label = some next →
      holds (labels ++ [label]) next)
    {labels : List Label} {final : State} (reached : machine.run start labels = some final) :
    holds labels final := by
  induction labels using List.reverseRecOn generalizing final with
  | nil =>
      cases reached
      exact initial
  | append_singleton labels label ih =>
      obtain ⟨middle, before, last⟩ := (machine.run_append ..).1 reached
      obtain ⟨next, stepped, same⟩ := (machine.run_cons ..).1 last
      cases same
      exact keeps labels middle label final (ih before) before stepped

/-- A property of the steps and the guard it is equivalent to, where the invariant the comparison
rests on survives only the steps the guard admits. -/
theorem each_step_iff_guard (machine : Machine State Label) (invariant : State → Prop)
    {holds guard : State → Label → State → Prop}
    (keeps : ∀ state label next, invariant state → guard state label next →
      machine.step state label = some next → invariant next)
    (same : ∀ state label next, invariant state → machine.step state label = some next →
      (holds state label next ↔ guard state label next))
    {state : State} (initial : invariant state) (labels : List Label) :
    machine.EachStep holds state labels ↔ machine.EachStep guard state labels := by
  induction labels generalizing state with
  | nil => exact Iff.rfl
  | cons label labels ih =>
      simp only [EachStep]
      constructor
      · intro each next stepped
        obtain ⟨here, later⟩ := each next stepped
        have admitted := (same state label next initial stepped).1 here
        exact ⟨admitted, (ih (keeps state label next initial admitted stepped)).1 later⟩
      · intro each next stepped
        obtain ⟨admitted, later⟩ := each next stepped
        have here := (same state label next initial stepped).2 admitted
        exact ⟨here, (ih (keeps state label next initial admitted stepped)).2 later⟩

/-- Two conditions that say the same in every state the invariant holds in. -/
theorem each_step_congr (machine : Machine State Label) (invariant : State → Prop)
    (keeps : ∀ state label next, invariant state →
      machine.step state label = some next → invariant next)
    {holds other : State → Label → State → Prop}
    (same : ∀ state label next, invariant state → machine.step state label = some next →
      (holds state label next ↔ other state label next))
    {state : State} (initial : invariant state) (labels : List Label) :
    machine.EachStep holds state labels ↔ machine.EachStep other state labels :=
  machine.each_step_iff_guard invariant
    (fun state label next valid _ stepped => keeps state label next valid stepped) same initial
    labels

section Progress

variable {machine : Machine State Label} {invariant ended : State → Prop} {works : Label → Prop}
  {rank : State → Nat}

/-- Where every step of a kind lowers the rank, no run of such steps is longer than the rank. -/
theorem run_length_le_rank
    (keeps : ∀ state label next, invariant state →
      machine.step state label = some next → invariant next)
    (lowers : ∀ state label next, invariant state → works label →
      machine.step state label = some next → rank next < rank state)
    {state final : State} {labels : List Label} (initial : invariant state)
    (working : ∀ label ∈ labels, works label) (reached : machine.run state labels = some final) :
    labels.length + rank final ≤ rank state := by
  induction labels generalizing state with
  | nil =>
      cases reached
      simp
  | cons label labels ih =>
      have ⟨next, first, rest⟩ := (machine.run_cons ..).1 reached
      have lower := lowers state label next initial (working label List.mem_cons_self) first
      have later := ih (keeps state label next initial first)
        (fun other member => working other (List.mem_cons_of_mem _ member)) rest
      rw [List.length_cons]
      omega

/-- Where a state that has not ended always has a step of the kind, some run of such steps ends. -/
theorem exists_run_to_end
    (keeps : ∀ state label next, invariant state →
      machine.step state label = some next → invariant next)
    (lowers : ∀ state label next, invariant state → works label →
      machine.step state label = some next → rank next < rank state)
    (enabled : ∀ state, invariant state → ¬ ended state →
      ∃ label next, works label ∧ machine.step state label = some next)
    (state : State) (initial : invariant state) :
    ∃ labels final, (∀ label ∈ labels, works label) ∧
      machine.run state labels = some final ∧ ended final := by
  induction bound : rank state using Nat.strongRecOn generalizing state with
  | ind size ih =>
      by_cases done : ended state
      · exact ⟨[], state, by simp, rfl, done⟩
      · have ⟨label, next, isWork, stepped⟩ := enabled state initial done
        have lower := lowers state label next initial isWork stepped
        have ⟨labels, final, working, reached, isEnded⟩ :=
          ih (rank next) (bound ▸ lower) next (keeps state label next initial stepped) rfl
        refine ⟨label :: labels, final, ?_, ?_, isEnded⟩
        · intro other member
          rcases List.mem_cons.mp member with same | later
          · rw [same]
            exact isWork
          · exact working other later
        · exact (machine.run_cons ..).2 ⟨next, stepped, reached⟩

end Progress

section History

variable {Note : Type*}

/-- The machine together with the notes its steps so far have left. -/
def withHistory (machine : Machine State Label) (record : State → Label → Option Note) :
    Machine (State × List Note) Label where
  step current label :=
    (machine.step current.1 label).map fun next =>
      (next, current.2 ++ (record current.1 label).toList)

theorem with_history_step (machine : Machine State Label) (record : State → Label → Option Note)
    (state : State) (notes : List Note) (label : Label) (next : State × List Note) :
    (machine.withHistory record).step (state, notes) label = some next ↔
      machine.step state label = some next.1 ∧
        next.2 = notes ++ (record state label).toList := by
  obtain ⟨final, history⟩ := next
  simp only [withHistory, Option.map_eq_some_iff, Prod.mk.injEq]
  constructor
  · rintro ⟨_, stepped, rfl, rfl⟩
    exact ⟨stepped, rfl⟩
  · rintro ⟨stepped, rfl⟩
    exact ⟨final, stepped, rfl, rfl⟩

end History

section Observing

variable (visible : Label → Bool) (observe : State → Observation)

/-- What an observer of the visible steps sees: one observation after each of them. -/
def trace (machine : Machine State Label) : State → List Label → List Observation
  | _, [] => []
  | state, label :: labels =>
      match machine.step state label with
      | none => []
      | some next =>
          if visible label then observe next :: trace machine next labels
          else trace machine next labels

theorem trace_map {Coarse : Type*} (machine : Machine State Label) (coarsen : Observation → Coarse)
    (state : State) (labels : List Label) :
    machine.trace visible (fun current => coarsen (observe current)) state labels =
      (machine.trace visible observe state labels).map coarsen := by
  induction labels generalizing state with
  | nil => rfl
  | cons label labels ih =>
      simp only [trace]
      cases machine.step state label with
      | none => rfl
      | some next =>
          cases visible label <;> simp [ih]

/-- Hidden steps leave the observation alone, and a visible step's effect on it, as well as
whether the step is enabled, is a function of the observation before it. -/
structure Unwinds (machine : Machine State Label) (invariant : State → Prop) : Prop where
  keeps : ∀ state label next, invariant state →
    machine.step state label = some next → invariant next
  hidden : ∀ state label next, invariant state → visible label = false →
    machine.step state label = some next → observe next = observe state
  consistent : ∀ left right label next, invariant left → invariant right →
    observe left = observe right → visible label = true →
    machine.step left label = some next →
    ∃ other, machine.step right label = some other ∧ observe other = observe next

variable {visible observe}

/-- Deleting the hidden steps of a run leaves a run with the same observations. -/
theorem run_without_hidden {machine : Machine State Label} {invariant : State → Prop}
    (unwinds : machine.Unwinds visible observe invariant)
    {left right final : State} {labels : List Label}
    (leftOk : invariant left) (rightOk : invariant right) (same : observe left = observe right)
    (reached : machine.run left labels = some final) :
    ∃ other, machine.run right (labels.filter visible) = some other ∧
      observe other = observe final ∧
      machine.trace visible observe right (labels.filter visible) =
        machine.trace visible observe left labels := by
  induction labels generalizing left right with
  | nil =>
      cases reached
      exact ⟨right, rfl, same.symm, rfl⟩
  | cons label labels ih =>
      obtain ⟨next, first, rest⟩ := (machine.run_cons ..).1 reached
      have nextOk := unwinds.keeps left label next leftOk first
      cases seen : visible label with
      | false =>
          have unchanged := unwinds.hidden left label next leftOk seen first
          obtain ⟨other, run, final_eq, trace_eq⟩ := ih nextOk rightOk (unchanged.trans same) rest
          refine ⟨other, ?_, final_eq, ?_⟩
          · simpa only [List.filter_cons, seen, Bool.false_eq_true, if_false] using run
          · simpa only [List.filter_cons, seen, trace, first, Bool.false_eq_true, if_false]
              using trace_eq
      | true =>
          obtain ⟨mirror, step, mirror_eq⟩ :=
            unwinds.consistent left right label next leftOk rightOk same seen first
          obtain ⟨other, run, final_eq, trace_eq⟩ :=
            ih nextOk (unwinds.keeps right label mirror rightOk step) mirror_eq.symm rest
          refine ⟨other, ?_, final_eq, ?_⟩
          · simp only [List.filter_cons, seen, if_true, run_cons]
            exact ⟨mirror, step, run⟩
          · simp only [List.filter_cons, seen, if_true, trace, first, step, mirror_eq, trace_eq]

/-- Two runs that agree on their visible labels give the observer the same sequence. -/
theorem traces_agree {machine : Machine State Label} {invariant : State → Prop}
    (unwinds : machine.Unwinds visible observe invariant)
    {start leftFinal rightFinal : State} {left right : List Label}
    (startOk : invariant start)
    (leftRun : machine.run start left = some leftFinal)
    (rightRun : machine.run start right = some rightFinal)
    (agree : left.filter visible = right.filter visible) :
    machine.trace visible observe start left = machine.trace visible observe start right ∧
      observe leftFinal = observe rightFinal := by
  obtain ⟨leftMirror, leftMirrorRun, leftFinalEq, leftTrace⟩ :=
    run_without_hidden unwinds startOk startOk rfl leftRun
  obtain ⟨rightMirror, rightMirrorRun, rightFinalEq, rightTrace⟩ :=
    run_without_hidden unwinds startOk startOk rfl rightRun
  rw [agree] at leftMirrorRun leftTrace
  have mirrors : leftMirror = rightMirror := by
    rw [leftMirrorRun] at rightMirrorRun
    exact Option.some.inj rightMirrorRun
  refine ⟨leftTrace.symm.trans rightTrace, ?_⟩
  rw [← leftFinalEq, ← rightFinalEq, mirrors]

end Observing

end Machine

end AgentHarness.Library
