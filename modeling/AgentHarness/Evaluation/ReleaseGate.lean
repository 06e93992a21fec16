import AgentHarness.Library.PythonValue
import Mathlib.Data.List.Forall2
import Mathlib.Data.List.Perm.Subperm

/-!
# The release gate

`summarize_results` over the rows of an experiment. Of several feedback entries with one key the map
of scores keeps the last, so the gate looks at one entry only, and which one depends on their order.
-/

namespace AgentHarness.Evaluation

open AgentHarness.Library

set_option autoImplicit false

def requiredScores : List String := ["tool_policy", "approval_policy", "response_contract"]

structure GateSummary where
  total : Nat
  failed : Nat
  skipped : Nat
  deriving DecidableEq, Repr

def GateSummary.passed (summary : GateSummary) : Bool :=
  summary.total > 0 && summary.failed == 0 && summary.skipped == 0

structure Feedback where
  key : String
  score : Json
  deriving DecidableEq, Repr

structure Run where
  outputs : Option (List (String × Json))
  error : Option String
  deriving DecidableEq, Repr

structure EvaluationResults where
  results : Option (List Feedback)
  deriving DecidableEq, Repr

structure Row where
  run : Option Run
  evaluationResults : Option EvaluationResults
  deriving DecidableEq, Repr

def isOne (score : Json) : Bool := Json.equals score (.int 1)

namespace Row

def output (row : Row) : List (String × Json) := (row.run.bind Run.outputs).getD []

def feedback (row : Row) : List Feedback :=
  (row.evaluationResults.bind EvaluationResults.results).getD []

def scores (row : Row) : List (String × Json) :=
  row.feedback.map fun entry => (entry.key, entry.score)

def skipped (row : Row) : Bool := (Json.lookup "skipped" row.output).any Json.truthy

/-- The condition under which a row that was not skipped counts as failed. -/
def failed (row : Row) : Bool :=
  row.run.isNone || (row.run.bind Run.error).any (· ≠ "") ||
    Json.lookup "execution_status" row.output != some (.str "completed") ||
    requiredScores.any fun key => !(Json.lookup key row.scores).any isOne

end Row

/-- The body of the loop. -/
def summarizeRow (summary : GateSummary) (row : Row) : GateSummary :=
  if row.skipped then { summary with total := summary.total + 1, skipped := summary.skipped + 1 }
  else if row.failed then { summary with total := summary.total + 1, failed := summary.failed + 1 }
  else { summary with total := summary.total + 1 }

def summarizeResults (rows : List Row) : GateSummary := rows.foldl summarizeRow ⟨0, 0, 0⟩

/-! ## What the fold counts -/

theorem foldl_summarize_row (rows : List Row) (summary : GateSummary) :
    rows.foldl summarizeRow summary =
      ⟨summary.total + rows.length,
        summary.failed + rows.countP fun row => !row.skipped && row.failed,
        summary.skipped + rows.countP Row.skipped⟩ := by
  induction rows generalizing summary with
  | nil => rfl
  | cons row rows ih =>
      rw [List.foldl_cons, ih, List.countP_cons, List.countP_cons, List.length_cons]
      cases skipped : row.skipped with
      | true =>
          simp only [summarizeRow, skipped, if_true, Bool.not_true, Bool.false_and,
            Bool.false_eq_true, if_false, GateSummary.mk.injEq]
          omega
      | false =>
          cases failed : row.failed <;>
            simp only [summarizeRow, skipped, failed, if_true, Bool.not_false, Bool.true_and,
              Bool.false_eq_true, if_false, GateSummary.mk.injEq] <;>
            omega

namespace Row

/-- The row does not close the gate. -/
def Open (row : Row) : Prop := row.skipped = false ∧ row.failed = false

end Row

theorem passed_iff (rows : List Row) :
    (summarizeResults rows).passed = true ↔ rows ≠ [] ∧ ∀ row ∈ rows, row.Open := by
  rw [summarizeResults, foldl_summarize_row]
  simp only [GateSummary.passed, Nat.zero_add, Bool.and_eq_true, decide_eq_true_eq, beq_iff_eq,
    List.countP_eq_zero, gt_iff_lt, List.length_pos_iff, ne_eq, and_assoc]
  apply and_congr_right
  intro _
  constructor
  · rintro ⟨working, running⟩ row member
    have skipped : row.skipped = false := by simpa using running row member
    exact ⟨skipped, by simpa [skipped] using working row member⟩
  · intro opened
    constructor
    · intro row member
      simp [(opened row member).1, (opened row member).2]
    · intro row member
      simp [(opened row member).1]

/-! ## Rows and their feedback -/

/-- A run without error whose outputs are not skipped and completed. -/
def Row.Completes (row : Row) : Prop :=
  (∃ run, row.run = some run ∧ (run.error = none ∨ run.error = some "")) ∧
    row.skipped = false ∧ Json.lookup "execution_status" row.output = some (.str "completed")

namespace Row

def Accepted (row : Row) : Prop :=
  row.Completes ∧ ∀ key ∈ requiredScores,
    (∃ entry ∈ row.feedback, entry.key = key) ∧
    ∀ entry ∈ row.feedback, entry.key = key → isOne entry.score = true

/-- In no order of its feedback does the row leave the gate open. -/
def Hopeless (row : Row) : Prop :=
  ¬ row.Completes ∨ ∃ key ∈ requiredScores,
    ∀ entry ∈ row.feedback, entry.key = key → isOne entry.score = false

/-- One required key has both an entry with score 1 and one with another score. -/
def Mixed (row : Row) : Prop :=
  ∃ key ∈ requiredScores,
    (∃ entry ∈ row.feedback, entry.key = key ∧ isOne entry.score = true) ∧
    ∃ entry ∈ row.feedback, entry.key = key ∧ isOne entry.score = false

/-- The same row with its feedback in another order. -/
def Reordered (row other : Row) : Prop := row.run = other.run ∧ row.feedback.Perm other.feedback

section Rows

variable {row other : Row}

theorem open_iff :
    row.Open ↔ row.Completes ∧
      ∀ key ∈ requiredScores, (Json.lookup key row.scores).any isOne = true := by
  have ran : (row.run.isNone || (row.run.bind Run.error).any (· ≠ "")) = false ↔
      ∃ run, row.run = some run ∧ (run.error = none ∨ run.error = some "") := by
    cases row.run with
    | none => simp
    | some run => cases error : run.error <;> simp [error]
  simp only [Open, Completes, failed, Bool.or_eq_false_iff, bne_eq_false_iff_eq,
    List.any_eq_false, Bool.not_eq_true', Bool.not_eq_false, ← ran]
  tauto

theorem mem_of_lookup {key : String} {score : Json} {entries : List Feedback}
    (found : Json.lookup key (entries.map fun entry => (entry.key, entry.score)) = some score) :
    ⟨key, score⟩ ∈ entries := by
  have ⟨entry, member, same⟩ := List.mem_map.mp (Json.mem_of_lookup found)
  cases same
  exact member

theorem lookup_of_mem {key : String} {entries : List Feedback} {entry : Feedback}
    (member : entry ∈ entries) (named : entry.key = key) :
    ∃ score, Json.lookup key (entries.map fun entry => (entry.key, entry.score)) = some score := by
  apply Option.ne_none_iff_exists'.mp
  intro absent
  apply Json.lookup_eq_none_iff.mp absent
  rw [List.map_map]
  exact List.mem_map.mpr ⟨entry, member, named⟩

theorem open_of_accepted (accepted : row.Accepted) : row.Open := by
  apply open_iff.mpr
  apply And.intro accepted.1
  intro key required
  have ⟨⟨entry, member, named⟩, ones⟩ := accepted.2 key required
  have ⟨score, found⟩ := lookup_of_mem member named
  rw [scores, found]
  exact ones _ (mem_of_lookup found) rfl

theorem accepted_of_open (unmixed : ¬ row.Mixed) (opened : row.Open) : row.Accepted := by
  have ⟨completes, ones⟩ := open_iff.mp opened
  apply And.intro completes
  intro key required
  have ⟨score, found, one⟩ := (Option.any_eq_true _ _).mp (ones key required)
  have member := mem_of_lookup found
  apply And.intro ⟨_, member, rfl⟩
  intro entry listed named
  by_contra other
  have other : isOne entry.score = false := by simpa using other
  exact unmixed ⟨key, required, ⟨_, member, rfl, one⟩, entry, listed, named, other⟩

theorem not_open_of_hopeless (hopeless : row.Hopeless) : ¬ row.Open := by
  intro opened
  have ⟨completes, ones⟩ := open_iff.mp opened
  rcases hopeless with incomplete | ⟨key, required, others⟩
  · exact incomplete completes
  · have ⟨score, found, one⟩ := (Option.any_eq_true _ _).mp (ones key required)
    have other := others _ (mem_of_lookup found) rfl
    rw [one] at other
    cases other

theorem not_accepted_of_mixed (mixed : row.Mixed) : ¬ row.Accepted := by
  intro accepted
  have ⟨key, required, _, entry, member, named, other⟩ := mixed
  rw [(accepted.2 key required).2 entry member named] at other
  cases other

theorem Reordered.completes (same : Reordered row other) : row.Completes ↔ other.Completes := by
  have output : row.output = other.output := by rw [Row.output, same.1, ← Row.output]
  rw [Completes, Completes, skipped, skipped, same.1, output]

theorem Reordered.accepted (same : Reordered row other) : row.Accepted ↔ other.Accepted := by
  simp only [Accepted, same.completes, same.2.mem_iff]

theorem Reordered.hopeless (same : Reordered row other) : row.Hopeless ↔ other.Hopeless := by
  simp only [Hopeless, same.completes, same.2.mem_iff]

theorem Reordered.mixed (same : Reordered row other) : row.Mixed ↔ other.Mixed := by
  simp only [Mixed, same.2.mem_iff]

/-- The row with the entries of score 1 last. -/
def onesLast (row : Row) : Row where
  run := row.run
  evaluationResults := some ⟨some (row.feedback.filter (fun entry => !isOne entry.score) ++
    row.feedback.filter fun entry => isOne entry.score)⟩

theorem reordered_ones_last (row : Row) : Reordered row row.onesLast := by
  apply And.intro rfl
  have split := List.filter_append_perm (fun entry => isOne entry.score) row.feedback
  exact (List.perm_append_comm.trans split).symm

theorem open_ones_last (hope : ¬ row.Hopeless) : row.onesLast.Open := by
  have completes : row.Completes := by
    by_contra incomplete
    exact hope (.inl incomplete)
  apply open_iff.mpr
  apply And.intro ((reordered_ones_last row).completes.mp completes)
  intro key required
  have ⟨entry, member, named, one⟩ :
      ∃ entry ∈ row.feedback, entry.key = key ∧ isOne entry.score = true := by
    by_contra absent
    apply hope
    right
    apply Exists.intro key
    apply And.intro required
    intro entry member named
    by_contra one
    exact absent ⟨entry, member, named, by simpa using one⟩
  have kept : entry ∈ row.feedback.filter fun entry => isOne entry.score :=
    List.mem_filter.mpr ⟨member, one⟩
  have ⟨score, found⟩ := lookup_of_mem kept named
  have last : Json.lookup key row.onesLast.scores = some score := by
    rw [scores, onesLast, feedback]
    simp only [Option.bind_some, Option.getD_some, List.map_append]
    rw [Json.lookup_append, found, Option.some_or]
  rw [last]
  exact (List.mem_filter.mp (mem_of_lookup found)).2

end Rows

end Row

/-! ## The verdict -/

/-- The same rows in another order, each with its feedback in another order. -/
def Reordered (rows reordered : List Row) : Prop :=
  ∃ shuffled, rows.Perm shuffled ∧ List.Forall₂ Row.Reordered shuffled reordered

theorem reordered_forall {rows reordered : List Row} {property : Row → Prop}
    (same : Reordered rows reordered)
    (invariant : ∀ row other, Row.Reordered row other → (property row ↔ property other)) :
    (∀ row ∈ reordered, property row) ↔ ∀ row ∈ rows, property row := by
  have ⟨shuffled, perm, pairs⟩ := same
  have between : (∀ row ∈ shuffled, property row) ↔ ∀ row ∈ reordered, property row := by
    clear perm same
    induction pairs with
    | nil => rfl
    | cons first _ ih =>
        rw [List.forall_mem_cons, List.forall_mem_cons, ih, invariant _ _ first]
  rw [← between]
  simp only [perm.mem_iff]

theorem reordered_nil_iff {rows reordered : List Row} (same : Reordered rows reordered) :
    reordered = [] ↔ rows = [] := by
  have ⟨shuffled, perm, pairs⟩ := same
  rw [← List.length_eq_zero_iff, ← List.length_eq_zero_iff, perm.length_eq, pairs.length_eq]

/-- The gate on these rows, in any order, is the strict one, and more rows do not open it. -/
def GateExact (rows : List Row) : Prop :=
  (∀ reordered, Reordered rows reordered →
    ((summarizeResults reordered).passed = true ↔ rows ≠ [] ∧ ∀ row ∈ rows, row.Accepted)) ∧
  ∀ more, rows.Subperm more → rows ≠ [] → (summarizeResults rows).passed = false →
    (summarizeResults more).passed = false

theorem passed_false_of_more {rows more : List Row} (added : rows.Subperm more) (nonempty : rows ≠ [])
    (closed : (summarizeResults rows).passed = false) :
    (summarizeResults more).passed = false := by
  by_contra opened
  have opened : (summarizeResults more).passed = true := by simpa using opened
  have rowsOpen := ((passed_iff more).mp opened).2
  have passed := (passed_iff rows).mpr ⟨nonempty, fun row member => rowsOpen row (added.subset member)⟩
  rw [closed] at passed
  cases passed

theorem passed_reordered_of_pure {rows reordered : List Row} (same : Reordered rows reordered)
    (unmixed : ∀ row ∈ rows, ¬ row.Mixed) :
    (summarizeResults reordered).passed = true ↔ rows ≠ [] ∧ ∀ row ∈ rows, row.Accepted := by
  rw [passed_iff, Ne, reordered_nil_iff same]
  apply and_congr_right
  intro _
  rw [← reordered_forall same fun _ _ pair => pair.accepted]
  have unmixed : ∀ row ∈ reordered, ¬ row.Mixed :=
    (reordered_forall same fun _ _ pair => not_congr pair.mixed).mpr unmixed
  constructor
  · intro opened row member
    exact Row.accepted_of_open (unmixed row member) (opened row member)
  · intro accepted row member
    exact Row.open_of_accepted (accepted row member)

theorem not_passed_reordered_of_hopeless {rows reordered : List Row} {row : Row}
    (same : Reordered rows reordered) (member : row ∈ rows) (hopeless : row.Hopeless) :
    ¬ (summarizeResults reordered).passed = true := by
  intro passed
  have opened := ((passed_iff reordered).mp passed).2
  have hope : ∀ row ∈ rows, ¬ row.Hopeless :=
    (reordered_forall same fun _ _ pair => not_congr pair.hopeless).mp
      fun row member hopeless => Row.not_open_of_hopeless hopeless (opened row member)
  exact hope row member hopeless

theorem reordered_ones_last (rows : List Row) : Reordered rows (rows.map Row.onesLast) := by
  apply Exists.intro rows
  apply And.intro (List.Perm.refl rows)
  rw [List.forall₂_map_right_iff]
  exact List.forall₂_same.mpr fun row _ => Row.reordered_ones_last row

/-- The gate is exact for no rows, for rows it closes on in any order, and where no required key of
a row has both a score of 1 and another score. -/
theorem gate_exact_iff (rows : List Row) :
    GateExact rows ↔
      rows = [] ∨ (∃ row ∈ rows, row.Hopeless) ∨ ∀ row ∈ rows, ¬ row.Mixed := by
  constructor
  · intro gate
    by_contra excluded
    simp only [not_or, not_exists, not_and, not_forall, not_not] at excluded
    have ⟨nonempty, hope, row, member, mixed⟩ := excluded
    have passed : (summarizeResults (rows.map Row.onesLast)).passed = true := by
      apply (passed_iff _).mpr
      constructor
      · simpa using nonempty
      · intro row member
        have ⟨original, listed, same⟩ := List.mem_map.mp member
        rw [← same]
        exact Row.open_ones_last (hope original listed)
    have accepted := ((gate.1 _ (reordered_ones_last rows)).mp passed).2
    exact Row.not_accepted_of_mixed mixed (accepted row member)
  · intro condition
    constructor
    · intro reordered same
      rcases condition with empty | ⟨row, member, hopeless⟩ | unmixed
      · apply passed_reordered_of_pure same
        simp [empty]
      · apply iff_of_false (not_passed_reordered_of_hopeless same member hopeless)
        rintro ⟨_, accepted⟩
        exact Row.not_open_of_hopeless hopeless (Row.open_of_accepted (accepted row member))
      · exact passed_reordered_of_pure same unmixed
    · intro more added nonempty closed
      exact passed_false_of_more added nonempty closed

/-- A row with two scores for one key: the gate takes the last, so their order decides. -/
def scoredTwice (first second : Int) : Row where
  run := some ⟨some [("execution_status", .str "completed")], none⟩
  evaluationResults := some ⟨some [⟨"tool_policy", .int first⟩, ⟨"tool_policy", .int second⟩,
    ⟨"approval_policy", .int 1⟩, ⟨"response_contract", .int 1⟩]⟩

theorem gate_opens_on_zero :
    (summarizeResults [scoredTwice 0 1]).passed = true ∧
    (summarizeResults [scoredTwice 1 0]).passed = false ∧
    ¬ (∀ rows : List Row,
      (summarizeResults rows).passed = true ↔ rows ≠ [] ∧ ∀ row ∈ rows, row.Accepted) := by
  have opened : (summarizeResults [scoredTwice 0 1]).passed = true := by decide +kernel
  refine ⟨opened, by decide +kernel, ?_⟩
  intro gate
  have accepted := ((gate [scoredTwice 0 1]).mp opened).2 _ List.mem_cons_self
  have one := (accepted.2 "tool_policy" (by simp [requiredScores])).2 ⟨"tool_policy", .int 0⟩
    (by simp [Row.feedback, scoredTwice]) rfl
  revert one
  decide +kernel

end AgentHarness.Evaluation
