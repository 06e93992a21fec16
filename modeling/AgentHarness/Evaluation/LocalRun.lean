import AgentHarness.Evaluation.Evaluators
import AgentHarness.Evaluation.ReleaseGate

/-!
# The local runner

`evals.run.main` over its cases, and the rows an experiment makes of the same outcomes. The runner
stops at the first thing that goes wrong with a case, the gate collects what there is: they agree
since every way to go wrong costs a row its error, its status or one of its scores.
-/

namespace AgentHarness.Evaluation

open AgentHarness.Library

set_option autoImplicit false

/-- Of a case the runner reads the id it reports and the expectation, which may be missing. -/
structure Case where
  id : Json
  expect : Option Json
  deriving DecidableEq, Repr

/-- What the target returns or raises. -/
inductive Outcome where
  | output (entries : Mapping)
  | raised (error : String)
  deriving DecidableEq, Repr

inductive Status where
  | skipped
  | passed
  | failed
  | error
  deriving DecidableEq, Repr

def Status.name : Status → String
  | .skipped => "SKIPPED"
  | .passed => "PASSED"
  | .failed => "FAILED"
  | .error => "ERROR"

section Runs

variable (interpreter : Interpreter)

def evaluators : List (Mapping → Mapping → Option EvaluatorResult) :=
  [toolPolicyEvaluator interpreter, approvalEvaluator, responseContractEvaluator interpreter]

/-! ## The runner -/

/-- The body of the loop. -/
def caseStatus (item : Case) (outcome : Outcome) : Status :=
  match outcome with
  | .raised _ => .error
  | .output output =>
      if (Json.lookup "skipped" output).any Json.truthy then .skipped
      else
        match item.expect with
        | none => .error
        | some expect =>
            match (evaluators interpreter).mapM fun evaluator =>
              evaluator output [("expect", expect)] with
            | none => .error
            | some results =>
                if results.all fun result => isOne result.score then .passed else .failed

structure Report where
  lines : List (String × Json)
  passed : Nat
  failed : Nat
  skipped : Nat
  deriving DecidableEq, Repr

namespace Report

def empty : Report := ⟨[], 0, 0, 0⟩

def add (report : Report) (item : Case) (status : Status) : Report where
  lines := report.lines ++ [(status.name, item.id)]
  passed := if status = .passed then report.passed + 1 else report.passed
  failed := if status = .failed ∨ status = .error then report.failed + 1 else report.failed
  skipped := if status = .skipped then report.skipped + 1 else report.skipped

end Report

def reportOf (runs : List (Case × Outcome)) : Report :=
  runs.foldl (fun report run => report.add run.1 (caseStatus interpreter run.1 run.2)) .empty

/-- The exit code of `main`. -/
def main (runs : List (Case × Outcome)) : Nat :=
  let report := reportOf interpreter runs
  if runs ≠ [] ∧ report.failed = 0 ∧ report.skipped = 0 then 0 else 1

/-! ## The experiment -/

def referenceOf (item : Case) : Mapping :=
  match item.expect with
  | some expect => [("expect", expect)]
  | none => []

/-- An evaluator that raises leaves no entry. -/
def feedbackOf (item : Case) (output : Mapping) : List Feedback :=
  (evaluators interpreter).filterMap fun evaluator =>
    (evaluator output (referenceOf item)).map fun result => ⟨result.key, result.score⟩

/-- For a run without outputs the evaluators read an empty mapping. -/
def rowOf (item : Case) (outcome : Outcome) : Row :=
  match outcome with
  | .output output => ⟨some ⟨some output, none⟩, some ⟨some (feedbackOf interpreter item output)⟩⟩
  | .raised error => ⟨some ⟨none, some error⟩, some ⟨some (feedbackOf interpreter item [])⟩⟩

/-! ## What the runner counts -/

theorem foldl_add (runs : List (Case × Outcome)) (report : Report) :
    let final := runs.foldl
      (fun report run => report.add run.1 (caseStatus interpreter run.1 run.2)) report
    final.failed = report.failed + runs.countP (fun run =>
        caseStatus interpreter run.1 run.2 = .failed ∨
          caseStatus interpreter run.1 run.2 = .error) ∧
      final.skipped = report.skipped + runs.countP fun run =>
        caseStatus interpreter run.1 run.2 = .skipped := by
  induction runs generalizing report with
  | nil => exact ⟨rfl, rfl⟩
  | cons run runs ih =>
      have later := ih (report.add run.1 (caseStatus interpreter run.1 run.2))
      simp only [List.foldl_cons, List.countP_cons, decide_eq_true_eq]
      apply And.intro
      · rw [later.1, Report.add]
        dsimp only
        split <;> omega
      · rw [later.2, Report.add]
        dsimp only
        split <;> omega

theorem main_eq_zero_iff (runs : List (Case × Outcome)) :
    main interpreter runs = 0 ↔
      runs ≠ [] ∧ ∀ run ∈ runs, caseStatus interpreter run.1 run.2 = .passed := by
  have ⟨failed, skipped⟩ := foldl_add interpreter runs .empty
  simp only [Report.empty, Nat.zero_add] at failed skipped
  have clean : main interpreter runs = 0 ↔ runs ≠ [] ∧
      (reportOf interpreter runs).failed = 0 ∧ (reportOf interpreter runs).skipped = 0 := by
    simp only [main]
    split <;> simp [*]
  rw [clean]
  apply and_congr_right
  intro _
  rw [reportOf, Report.empty, failed, skipped, List.countP_eq_zero, List.countP_eq_zero,
    ← forall₂_and]
  apply forall₂_congr
  intro run _
  cases caseStatus interpreter run.1 run.2 <;> simp

/-! ## One case -/

/-- The scores of a row, which has none of an evaluator that raised. -/
theorem lookup_scores (item : Case) (output : Mapping) :
    let row := rowOf interpreter item (.output output)
    Json.lookup "tool_policy" row.scores =
        (toolPolicyEvaluator interpreter output (referenceOf item)).map EvaluatorResult.score ∧
      Json.lookup "approval_policy" row.scores =
        (approvalEvaluator output (referenceOf item)).map EvaluatorResult.score ∧
      Json.lookup "response_contract" row.scores =
        (responseContractEvaluator interpreter output (referenceOf item)).map
          EvaluatorResult.score := by
  have toolNamed := (tool_policy_guarded interpreter).named output (referenceOf item)
  have approvalNamed := approval_guarded.named output (referenceOf item)
  have responseNamed := (response_contract_guarded interpreter).named output (referenceOf item)
  simp only [rowOf, Row.scores, Row.feedback, feedbackOf, evaluators]
  cases tool : toolPolicyEvaluator interpreter output (referenceOf item) <;>
    cases approval : approvalEvaluator output (referenceOf item) <;>
      cases response : responseContractEvaluator interpreter output (referenceOf item) <;>
        simp_all [Json.lookup]

theorem not_one_null : isOne .null = false := by decide +kernel

theorem not_one_zero : isOne (.int 0) = false := by decide +kernel

/-- A score of 1 is given behind the guard only. -/
theorem Guarded.unguarded {key : String} {evaluator : Mapping → Mapping → Option EvaluatorResult}
    (sound : Guarded key evaluator) {outputs reference : Mapping}
    (one : ((evaluator outputs reference).map EvaluatorResult.score).any isOne = true) :
    executionGuard key outputs reference = none := by
  cases isEarly : executionGuard key outputs reference with
  | none => rfl
  | some result =>
      rw [sound.guarded outputs reference result isEarly, Option.map_some, Option.any_some] at one
      rcases (execution_guard_key isEarly).2 with isNull | isZero
      · rw [isNull, not_one_null] at one
        cases one
      · rw [isZero, not_one_zero] at one
        cases one

theorem map_all_iff {Element Result : Type} (evaluate : Element → Option Result)
    (test : Result → Bool) (elements : List Element) :
    (∃ results, elements.mapM evaluate = some results ∧ results.all test = true) ↔
      ∀ element ∈ elements, (evaluate element).any test = true := by
  induction elements with
  | nil => simp
  | cons element elements ih =>
      rw [List.forall_mem_cons, ← ih, List.mapM_cons]
      cases evaluate element with
      | none => simp
      | some result => cases elements.mapM evaluate <;> simp

/-- What it takes to pass: no skip, an expectation, and a score of 1 from every evaluator. -/
theorem status_passed_iff (item : Case) (output : Mapping) :
    caseStatus interpreter item (.output output) = .passed ↔
      (Json.lookup "skipped" output).any Json.truthy = false ∧ item.expect ≠ none ∧
        ∀ evaluator ∈ evaluators interpreter,
          ((evaluator output (referenceOf item)).map EvaluatorResult.score).any isOne = true := by
  simp only [caseStatus, Option.any_map]
  cases skipped : (Json.lookup "skipped" output).any Json.truthy with
  | true => simp
  | false =>
      cases expect : item.expect with
      | none => simp
      | some expected =>
          have reference : referenceOf item = [("expect", expected)] := by
            simp only [referenceOf, expect]
          have scored := map_all_iff (fun evaluator => evaluator output [("expect", expected)])
            (fun result : EvaluatorResult => isOne result.score) (evaluators interpreter)
          rw [reference]
          simp only [← scored]
          cases results : (evaluators interpreter).mapM fun evaluator =>
              evaluator output [("expect", expected)] with
          | none => simp
          | some results => simp

theorem case_passed_iff (item : Case) (outcome : Outcome) :
    caseStatus interpreter item outcome = .passed ↔ (rowOf interpreter item outcome).Open := by
  rw [Row.open_iff]
  cases outcome with
  | raised error =>
      simp [caseStatus, rowOf, Row.Completes, Row.output, Json.lookup]
  | output output =>
      obtain ⟨tool, approval, response⟩ := lookup_scores interpreter item output
      rw [status_passed_iff]
      simp only [requiredScores, evaluators, List.forall_mem_cons, List.not_mem_nil,
        IsEmpty.forall_iff, implies_true, and_true, tool, approval, response]
      constructor
      · rintro ⟨running, _, toolOne, others⟩
        have unguarded := (tool_policy_guarded interpreter).unguarded toolOne
        have completed := (execution_guard_none unguarded).2.1
        have ran : ∃ run, (rowOf interpreter item (.output output)).run = some run ∧
            (run.error = none ∨ run.error = some "") := ⟨_, rfl, .inl rfl⟩
        exact ⟨⟨ran, running, completed⟩, toolOne, others⟩
      · rintro ⟨completes, toolOne, others⟩
        have unguarded := (tool_policy_guarded interpreter).unguarded toolOne
        obtain ⟨entries, found⟩ := (execution_guard_none unguarded).2.2
        have expected : item.expect ≠ none := by
          intro missing
          rw [referenceOf, missing] at found
          cases found
        exact ⟨completes.2.1, expected, toolOne, others⟩

end Runs

/-- The local runner and the release gate come to one verdict on the same outcomes. -/
theorem local_run_agrees (interpreter : Interpreter) (runs : List (Case × Outcome)) :
    main interpreter runs = 0 ↔
      (summarizeResults (runs.map fun run => rowOf interpreter run.1 run.2)).passed = true := by
  rw [main_eq_zero_iff, passed_iff, List.forall_mem_map]
  simp only [case_passed_iff, Ne, List.map_eq_nil_iff]

end AgentHarness.Evaluation
