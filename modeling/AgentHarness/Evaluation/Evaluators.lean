import AgentHarness.Events.CodexEventMapper
import AgentHarness.Library.PythonInt
import AgentHarness.Library.PythonValue

/-!
# The deterministic evaluators

`tool_policy_evaluator`, `approval_evaluator` and `response_contract_evaluator` on outputs and
expectations of any shape: nothing but the guard looks at the shape before a value is used.
-/

namespace AgentHarness.Evaluation

open AgentHarness.Library
open AgentHarness.Events.CodexEventMapper (hashable)

set_option autoImplicit false

/-- The interpreter: `str` of a value that is no string, none where it raises, and the limit for the
digits of an `int`. -/
structure Interpreter where
  str : Json → Option String
  digits : Nat

abbrev Mapping := List (String × Json)

/-- What an evaluator returns. -/
structure EvaluatorResult where
  key : String
  score : Json
  comment : String
  deriving DecidableEq, Repr

/-! ## Values of Python

Where an operation raises, it has no result. -/

def Interpreter.text (interpreter : Interpreter) : Json → Option String
  | .str text => some text
  | value => interpreter.str value

/-- `int(value)`. -/
def Interpreter.int (interpreter : Interpreter) : Json → Option Int
  | .bool value => some (if value then 1 else 0)
  | .int value => some value
  | .float value =>
      match value.value with
      | .units count => some (count.tdiv PythonFloat.one)
      | _ => none
  | .str text => PythonInt.parse interpreter.digits 10 text.toList
  | _ => none

/-- `value < bound`. -/
def lessThan (value : Json) (bound : Int) : Option Bool :=
  match value with
  | .bool value => some ((if value then 1 else 0) < bound)
  | .int value => some (value < bound)
  | .float value =>
      match value.value with
      | .nan => some false
      | .infinity negative => some negative
      | .units count => some (count < bound * PythonFloat.one)
  | _ => none

/-- `value > bound`. -/
def greaterThan (value : Json) (bound : Int) : Option Bool :=
  match value with
  | .bool value => some (bound < if value then 1 else 0)
  | .int value => some (bound < value)
  | .float value =>
      match value.value with
      | .nan => some false
      | .infinity negative => some (!negative)
      | .units count => some (bound * PythonFloat.one < count)
  | _ => none

/-- What a `for` goes through. -/
def iterate : Json → Option (List Json)
  | .arr items => some items
  | .str text => some (text.toList.map fun c => .str (String.singleton c))
  | .obj entries => some (entries.map fun entry => .str entry.1)
  | _ => none

def items : Json → Option Mapping
  | .obj entries => some entries
  | _ => none

/-- `text in answer`. -/
def textIn (answer : String) : Json → Option Bool
  | .str text => some (answer.toList.tails.any fun rest => text.toList.isPrefixOf rest)
  | _ => none

inductive Counter where
  | elements (items : List Json)
  | counts (entries : Mapping)
  deriving DecidableEq, Repr

namespace Counter

/-- `Counter(value)`: the values of a mapping are taken for counts. -/
def of : Json → Option Counter
  | .null => some (.elements [])
  | .obj entries => some (.counts entries)
  | value => (iterate value).bind fun items =>
      if items.all hashable then some (.elements items) else none

def get (counter : Counter) (key : Json) : Option Json :=
  if hashable key then
    match counter, key with
    | .elements items, key => some (.int (items.countP (Json.equals key)))
    | .counts entries, .str name => some ((Json.lookup name entries).getD (.int 0))
    | .counts _, _ => some (.int 0)
  else none

end Counter

/-! ## The evaluators -/

/-- A result that ends the evaluator early. -/
def executionGuard (key : String) (outputs reference : Mapping) : Option EvaluatorResult :=
  if (Json.lookup "skipped" outputs).any Json.truthy then
    some ⟨key, .null, "SKIPPED: fixture unavailable"⟩
  else if Json.lookup "execution_status" outputs ≠ some (.str "completed") then
    some ⟨key, .int 0, "Execution did not complete successfully"⟩
  else
    match Json.lookup "expect" reference with
    | some (.obj _) => none
    | _ => some ⟨key, .int 0, "Missing expectation contract"⟩

/-- The guard has made sure that this is an object. -/
def expectation (reference : Mapping) : Mapping :=
  match Json.lookup "expect" reference with
  | some (.obj entries) => entries
  | _ => []

def verdict (key success : String) (failures : List String) : EvaluatorResult where
  key := key
  score := if failures = [] then .int 1 else .int 0
  comment := if failures = [] then success else "；".intercalate failures

section Evaluators

variable (interpreter : Interpreter)

/-- The loop over `required_tools`. -/
def requiredFailures (counts : Counter) : Mapping → Option (List String)
  | [] => some []
  | (toolName, minimumCount) :: required => do
      let actual ← counts.get (.str toolName)
      let minimum ← interpreter.int minimumCount
      let tooFew ← lessThan actual minimum
      let failure ←
        if tooFew then do
          let wanted ← interpreter.text minimumCount
          let found ← interpreter.text actual
          some [toolName ++ " 至少应调用 " ++ wanted ++ " 次，实际 " ++ found ++ " 次"]
        else some []
      let later ← requiredFailures counts required
      some (failure ++ later)

/-- The loop over `forbidden_tools`. -/
def forbiddenFailures (counts : Counter) : List Json → Option (List String)
  | [] => some []
  | toolName :: forbidden => do
      let actual ← counts.get toolName
      let called ← greaterThan actual 0
      let failure ←
        if called then do
          let name ← interpreter.text toolName
          let found ← interpreter.text actual
          some ["禁止调用 " ++ name ++ "，实际调用 " ++ found ++ " 次"]
        else some []
      let later ← forbiddenFailures counts forbidden
      some (failure ++ later)

def toolPolicyEvaluator (outputs reference : Mapping) : Option EvaluatorResult :=
  match executionGuard "tool_policy" outputs reference with
  | some guarded => some guarded
  | none => do
      let expect := expectation reference
      let counts ← Counter.of ((Json.lookup "tool_calls" outputs).getD (.arr []))
      let required ← items ((Json.lookup "required_tools" expect).getD (.obj []))
      let tooFew ← requiredFailures interpreter counts required
      let forbidden ← iterate ((Json.lookup "forbidden_tools" expect).getD (.arr []))
      let called ← forbiddenFailures interpreter counts forbidden
      some (verdict "tool_policy" "Tool 选择符合预期" (tooFew ++ called))

def boolText (value : Bool) : String := if value then "True" else "False"

/-- This one never raises. -/
def approvalEvaluator (outputs reference : Mapping) : Option EvaluatorResult :=
  match executionGuard "approval_policy" outputs reference with
  | some guarded => some guarded
  | none =>
      let expected := (Json.lookup "approval_required" (expectation reference)).any Json.truthy
      let actual := (Json.lookup "approval_created" outputs).any Json.truthy
      some ⟨"approval_policy", if expected = actual then .int 1 else .int 0,
        "Approval 期望=" ++ boolText expected ++ "，实际=" ++ boolText actual⟩

/-- `any(text in answer for text in texts)`, which stops at the first text found. -/
def anyIn (answer : String) : List Json → Option Bool
  | [] => some false
  | text :: texts => do
      let found ← textIn answer text
      if found then some true else anyIn answer texts

def requiredAnyFailures (answer : String) (requiredAny : Json) : Option (List String) :=
  if requiredAny.truthy then do
    let texts ← iterate requiredAny
    let found ← anyIn answer texts
    if found then some []
    else (interpreter.text requiredAny).map fun shown => ["回答至少应包含其一: " ++ shown]
  else some []

/-- The loop over `response_forbidden`. -/
def forbiddenTexts (answer : String) : List Json → Option (List String)
  | [] => some []
  | text :: texts => do
      let found ← textIn answer text
      let failure ←
        if found then do
          let shown ← interpreter.text text
          some ["回答出现禁止内容: " ++ shown]
        else some []
      let later ← forbiddenTexts answer texts
      some (failure ++ later)

/-- `str(outputs.get("answer") or "")`. -/
def answerOf (outputs : Mapping) : Option String :=
  match Json.lookup "answer" outputs with
  | some answer => if answer.truthy then interpreter.text answer else some ""
  | none => some ""

def responseContractEvaluator (outputs reference : Mapping) : Option EvaluatorResult :=
  match executionGuard "response_contract" outputs reference with
  | some guarded => some guarded
  | none => do
      let expect := expectation reference
      let answer ← answerOf interpreter outputs
      let missing ← requiredAnyFailures interpreter answer
        ((Json.lookup "response_any" expect).getD (.arr []))
      let forbidden ← iterate ((Json.lookup "response_forbidden" expect).getD (.arr []))
      let present ← forbiddenTexts interpreter answer forbidden
      some (verdict "response_contract" "回答满足确定性业务契约" (missing ++ present))

end Evaluators

/-! ## What the guard lets through -/

theorem execution_guard_key {key : String} {outputs reference : Mapping} {result : EvaluatorResult}
    (guarded : executionGuard key outputs reference = some result) :
    result.key = key ∧ (result.score = .null ∨ result.score = .int 0) := by
  unfold executionGuard at guarded
  split at guarded
  · cases guarded
    exact ⟨rfl, .inl rfl⟩
  · split at guarded
    · cases guarded
      exact ⟨rfl, .inr rfl⟩
    · split at guarded
      · cases guarded
      · cases guarded
        exact ⟨rfl, .inr rfl⟩

theorem execution_guard_none {key : String} {outputs reference : Mapping}
    (unguarded : executionGuard key outputs reference = none) :
    (Json.lookup "skipped" outputs).any Json.truthy = false ∧
      Json.lookup "execution_status" outputs = some (.str "completed") ∧
        ∃ entries, Json.lookup "expect" reference = some (.obj entries) := by
  unfold executionGuard at unguarded
  split at unguarded
  · cases unguarded
  · rename_i running
    split at unguarded
    · cases unguarded
    · rename_i completed
      split at unguarded
      · rename_i entries found
        exact ⟨by simpa using running, by simpa using completed, entries, found⟩
      · cases unguarded

/-- An evaluator of this key: what it returns bears the key, and without a guard in the way. -/
structure Guarded (key : String) (evaluator : Mapping → Mapping → Option EvaluatorResult) :
    Prop where
  named : ∀ outputs reference result, evaluator outputs reference = some result → result.key = key
  guarded : ∀ outputs reference result, executionGuard key outputs reference = some result →
    evaluator outputs reference = some result

theorem tool_policy_guarded (interpreter : Interpreter) :
    Guarded "tool_policy" (toolPolicyEvaluator interpreter) := by
  constructor
  · intro outputs reference result evaluated
    unfold toolPolicyEvaluator at evaluated
    split at evaluated
    · rename_i early isEarly
      cases evaluated
      exact (execution_guard_key isEarly).1
    · simp only [Option.bind_eq_bind, Option.bind_eq_some_iff, Option.some.injEq] at evaluated
      have ⟨_, _, _, _, _, _, _, _, _, _, same⟩ := evaluated
      rw [← same]
      rfl
  · intro outputs reference result isEarly
    rw [toolPolicyEvaluator, isEarly]

theorem approval_guarded : Guarded "approval_policy" approvalEvaluator := by
  constructor
  · intro outputs reference result evaluated
    unfold approvalEvaluator at evaluated
    split at evaluated
    · rename_i early isEarly
      cases evaluated
      exact (execution_guard_key isEarly).1
    · cases evaluated
      rfl
  · intro outputs reference result isEarly
    rw [approvalEvaluator, isEarly]

theorem response_contract_guarded (interpreter : Interpreter) :
    Guarded "response_contract" (responseContractEvaluator interpreter) := by
  constructor
  · intro outputs reference result evaluated
    unfold responseContractEvaluator at evaluated
    split at evaluated
    · rename_i early isEarly
      cases evaluated
      exact (execution_guard_key isEarly).1
    · simp only [Option.bind_eq_bind, Option.bind_eq_some_iff, Option.some.injEq] at evaluated
      have ⟨_, _, _, _, _, _, _, _, same⟩ := evaluated
      rw [← same]
      rfl
  · intro outputs reference result isEarly
    rw [responseContractEvaluator, isEarly]

end AgentHarness.Evaluation
