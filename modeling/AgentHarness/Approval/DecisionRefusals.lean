import AgentHarness.Approval.CallRuns
import AgentHarness.Approval.ApprovalRepository

/-!
# Refusals of `decide`

The update is guarded by the clock of the database, and a refusal is worded by the clock of the
application host. Between the two a refused approval can look neither expired nor settled.
-/

namespace AgentHarness.Approval

open AgentHarness.Library ApprovalRequest ApprovalRepository

set_option autoImplicit false

/-- The status the approve and reject endpoints answer with. Exceptions of the database are answered
by the handler of the application, any other exception is an internal error. -/
def httpStatus : Except Raised ApprovalRequest → Nat
  | .ok _ => 200
  | .error (.keyError _) => 404
  | .error (.valueError _) => 409
  | .error .dataError | .error .integrityError | .error .noResultFound
  | .error .multipleResultsFound => 503
  | .error (.runtimeError _) => 500

def ApprovalRequest.expired (row : ApprovalRequest) (now : Int) : Bool :=
  row.grant.any fun grant => grant.expiresAt ≤ now

/-- A call of `decide` with the database clock at its update and the host clock at its re-read. -/
structure DecideMoment where
  rows : List ApprovalRequest
  approvalId : String
  tenantId : String
  decision : Decision
  decidedBy : String
  now : Int
  matchedAt : Int
  rereadAt : Int
  deriving DecidableEq, Repr

namespace DecideMoment

def request (moment : DecideMoment) : DecideRequest :=
  ⟨moment.approvalId, moment.decision.text, moment.decidedBy, moment.tenantId⟩

def result (moment : DecideMoment) : Except Raised ApprovalRequest :=
  (ApprovalRepository.decide moment.rows moment.request moment.now moment.matchedAt
    moment.rereadAt).1

/-- The row is the approval of the tenant. -/
def owns (moment : DecideMoment) (row : ApprovalRequest) : Prop :=
  row ∈ moment.rows ∧ row.id = moment.approvalId ∧ row.tenantId = moment.tenantId

/-- Every outcome is what the tenant's row and the database clock say. -/
structure Classified (moment : DecideMoment) : Prop where
  keyError : (∃ key, moment.result = .error (.keyError key)) ↔ ¬ ∃ row, moment.owns row
  valueError : (∃ message, moment.result = .error (.valueError message)) ↔
    ∃ row, moment.owns row ∧
      (row.status ≠ .pending ∨ row.expired moment.matchedAt = true)
  succeeds : (∃ row, moment.result = .ok row) ↔
    ∃ row, moment.owns row ∧ row.status = .pending ∧ row.expired moment.matchedAt = false
  noRuntimeError : ∀ message, moment.result ≠ .error (.runtimeError message)
  http : httpStatus moment.result = 200 ∨ httpStatus moment.result = 404 ∨
    httpStatus moment.result = 409

/-- The tenant's row is pending and expired for the database, but not for the host. -/
def skewed (moment : DecideMoment) : Prop :=
  ∃ row, moment.owns row ∧ row.status = .pending ∧ row.expired moment.matchedAt = true ∧
    row.expired moment.rereadAt = false

end DecideMoment

variable {moment : DecideMoment} {row : ApprovalRequest}

theorem expired_eq_false_iff (now : Int) :
    row.expired now = false ↔ ∀ grant, row.grant = some grant → now < grant.expiresAt := by
  unfold ApprovalRequest.expired
  cases row.grant <;> simp

theorem is_decidable_iff (owned : moment.owns row) :
    isDecidable moment.request moment.matchedAt row = true ↔
      row.status = .pending ∧ row.expired moment.matchedAt = false := by
  rw [is_decidable_eq_true_iff, expired_eq_false_iff]
  obtain ⟨_, sameId, sameTenant⟩ := owned
  constructor
  · intro decidable
    exact decidable.2.2
  · intro decidable
    exact ⟨sameId, sameTenant, decidable⟩

/-- The three ways a refusal is worded. -/
theorem refusal_cases (row : ApprovalRequest) (now : Int) :
    (∃ message, row.refusal now = .valueError message ∧
        (row.expired now = true ∨ row.status ≠ .pending)) ∨
      (∃ message, row.refusal now = .runtimeError message ∧ row.status = .pending ∧
        row.expired now = false) := by
  unfold refusal
  split_ifs with expired settled
  · exact Or.inl ⟨_, rfl, Or.inl expired⟩
  · exact Or.inl ⟨_, rfl, Or.inr settled⟩
  · exact Or.inr ⟨_, rfl, not_not.mp settled, by simpa [ApprovalRequest.expired] using expired⟩

theorem owned_unique (unique : UniqueIds moment.rows) {other : ApprovalRequest}
    (owned : moment.owns row) (otherOwned : moment.owns other) : row = other :=
  Keyset.Apart.eq unique owned.1 otherOwned.1 (owned.2.1.trans otherOwned.2.1.symm)

theorem of_text_text (decision : Decision) : Decision.ofText decision.text = some decision := by
  cases decision <;> decide

/-! ## The outcomes -/

/-- The results of a call, each with what it says about the tenant's row. -/
inductive Outcome (moment : DecideMoment) : Except Raised ApprovalRequest → Prop
  | unstorable (refused : moment.request.storable = false) : Outcome moment (.error .dataError)
  | unknown (storable : moment.request.storable = true) (absent : ¬ ∃ row, moment.owns row) :
      Outcome moment (.error (.keyError moment.approvalId))
  | decided (row next : ApprovalRequest) (storable : moment.request.storable = true)
      (owned : moment.owns row) (isPending : row.status = .pending)
      (inTime : row.expired moment.matchedAt = false) : Outcome moment (.ok next)
  | refused (row : ApprovalRequest) (message : String) (storable : moment.request.storable = true)
      (owned : moment.owns row)
      (settled : row.status ≠ .pending ∨ row.expired moment.matchedAt = true)
      (explained : row.expired moment.rereadAt = true ∨ row.status ≠ .pending) :
      Outcome moment (.error (.valueError message))
  | unexplained (row : ApprovalRequest) (message : String) (owned : moment.owns row)
      (isPending : row.status = .pending) (expired : row.expired moment.matchedAt = true)
      (inTime : row.expired moment.rereadAt = false) :
      Outcome moment (.error (.runtimeError message))

theorem refused_outcome (storable : moment.request.storable = true) (owned : moment.owns row)
    (settled : row.status ≠ .pending ∨ row.expired moment.matchedAt = true) :
    Outcome moment (.error (row.refusal moment.rereadAt)) := by
  rcases refusal_cases row moment.rereadAt with ⟨message, worded, explained⟩ |
    ⟨message, worded, isPending, inTime⟩
  · rw [worded]
    exact .refused row message storable owned settled explained
  · rw [worded]
    rcases settled with notPending | expired
    · exact absurd isPending notPending
    · exact .unexplained row message owned isPending expired inTime

theorem result_outcome (unique : UniqueIds moment.rows) : Outcome moment moment.result := by
  rw [DecideMoment.result, decide_answer unique,
    show Decision.ofText moment.request.decision = some moment.decision from
      of_text_text moment.decision]
  cases storable : moment.request.storable with
  | false => exact .unstorable storable
  | true =>
      simp only [Bool.not_true, Bool.false_eq_true, if_false]
      cases found : ApprovalRepository.get moment.rows moment.request.approvalId with
      | none =>
          apply Outcome.unknown storable
          intro owned
          obtain ⟨row, member, sameId, _⟩ := owned
          exact not_mem_of_get_none found member sameId
      | some row =>
          obtain ⟨member, sameId⟩ := mem_of_get found
          by_cases sameTenant : row.tenantId = moment.request.tenantId
          · have owned : moment.owns row := ⟨member, sameId, sameTenant⟩
            by_cases decidable : isDecidable moment.request moment.matchedAt row = true
            · obtain ⟨isPending, inTime⟩ := (is_decidable_iff owned).mp decidable
              simp only [decidable, if_true]
              exact .decided row _ storable owned isPending inTime
            · simp only [decidable, sameTenant, ne_eq, not_true_eq_false, if_false]
              apply refused_outcome storable owned
              rw [is_decidable_iff owned] at decidable
              by_cases isPending : row.status = .pending
              · right
                simpa [isPending] using decidable
              · exact Or.inl isPending
          · have notDecidable : isDecidable moment.request moment.matchedAt row = false := by
              simp [isDecidable, sameTenant]
            simp only [notDecidable, Bool.false_eq_true, if_false, sameTenant, ne_eq,
              not_false_eq_true, if_true]
            apply Outcome.unknown storable
            intro owned
            obtain ⟨ownRow, ownMember, ownId, ownTenant⟩ := owned
            have same := Keyset.Apart.eq unique ownMember member (ownId.trans sameId.symm)
            rw [same] at ownTenant
            exact sameTenant ownTenant

/-- The tenant has one row with the id, so what is said of a row is said of every row it owns. -/
theorem exists_owned_iff (unique : UniqueIds moment.rows) (owned : moment.owns row)
    (holds : ApprovalRequest → Prop) :
    (∃ other, moment.owns other ∧ holds other) ↔ holds row := by
  constructor
  · intro found
    obtain ⟨other, otherOwned, holdsOther⟩ := found
    rw [owned_unique unique owned otherOwned]
    exact holdsOther
  · intro holdsRow
    exact ⟨row, owned, holdsRow⟩

/-- Refusals are classified correctly exactly if the database takes the texts of the call and its
clock and the host's agree on the expiry of the pending row. -/
theorem decide_classified_iff (moment : DecideMoment) (unique : UniqueIds moment.rows) :
    moment.Classified ↔ moment.request.storable = true ∧ ¬ moment.skewed := by
  have outcome := result_outcome unique
  generalize answered : moment.result = result at outcome
  constructor
  · intro classified
    cases outcome with
    | unstorable refused =>
        have http := classified.http
        rw [answered] at http
        simp [httpStatus] at http
    | unknown storable absent =>
        refine ⟨storable, ?_⟩
        intro skewed
        obtain ⟨row, owned, _⟩ := skewed
        exact absent ⟨row, owned⟩
    | decided row next storable owned isPending inTime =>
        refine ⟨storable, ?_⟩
        intro skewed
        have others := (exists_owned_iff unique owned _).mp skewed
        rw [inTime] at others
        cases others.2.1
    | refused row message storable owned settled explained =>
        refine ⟨storable, ?_⟩
        intro skewed
        obtain ⟨isPending, _, inTime⟩ := (exists_owned_iff unique owned _).mp skewed
        rcases explained with expired | notPending
        · rw [inTime] at expired
          cases expired
        · exact notPending isPending
    | unexplained row message owned isPending expired inTime =>
        exact absurd answered (classified.noRuntimeError message)
  · intro condition
    obtain ⟨storable, steady⟩ := condition
    cases outcome with
    | unstorable refused =>
        rw [storable] at refused
        cases refused
    | unknown storable absent =>
        have noneOwned : ∀ holds : ApprovalRequest → Prop,
            ¬ ∃ row, moment.owns row ∧ holds row := by
          intro holds found
          obtain ⟨row, owned, _⟩ := found
          exact absent ⟨row, owned⟩
        constructor <;> simp [answered, absent, noneOwned, httpStatus]
    | decided row next storable owned isPending inTime =>
        have present : ∃ row, moment.owns row := ⟨row, owned⟩
        constructor <;>
          simp [answered, present, exists_owned_iff unique owned, isPending, inTime, httpStatus]
    | refused row message storable owned settled explained =>
        have present : ∃ row, moment.owns row := ⟨row, owned⟩
        have notBoth : ¬ (row.status = .pending ∧ row.expired moment.matchedAt = false) := by
          intro pending
          rcases settled with notPending | expired
          · exact notPending pending.1
          · rw [pending.2] at expired
            cases expired
        constructor <;>
          simp [answered, present, exists_owned_iff unique owned, settled, httpStatus]
        -- the only goal left is that a refused row is not both pending and in time
        simpa using notBoth
    | unexplained row message owned isPending expired inTime =>
        exact absurd ⟨row, owned, isPending, expired, inTime⟩ steady

namespace Recorded

/-- The database clock has reached the expiry of the grant, the clock of the host has not. -/
def lateDecision : DecideMoment where
  rows := [grantRow]
  approvalId := grantRow.id
  tenantId := "t-1"
  decision := .approve
  decidedBy := "approver-1"
  now := 86399999999
  matchedAt := 86400000000
  rereadAt := 86399999999

/-- Both clocks are a microsecond short of the expiry. -/
def timelyDecision : DecideMoment := { lateDecision with matchedAt := 86399999999 }

end Recorded

theorem decide_classified_iff_timely : Recorded.timelyDecision.Classified := by
  have unique : UniqueIds Recorded.timelyDecision.rows := List.pairwise_singleton _ _
  have steady : ¬ Recorded.timelyDecision.skewed := by
    intro skewed
    obtain ⟨row, _, _, expired, inTime⟩ := skewed
    have clash : true = false := expired.symm.trans inTime
    cases clash
  exact (decide_classified_iff Recorded.timelyDecision unique).mpr ⟨by decide +kernel, steady⟩

/-- A host clock that lags behind the database turns the refusal into an internal error. -/
theorem late_decision_runtime_error :
    ¬ ∀ moment : DecideMoment, UniqueIds moment.rows → moment.Classified := by
  intro law
  have classified := law Recorded.lateDecision (List.pairwise_singleton _ _)
  have answered : Recorded.lateDecision.result = .error (.runtimeError "审批状态更新失败") := by
    decide +kernel
  exact classified.noRuntimeError _ answered

end AgentHarness.Approval
