import AgentHarness.Approval.ApprovalListing
import AgentHarness.Approval.Pagination
import AgentHarness.Library.KeysetWalk

/-!
# Pages of approvals

`list_approvals`: one row more than the page holds is read, and the cursor of the next page is made
of the last row on this one.
-/

namespace AgentHarness.Approval

open AgentHarness.Library AgentHarness.Executions ApprovalRequest

set_option autoImplicit false

/-- How the driver reads an instant in the time zone of the session. Not every instant is a
`datetime` there. -/
structure TimestampReader where
  read : Int → Option DateTime
  sound : ∀ instant time, read instant = some time → time.instant = some instant

structure ApprovalResponse where
  id : String
  conversationId : String
  requesterUserId : String
  tenantId : String
  serverName : Option String
  message : String
  status : String
  createdAt : DateTime
  decidedAt : Option DateTime
  decision : Option String
  decidedBy : Option String
  operation : Option String
  operationArguments : Option Arguments
  expiresAt : Option DateTime
  deriving DecidableEq, Repr

structure ApprovalListResponse where
  items : List ApprovalResponse
  nextCursor : Option String
  deriving DecidableEq, Repr

namespace ApprovalRequest

/-- The message the agent gave, if it gave a text. -/
def message (row : ApprovalRequest) : String :=
  match Json.lookup "message" row.params with
  | some (.str text) => text
  | _ => "Agent 请求执行受控操作"

/-- The row with its times read, as the endpoint shows it. -/
def toResponse (row : ApprovalRequest) (createdAt : DateTime)
    (decidedAt expiresAt : Option DateTime) : ApprovalResponse where
  id := row.id
  conversationId := row.conversationId
  requesterUserId := row.requesterUserId
  tenantId := row.tenantId
  serverName := row.serverName
  message := row.message
  status := row.status.text
  createdAt := createdAt
  decidedAt := decidedAt
  decision := row.decision
  decidedBy := row.decidedBy
  operation := row.grant.map ExecutionGrant.operation
  operationArguments := row.grant.map ExecutionGrant.operationArguments
  expiresAt := expiresAt

end ApprovalRequest

namespace TimestampReader

variable (times : TimestampReader)

def readOptional : Option Int → Option (Option DateTime)
  | none => some none
  | some instant => (times.read instant).map some

/-- All times of a row are read, also the one that is not shown. -/
def respond (row : ApprovalRequest) : Option ApprovalResponse := do
  let createdAt ← times.read row.createdAt
  let decidedAt ← times.readOptional row.decidedAt
  let _ ← times.readOptional row.consumedAt
  let expiresAt ← times.readOptional (row.grant.map ExecutionGrant.expiresAt)
  some (row.toResponse createdAt decidedAt expiresAt)

end TimestampReader

/-- How a request for a page fails. -/
inductive ListError where
  | requestValidation
  | unprocessable (detail : String)
  | raised (error : Raised)
  | recursionError
  deriving DecidableEq, Repr

/-- What a client asks for, page after page. -/
structure PageRequest where
  tenantId : String
  limit : Int
  status : Option Status
  conversationId : Option Uuid
  deriving DecidableEq, Repr

namespace PageRequest

def listQuery (request : PageRequest) (before : Option (Int × String)) : ListQuery where
  status := request.status.map Status.text
  conversationId := request.conversationId.map Uuid.text
  before := before

/-- The row is one the request asks for; `now` is the database clock. -/
def matching (request : PageRequest) (now : Int) (row : ApprovalRequest) : Bool :=
  row.tenantId = request.tenantId && (request.listQuery none).selects now row

end PageRequest

section Endpoint

variable (collation : Collation) (reader : CursorReader) (times : TimestampReader)
  (rows : List ApprovalRequest)

/-- The query parameters are validated before the endpoint runs. -/
def readCursor (cursor : Option String) : Except ListError (Option (Int × String)) :=
  match cursor with
  | none => .ok none
  | some text =>
      if 512 < text.length then .error .requestValidation
      else match decodeCursor reader text with
        | .ok position => .ok (some position)
        | .error .invalidApprovalCursor => .error (.unprocessable "无效分页游标")
        | .error .recursionError => .error .recursionError

def listApprovals (request : PageRequest) (cursor : Option String) (now : Int) :
    Except ListError ApprovalListResponse :=
  if !(1 ≤ request.limit && request.limit ≤ 200) then .error .requestValidation
  else match readCursor reader cursor with
    | .error error => .error error
    | .ok before =>
        match ApprovalRepository.listForTenant collation rows request.tenantId (request.limit + 1)
            (request.listQuery before) now with
        | .error error => .error (.raised error)
        | .ok found =>
            match found.mapM times.respond with
            | none => .error (.raised .dataError)
            | some items =>
                let page := items.take request.limit.toNat
                .ok ⟨page, if request.limit.toNat < items.length then
                    page.getLast?.map fun last => encodeCursor last.createdAt last.id
                  else none⟩

variable {collation reader times rows}

theorem responses_iff {found : List ApprovalRequest} {items : List ApprovalResponse} :
    found.mapM times.respond = some items ↔ found.map times.respond = items.map some := by
  induction found generalizing items with
  | nil => cases items <;> simp
  | cons row found ih =>
      simp only [List.mapM_cons, List.map_cons, Option.pure_def, Option.bind_eq_bind,
        Option.bind_eq_some_iff, Option.some.injEq]
      constructor
      · rintro ⟨item, shown, rest, others, rfl⟩
        rw [shown, ih.mp others, List.map_cons]
      · intro same
        cases items with
        | nil => cases same
        | cons item items =>
            obtain ⟨shown, others⟩ := List.cons.inj same
            exact ⟨item, shown, items, ih.mpr others, rfl⟩

theorem responses_of_readable {found : List ApprovalRequest}
    (readable : ∀ row ∈ found, (times.respond row).isSome) :
    found.mapM times.respond = some (found.filterMap times.respond) := by
  rw [responses_iff]
  induction found with
  | nil => rfl
  | cons row found ih =>
      obtain ⟨item, shown⟩ := Option.isSome_iff_exists.mp (readable row List.mem_cons_self)
      have rest := ih fun other later => readable other (List.mem_cons_of_mem row later)
      rw [List.map_cons, List.filterMap_cons_some shown, List.map_cons, shown, rest]

/-- What `list_for_tenant` is asked to look at. -/
theorem list_for_tenant_eq {request : PageRequest} (positive : 1 ≤ request.limit)
    (fits : request.limit ≤ 200) (before : Option (Int × String)) (now : Int) :
    ApprovalRepository.listForTenant collation rows request.tenantId (request.limit + 1)
        (request.listQuery before) now =
      if plain request.tenantId && (request.listQuery before).storable then
        .ok (Keyset.select collation.positionOf (request.limit.toNat + 1)
          (before.map fun cursor => collation.position cursor.1 cursor.2)
          (rows.filter (request.matching now)))
      else .error .dataError := by
  have sized : (request.limit + 1).toNat = request.limit.toNat + 1 := by omega
  have admitted : (decide (1 ≤ request.limit + 1) && decide (request.limit + 1 ≤ 201)) = true := by
    simp only [Bool.and_eq_true, decide_eq_true_eq]
    omega
  rw [ApprovalRepository.listForTenant, admitted, sized]
  cases plain request.tenantId && (request.listQuery before).storable <;> rfl

/-- A page that is given shows the rows of the page behind the cursor. -/
theorem list_approvals_ok {request : PageRequest} {cursor : Option String} {now : Int}
    {before : Option (Int × String)} {answer : ApprovalListResponse}
    (isBefore : readCursor reader cursor = .ok before)
    (listed : listApprovals collation reader times rows request cursor now = .ok answer) :
    (Keyset.page collation.positionOf request.limit.toNat
        (before.map fun cursor => collation.position cursor.1 cursor.2)
        (rows.filter (request.matching now))).items.map times.respond = answer.items.map some ∧
      answer.nextCursor =
        if (Keyset.page collation.positionOf request.limit.toNat
            (before.map fun cursor => collation.position cursor.1 cursor.2)
            (rows.filter (request.matching now))).more then
          answer.items.getLast?.map fun last => encodeCursor last.createdAt last.id
        else none := by
  unfold listApprovals at listed
  split at listed
  · cases listed
  rename_i admitted
  simp only [Bool.not_eq_true, Bool.not_eq_false', Bool.and_eq_true, decide_eq_true_eq] at admitted
  rw [isBefore] at listed
  dsimp only at listed
  rw [list_for_tenant_eq admitted.1 admitted.2] at listed
  split at listed
  · cases listed
  rename_i found isFound
  split at isFound
  · cases isFound
    split at listed
    · cases listed
    · rename_i items shown
      cases listed
      rw [responses_iff] at shown
      have sameLength := congrArg List.length shown
      rw [List.length_map, List.length_map] at sameLength
      constructor
      · rw [Keyset.page, List.map_take, shown, ← List.map_take]
      · simp only [Keyset.page, sameLength, decide_eq_true_eq]
  · cases isFound

/-- The only failure of a request with a cursor that was given out is one of the database. -/
theorem list_approvals_error {request : PageRequest} {cursor : Option String} {now : Int}
    {before : Option (Int × String)} {error : ListError} (positive : 1 ≤ request.limit)
    (fits : request.limit ≤ 200) (isBefore : readCursor reader cursor = .ok before)
    (failed : listApprovals collation reader times rows request cursor now = .error error) :
    error = .raised .dataError := by
  have admitted : (decide (1 ≤ request.limit) && decide (request.limit ≤ 200)) = true := by
    simp [positive, fits]
  rw [listApprovals, admitted, isBefore] at failed
  simp only [Bool.not_true, Bool.false_eq_true, if_false, list_for_tenant_eq positive fits]
    at failed
  split at failed
  · rename_i raised isError
    split at isError
    · cases isError
    · cases isError
      cases failed
      rfl
  · split at failed
    · cases failed
      rfl
    · cases failed

theorem plain_uuid_text (uuid : Uuid) : plain uuid.text = true := by
  apply List.all_eq_true.mpr
  intro c member
  have visible := (uuid_text_unescaped uuid c member).1
  simp only [ne_eq, decide_eq_true_eq]
  omega

/-- The database takes every query that the endpoint makes of its parameters. -/
theorem list_query_storable (request : PageRequest) (before : Option (Int × Uuid)) :
    (request.listQuery (before.map fun cursor => (cursor.1, cursor.2.text))).storable = true := by
  have status : (request.status.map Status.text).all plain = true := by
    cases request.status with
    | none => rfl
    | some status => cases status <;> decide
  have conversation : (request.conversationId.map Uuid.text).all plain = true := by
    cases request.conversationId with
    | none => rfl
    | some uuid => exact plain_uuid_text uuid
  have cursor : (before.map fun cursor => (cursor.1, cursor.2.text)).all
      (fun cursor => plain cursor.2) = true := by
    cases before with
    | none => rfl
    | some cursor => exact plain_uuid_text cursor.2
  simp only [ListQuery.storable, PageRequest.listQuery, status, conversation, cursor, Bool.and_self]

/-- A request is answered when the driver can read the times of the rows. -/
theorem list_approvals_answers {request : PageRequest} {cursor : Option String} {now : Int}
    {before : Option (Int × Uuid)} (positive : 1 ≤ request.limit) (fits : request.limit ≤ 200)
    (isBefore : readCursor reader cursor =
      .ok (before.map fun cursor => (cursor.1, cursor.2.text)))
    (storable : plain request.tenantId = true)
    (readable : ∀ row ∈ rows.filter (request.matching now), (times.respond row).isSome) :
    ∃ answer, listApprovals collation reader times rows request cursor now = .ok answer := by
  have admitted : (decide (1 ≤ request.limit) && decide (request.limit ≤ 200)) = true := by
    simp [positive, fits]
  rw [listApprovals, admitted, isBefore]
  simp only [Bool.not_true, Bool.false_eq_true, if_false, list_for_tenant_eq positive fits,
    storable, list_query_storable, Bool.and_self, if_true]
  rw [responses_of_readable fun row member => readable row (Keyset.mem_of_mem_select member)]
  exact ⟨_, rfl⟩

theorem read_cursor_encode (deepEnough : 0 < reader.limits.depth) (createdAt : DateTime)
    (uuid : Uuid) {instant : Int} (aware : createdAt.instant = some instant) :
    readCursor reader (some (encodeCursor createdAt uuid.text)) =
      .ok (some (instant, uuid.text)) := by
  have short := length_encode_cursor_le createdAt uuid
  simp only [readCursor, if_neg (Nat.not_lt.mpr short),
    decode_encode_cursor reader deepEnough createdAt uuid aware]

end Endpoint

end AgentHarness.Approval
