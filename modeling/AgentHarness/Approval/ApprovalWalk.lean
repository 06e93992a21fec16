import AgentHarness.Approval.ApprovalPages
import AgentHarness.Approval.StoredRows
import AgentHarness.Approval.TenantIsolation

/-!
# Walking through the approvals of a tenant

A client follows the cursors of `list_approvals` while the table changes. The walk is a walk by
positions over whatever rows match when a page is asked for.
-/

namespace AgentHarness.Approval

open AgentHarness.Library AgentHarness.Conversations AgentHarness.Executions ApprovalRequest

set_option autoImplicit false

/-! ## The walk of a client -/

/-- The table with a client that walks through its pages. A request that fails leaves the client
where it was; it may ask again. -/
structure ApprovalWalk where
  store : GrantStore
  pages : List ApprovalListResponse
  failures : List ListError
  deriving DecidableEq, Repr

inductive WalkLabel where
  | store (label : GrantLabel)
  | fetch
  deriving DecidableEq, Repr

namespace ApprovalWalk

def start (conversations : List Conversation) (clock : Int) : ApprovalWalk where
  store := .start conversations clock
  pages := []
  failures := []

def items (walk : ApprovalWalk) : List ApprovalResponse :=
  walk.pages.flatMap ApprovalListResponse.items

/-- The cursor to ask with next; after the last page there is nothing to ask for. -/
def next (walk : ApprovalWalk) : Option (Option String) :=
  match walk.pages.getLast? with
  | none => some none
  | some page => page.nextCursor.map some

/-- The rows that match the request at this moment. -/
def shown (request : PageRequest) (walk : ApprovalWalk) : List ApprovalRequest :=
  walk.store.rows.filter (request.matching walk.store.clock)

section Step

variable (service : ExecutionService) (collation : Collation) (reader : CursorReader)
  (times : TimestampReader) (request : PageRequest)

def fetch (walk : ApprovalWalk) (cursor : Option String) : ApprovalWalk :=
  match listApprovals collation reader times walk.store.rows request cursor walk.store.clock with
  | .ok page => { walk with pages := walk.pages ++ [page] }
  | .error error => { walk with failures := walk.failures ++ [error] }

def step (walk : ApprovalWalk) : WalkLabel → Option ApprovalWalk
  | .store label => (walk.store.step service label).map fun store => { walk with store := store }
  | .fetch => walk.next.map (walk.fetch collation reader times request)

end Step

end ApprovalWalk

def approvalWalk (service : ExecutionService) (collation : Collation) (reader : CursorReader)
    (times : TimestampReader) (request : PageRequest) : Machine ApprovalWalk WalkLabel where
  step walk label := walk.step service collation reader times request label

/-- The first row is shown before the second, by `(created_at, id)` in decreasing order. -/
def ShownBefore (collation : Collation) (first second : ApprovalResponse) : Prop :=
  ∃ high low : Int, first.createdAt.instant = some high ∧ second.createdAt.instant = some low ∧
    collation.position low second.id < collation.position high first.id

/-- The walk is over, or has shown a row at the position or behind it. -/
def ApprovalWalk.Passed (collation : Collation) (createdAt : Int) (id : String)
    (walk : ApprovalWalk) : Prop :=
  walk.next = none ∨ ∃ item ∈ walk.items, ∃ instant, item.createdAt.instant = some instant ∧
    collation.position instant item.id ≤ collation.position createdAt id

/-- The approval with this id is one the request asks for. -/
def ApprovalWalk.Matches (request : PageRequest) (createdAt : Int) (id : String)
    (walk : ApprovalWalk) : Prop :=
  ∃ row ∈ walk.shown request, row.id = id ∧ row.createdAt = createdAt

/-! ## The walk by positions -/

section Follows

variable {service : ExecutionService} {collation : Collation} {reader : CursorReader}
  {times : TimestampReader} {request : PageRequest} {walk next : ApprovalWalk}
  {path : Keyset.Walk ApprovalRequest (Int ×ₗ collation.Rank)}

/-- The pages show the rows of a walk by positions, and the cursor is read as its position. -/
structure Follows (collation : Collation) (reader : CursorReader) (times : TimestampReader)
    (walk : ApprovalWalk) (path : Keyset.Walk ApprovalRequest (Int ×ₗ collation.Rank)) :
    Prop where
  items : path.yielded.map times.respond = walk.items.map some
  ended : path.next = none → walk.next = none
  cursor : ∀ before, path.next = some before → ∃ cursor, ∃ reached : Option (Int × Uuid),
    walk.next = some cursor ∧
      readCursor reader cursor = .ok (reached.map fun cursor => (cursor.1, cursor.2.text)) ∧
      before = reached.map fun cursor => collation.position cursor.1 cursor.2.text

/-- What the client sees of a row. -/
theorem respond_fields {row : ApprovalRequest} {item : ApprovalResponse}
    (shown : times.respond row = some item) :
    item.id = row.id ∧ item.createdAt.instant = some row.createdAt := by
  simp only [TimestampReader.respond, Option.bind_eq_bind, Option.bind_eq_some_iff,
    Option.some.injEq] at shown
  obtain ⟨createdAt, isRead, _, _, _, _, _, _, rfl⟩ := shown
  exact ⟨rfl, times.sound _ _ isRead⟩

theorem Follows.row_of_item (follows : Follows collation reader times walk path)
    {item : ApprovalResponse} (member : item ∈ walk.items) :
    ∃ row ∈ path.yielded, times.respond row = some item := by
  have shown : some item ∈ path.yielded.map times.respond := by
    rw [follows.items]
    exact List.mem_map_of_mem member
  exact List.mem_map.mp shown

theorem Follows.item_of_row (follows : Follows collation reader times walk path)
    {row : ApprovalRequest} (member : row ∈ path.yielded) :
    ∃ item ∈ walk.items, times.respond row = some item := by
  have shown : times.respond row ∈ walk.items.map some := by
    rw [← follows.items]
    exact List.mem_map_of_mem member
  obtain ⟨item, isItem, same⟩ := List.mem_map.mp shown
  exact ⟨item, isItem, same.symm⟩

theorem Follows.ids (follows : Follows collation reader times walk path) :
    walk.items.map ApprovalResponse.id = path.yielded.map ApprovalRequest.id := by
  have same := congrArg (List.map (Option.map ApprovalResponse.id)) follows.items
  have each : path.yielded.map (Option.map ApprovalResponse.id ∘ times.respond) =
      path.yielded.map (some ∘ ApprovalRequest.id) := by
    apply List.map_congr_left
    intro row member
    obtain ⟨item, _, shown⟩ := follows.item_of_row member
    rw [Function.comp_apply, shown, Option.map_some, (respond_fields shown).1]
    rfl
  have ids : walk.items.map (Option.map ApprovalResponse.id ∘ some) =
      (walk.items.map ApprovalResponse.id).map some := by
    rw [List.map_map]
    rfl
  rw [List.map_map, List.map_map, each, ← List.map_map, ids] at same
  exact (List.map_injective_iff.mpr (Option.some_injective _) same).symm

theorem Follows.passed_iff (follows : Follows collation reader times walk path) (createdAt : Int)
    (id : String) :
    walk.Passed collation createdAt id ↔
      path.Passed collation.positionOf (collation.position createdAt id) := by
  constructor
  · rintro (ended | ⟨item, member, instant, isInstant, reached⟩)
    · left
      cases isNext : path.next with
      | none => rfl
      | some before =>
          obtain ⟨cursor, _, goesOn, _⟩ := follows.cursor before isNext
          rw [ended] at goesOn
          cases goesOn
    · right
      obtain ⟨row, rowMem, shown⟩ := follows.row_of_item member
      obtain ⟨sameId, sameTime⟩ := respond_fields shown
      rw [sameTime] at isInstant
      cases isInstant
      rw [sameId] at reached
      exact ⟨row, rowMem, reached⟩
  · rintro (ended | ⟨row, member, reached⟩)
    · exact .inl (follows.ended ended)
    · right
      obtain ⟨item, itemMem, shown⟩ := follows.item_of_row member
      obtain ⟨sameId, sameTime⟩ := respond_fields shown
      refine ⟨item, itemMem, row.createdAt, sameTime, ?_⟩
      rw [sameId]
      exact reached

theorem next_of_page (page : ApprovalListResponse) :
    ({ walk with pages := walk.pages ++ [page] } : ApprovalWalk).next =
      page.nextCursor.map some := by
  rw [ApprovalWalk.next, List.getLast?_concat]

theorem items_of_page (page : ApprovalListResponse) :
    ({ walk with pages := walk.pages ++ [page] } : ApprovalWalk).items =
      walk.items ++ page.items := by
  simp only [ApprovalWalk.items, List.flatMap_append, List.flatMap_singleton]

/-- A page leads on to the page behind its last row. -/
theorem follows_answer (deepEnough : 0 < reader.limits.depth) (positive : 1 ≤ request.limit)
    (drawn : walk.store.table.Every Drawn) (follows : Follows collation reader times walk path)
    {before : Option (Int × String)} {cursor : Option String} {answer : ApprovalListResponse}
    (isBefore : readCursor reader cursor = .ok before)
    (isNext : path.next = some (before.map fun cursor => collation.position cursor.1 cursor.2))
    (listed : listApprovals collation reader times walk.store.rows request cursor
      walk.store.clock = .ok answer) :
    Follows collation reader times { walk with pages := walk.pages ++ [answer] }
      (path.fetch collation.positionOf request.limit.toNat (walk.shown request)) := by
  obtain ⟨shown, isCursor⟩ := list_approvals_ok isBefore listed
  rw [Keyset.Walk.fetch_of_next isNext]
  rw [show walk.store.rows.filter (request.matching walk.store.clock) = walk.shown request from rfl]
    at shown isCursor
  generalize isPage : Keyset.page collation.positionOf request.limit.toNat
    (before.map fun cursor => collation.position cursor.1 cursor.2) (walk.shown request) = page
    at shown isCursor
  constructor
  · rw [items_of_page, List.map_append, List.map_append, follows.items, shown]
  · intro ended
    rw [next_of_page, isCursor]
    cases more : page.more with
    | false => rfl
    | true =>
        rw [more] at ended
        cases ended
  · intro position isPosition
    cases more : page.more with
    | false =>
        rw [more] at isPosition
        cases isPosition
    | true =>
        rw [more] at isPosition isCursor
        obtain ⟨last, isLast⟩ := Keyset.page_last (by omega : 0 < request.limit.toNat)
          (isPage ▸ more)
        rw [isPage] at isLast
        have lastShown : times.respond last ∈ answer.items.getLast?.map some := by
          rw [← List.getLast?_map, ← shown, List.getLast?_map, isLast]
          rfl
        obtain ⟨item, isItem, same⟩ := Option.map_eq_some_iff.mp lastShown
        obtain ⟨sameId, sameTime⟩ := respond_fields same.symm
        have isRow : last ∈ walk.store.rows :=
          List.mem_of_mem_filter (Keyset.mem_of_mem_page
            (isPage ▸ List.mem_of_getLast? isLast))
        obtain ⟨uuid, isUuid⟩ := drawn.committed isRow
        rw [isUuid] at sameId
        refine ⟨some (encodeCursor item.createdAt item.id), some (last.createdAt, uuid), ?_, ?_, ?_⟩
        · rw [next_of_page, isCursor, if_pos rfl, isItem]
          rfl
        · rw [sameId]
          exact read_cursor_encode deepEnough item.createdAt uuid sameTime
        · rw [if_pos rfl, isLast] at isPosition
          rw [← Option.some.inj isPosition, Option.map_some, Option.map_some, ← isUuid]
          rfl

/-- What a request for the next page comes to, for the client and on the walk by positions. -/
inductive FetchStep (collation : Collation) (reader : CursorReader) (times : TimestampReader)
    (request : PageRequest) (walk : ApprovalWalk)
    (path : Keyset.Walk ApprovalRequest (Int ×ₗ collation.Rank)) :
    ApprovalWalk → Keyset.Walk ApprovalRequest (Int ×ₗ collation.Rank) → Prop
  | failed (cursor : Option String) (isNext : walk.next = some cursor)
      (failed : listApprovals collation reader times walk.store.rows request cursor
        walk.store.clock = .error (.raised .dataError)) :
      FetchStep collation reader times request walk path
        { walk with failures := walk.failures ++ [.raised .dataError] } path
  | answered (page : ApprovalListResponse) (goesOn : walk.next ≠ none)
      (follows : Follows collation reader times { walk with pages := walk.pages ++ [page] }
        (path.fetch collation.positionOf request.limit.toNat (walk.shown request))) :
      FetchStep collation reader times request walk path
        { walk with pages := walk.pages ++ [page] }
        (path.fetch collation.positionOf request.limit.toNat (walk.shown request))

theorem fetch_step (deepEnough : 0 < reader.limits.depth) (positive : 1 ≤ request.limit)
    (fits : request.limit ≤ 200) (drawn : walk.store.table.Every Drawn)
    (follows : Follows collation reader times walk path) {cursor : Option String}
    (isNext : walk.next = some cursor) :
    ∃ after, FetchStep collation reader times request walk path
      (walk.fetch collation reader times request cursor) after := by
  have goesOn : walk.next ≠ none := by
    rw [isNext]
    exact Option.some_ne_none cursor
  cases onPath : path.next with
  | none => exact absurd (follows.ended onPath) goesOn
  | some before =>
      obtain ⟨found, reached, isFound, isBefore, isPosition⟩ := follows.cursor before onPath
      rw [isNext] at isFound
      cases isFound
      unfold ApprovalWalk.fetch
      split
      · rename_i answer listed
        refine ⟨_, .answered answer goesOn ?_⟩
        apply follows_answer deepEnough positive drawn follows isBefore _ listed
        rw [onPath, isPosition, Option.map_map]
        rfl
      · rename_i error failed
        have isData := list_approvals_error positive fits isBefore failed
        subst isData
        exact ⟨path, .failed cursor isNext failed⟩

/-- Rows stay, and what identifies them stays with them. -/
theorem rows_advance {store after : GrantStore} {label : GrantLabel}
    (lawful : Lawful service store)
    (stepped : (grantStore service).step store label = some after) :
    ∀ row ∈ store.rows, ∃ version ∈ after.rows, Advances row version := by
  cases grant_step_of_step stepped with
  | tick duration => exact fun row member => ⟨row, member, Advances.refl row⟩
  | createConversation row conversations created =>
      exact fun row member => ⟨row, member, Advances.refl row⟩
  | call operation => exact fun row member => ⟨row, member, Advances.refl row⟩
  | moved caller before after table here ran =>
      exact (call_table_step lawful (lawful.calls caller before here) ran).transition.advanced

theorem Lawful.shown_apart (lawful : Lawful service walk.store) :
    Keyset.Apart collation.positionOf (walk.shown request) :=
  (positions_apart lawful.unique_ids).filter _

/-- What is known of a client that has come to a page. -/
structure Tracks (service : ExecutionService) (collation : Collation) (reader : CursorReader)
    (times : TimestampReader) (walk : ApprovalWalk)
    (path : Keyset.Walk ApprovalRequest (Int ×ₗ collation.Rank)) : Prop where
  lawful : Lawful service walk.store
  drawn : walk.store.table.Every Drawn
  follows : Follows collation reader times walk path
  ordered : path.Ordered collation.positionOf

theorem Tracks.fetched (tracks : Tracks service collation reader times walk path)
    (positive : 1 ≤ request.limit)
    {after : Keyset.Walk ApprovalRequest (Int ×ₗ collation.Rank)}
    (step : FetchStep collation reader times request walk path next after) :
    Tracks service collation reader times next after := by
  cases step with
  | failed cursor isNext failed =>
      exact ⟨tracks.lawful, tracks.drawn, ⟨tracks.follows.items, tracks.follows.ended,
        tracks.follows.cursor⟩, tracks.ordered⟩
  | answered page goesOn follows =>
      exact ⟨tracks.lawful, tracks.drawn, follows, Keyset.Walk.fetch_ordered (by omega)
        tracks.lawful.shown_apart tracks.ordered⟩

theorem tracks_start (conversations : List Conversation) (clock : Int) :
    Tracks service collation reader times (.start conversations clock) .start where
  lawful := lawful_start service conversations clock
  drawn := by
    intro slot member
    cases member
  follows := by
    constructor
    · rfl
    · intro ended
      cases ended
    · intro before isBefore
      cases isBefore
      exact ⟨none, none, rfl, rfl, rfl⟩
  ordered := by
    constructor
    · exact List.Pairwise.nil
    · intro _
      rfl
    · intro cursor isCursor
      cases isCursor

/-- The invariant rule for walks: statements of others keep what is said of the client, and what a
fetch makes of it is seen on the walk by positions. -/
theorem run_tracks (deepEnough : 0 < reader.limits.depth) (positive : 1 ≤ request.limit)
    (fits : request.limit ≤ 200) (holds : ApprovalWalk → WalkLabel → ApprovalWalk → Prop)
    (invariant : ApprovalWalk → Keyset.Walk ApprovalRequest (Int ×ₗ collation.Rank) → Prop)
    (stores : ∀ walk path store, (∀ row ∈ walk.store.rows, ∃ version ∈ GrantStore.rows store,
      Advances row version) → invariant walk path → invariant { walk with store := store } path)
    (fetches : ∀ walk path next after, Tracks service collation reader times walk path →
      holds walk .fetch next → FetchStep collation reader times request walk path next after →
      invariant walk path → invariant next after)
    {labels : List WalkLabel} (each :
      (approvalWalk service collation reader times request).EachStep holds walk labels)
    (reached : (approvalWalk service collation reader times request).run walk labels = some next)
    (initial : ∃ path, Tracks service collation reader times walk path ∧ invariant walk path) :
    ∃ path, Tracks service collation reader times next path ∧ invariant next path := by
  apply (approvalWalk service collation reader times request).run_invariant_of_each_step holds
    (fun walk => ∃ path, Tracks service collation reader times walk path ∧ invariant walk path)
    _ initial each reached
  intro walk label next tracked held stepped
  obtain ⟨path, tracks, known⟩ := tracked
  cases label with
  | store label =>
      obtain ⟨store, ran, rfl⟩ := Option.map_eq_some_iff.mp stepped
      refine ⟨path, ⟨lawful_step tracks.lawful ran, stored_step drawn_fixed tracks.drawn ran, ?_,
        tracks.ordered⟩, stores walk path store (rows_advance tracks.lawful ran) known⟩
      exact ⟨tracks.follows.items, tracks.follows.ended, tracks.follows.cursor⟩
  | fetch =>
      obtain ⟨cursor, isNext, rfl⟩ := Option.map_eq_some_iff.mp stepped
      obtain ⟨after, step⟩ := fetch_step deepEnough positive fits tracks.drawn tracks.follows isNext
      exact ⟨after, tracks.fetched positive step, fetches walk path _ after tracks held step known⟩

/-! ## The order of the pages -/

theorem Tracks.decreasing (tracks : Tracks service collation reader times walk path) :
    walk.items.Pairwise (ShownBefore collation) := by
  have seen : (path.yielded.map times.respond).Pairwise fun first second =>
      ∀ item ∈ first, ∀ other ∈ second, ShownBefore collation item other := by
    rw [List.pairwise_map]
    apply tracks.ordered.decreasing.imp
    intro row later lower item shown other laterShown
    obtain ⟨sameId, sameTime⟩ := respond_fields shown
    obtain ⟨laterId, laterTime⟩ := respond_fields laterShown
    refine ⟨row.createdAt, later.createdAt, sameTime, laterTime, ?_⟩
    rw [sameId, laterId]
    exact lower
  rw [tracks.follows.items, List.pairwise_map] at seen
  exact seen.imp fun both => both _ rfl _ rfl

/-- The rows the client has seen are still in the table. -/
def Kept (walk : ApprovalWalk)
    (path : Keyset.Walk ApprovalRequest (Int ×ₗ collation.Rank)) : Prop :=
  ∀ row ∈ path.yielded, ∃ version ∈ walk.store.rows, Advances row version

theorem kept_fetch {after : Keyset.Walk ApprovalRequest (Int ×ₗ collation.Rank)}
    (step : FetchStep collation reader times request walk path next after)
    (kept : Kept walk path) : Kept next after := by
  cases step with
  | failed cursor isNext failed => exact kept
  | answered page goesOn follows =>
      cases onPath : path.next with
      | none =>
          rw [Keyset.Walk.fetch, onPath]
          exact kept
      | some before =>
          rw [Keyset.Walk.fetch_of_next onPath]
          intro row member
          rcases List.mem_append.mp member with earlier | onPage
          · exact kept row earlier
          · exact ⟨row, List.mem_of_mem_filter (Keyset.mem_of_mem_page onPage),
              Advances.refl row⟩

/-- No approval is shown twice. -/
theorem Tracks.distinct (tracks : Tracks service collation reader times walk path)
    (kept : Kept walk path) : (walk.items.map ApprovalResponse.id).Nodup := by
  have apart : path.yielded.Pairwise fun first second => first.id ≠ second.id := by
    apply tracks.ordered.decreasing.imp_of_mem
    intro row later rowMem laterMem lower same
    obtain ⟨version, versionMem, advanced⟩ := kept row rowMem
    obtain ⟨laterVersion, laterVersionMem, laterAdvanced⟩ := kept later laterMem
    have one : version = laterVersion := tracks.lawful.unique_ids.eq versionMem laterVersionMem
      (advanced.id.trans (same.trans laterAdvanced.id.symm))
    have sameTime : row.createdAt = later.createdAt := by
      rw [← advanced.created_at, one, laterAdvanced.created_at]
    apply lower.ne'
    exact (collation.position_eq_iff _ _ _ _).mpr ⟨sameTime, same⟩
  rw [tracks.follows.ids, List.Nodup, List.pairwise_map]
  exact apart

/-! ## Approvals that match all the time -/

/-- The walk does not pass the position without the row that is there. -/
def Found (collation : Collation) (createdAt : Int) (id : String)
    (path : Keyset.Walk ApprovalRequest (Int ×ₗ collation.Rank)) : Prop :=
  path.Passed collation.positionOf (collation.position createdAt id) →
    ∃ row ∈ path.yielded, collation.positionOf row = collation.position createdAt id

theorem found_fetch (tracks : Tracks service collation reader times walk path)
    (positive : 1 ≤ request.limit) {createdAt : Int} {id : String}
    {after : Keyset.Walk ApprovalRequest (Int ×ₗ collation.Rank)}
    (matched : walk.Passed collation createdAt id ∨ walk.Matches request createdAt id)
    (step : FetchStep collation reader times request walk path next after)
    (found : Found collation createdAt id path) : Found collation createdAt id after := by
  cases step with
  | failed cursor isNext failed => exact found
  | answered page goesOn follows =>
      intro passed
      by_cases before : path.Passed collation.positionOf (collation.position createdAt id)
      · obtain ⟨row, member, isHere⟩ := found before
        exact ⟨row, Keyset.Walk.mem_fetch member, isHere⟩
      · rcases matched with impossible | ⟨row, member, sameId, sameTime⟩
        · exact absurd ((tracks.follows.passed_iff createdAt id).mp impossible) before
        · have isHere : collation.positionOf row = collation.position createdAt id := by
            rw [← sameId, ← sameTime]
            rfl
          rw [← isHere] at before passed
          exact ⟨row, Keyset.Walk.fetch_complete (by omega) tracks.lawful.shown_apart
            tracks.ordered member before passed, isHere⟩

/-! ## Walks while nothing changes -/

/-- The pages so far are a beginning of the rows, and every page but the last is full. -/
structure Quiet (request : PageRequest) (matching : List ApprovalRequest) (walk : ApprovalWalk)
    (path : Keyset.Walk ApprovalRequest (Int ×ₗ collation.Rank)) : Prop where
  answered : walk.failures = []
  whole : path.yielded ++ path.remaining collation.positionOf matching =
    Keyset.newestFirst collation.positionOf matching
  full : walk.next ≠ none → path.yielded.length = walk.pages.length * request.limit.toNat ∧
    (walk.pages ≠ [] → path.remaining collation.positionOf matching ≠ [])
  pages : walk.pages.length ≤ matching.length / request.limit.toNat + 1

theorem Quiet.next_page {matching : List ApprovalRequest} (positive : 1 ≤ request.limit)
    (quiet : Quiet request matching walk path) (goesOn : walk.next ≠ none) :
    walk.pages.length ≤ matching.length / request.limit.toNat := by
  obtain ⟨taken, leaves⟩ := quiet.full goesOn
  rw [Nat.le_div_iff_mul_le (by omega)]
  have total := congrArg List.length quiet.whole
  rw [List.length_append, (Keyset.newest_first_perm matching).length_eq] at total
  omega

/-- With every answer the walk comes one page further. -/
theorem quiet_fetch (tracks : Tracks service collation reader times walk path)
    (positive : 1 ≤ request.limit) (fits : request.limit ≤ 200)
    (storable : plain request.tenantId = true) {matching : List ApprovalRequest}
    (readable : ∀ row ∈ matching, (times.respond row).isSome)
    (same : (walk.shown request).Perm matching)
    {after : Keyset.Walk ApprovalRequest (Int ×ₗ collation.Rank)}
    (step : FetchStep collation reader times request walk path next after)
    (quiet : Quiet request matching walk path) :
    Quiet request matching next after ∧ next.store = walk.store ∧
      next.pages.length = walk.pages.length + 1 := by
  cases step with
  | failed cursor isNext failed =>
      exfalso
      cases onPath : path.next with
      | none =>
          rw [tracks.follows.ended onPath] at isNext
          cases isNext
      | some before =>
          obtain ⟨found, reached, isFound, isBefore, _⟩ := tracks.follows.cursor before onPath
          rw [isNext] at isFound
          cases isFound
          have answers : ∃ answer, listApprovals collation reader times walk.store.rows request
              cursor walk.store.clock = .ok answer :=
            list_approvals_answers positive fits isBefore storable fun row member =>
              readable row (same.mem_iff.mp member)
          rw [failed] at answers
          obtain ⟨answer, impossible⟩ := answers
          cases impossible
  | answered page goesOn follows =>
      have apart : Keyset.Apart collation.positionOf matching :=
        same.pairwise tracks.lawful.shown_apart fun differ => differ.symm
      have unfinished : path.next ≠ none := fun ended => goesOn (tracks.follows.ended ended)
      rw [Keyset.Walk.fetch_congr tracks.lawful.shown_apart same] at follows ⊢
      refine ⟨⟨quiet.answered, ?_, ?_, ?_⟩, rfl, ?_⟩
      · rw [Keyset.Walk.fetch_remaining (by omega) apart]
        exact quiet.whole
      · intro stillOn
        obtain ⟨taken, leaves⟩ := Keyset.Walk.fetch_progress (by omega) apart unfinished
          fun ended => stillOn (follows.ended ended)
        refine ⟨?_, fun _ => leaves⟩
        rw [taken, (quiet.full goesOn).1, List.length_append, List.length_singleton, Nat.succ_mul]
      · have room := quiet.next_page positive goesOn
        rw [List.length_append, List.length_singleton]
        omega
      · rw [List.length_append, List.length_singleton]

theorem quiet_start (matching : List ApprovalRequest) (conversations : List Conversation)
    (clock : Int) :
    Quiet request matching (.start conversations clock)
      (Keyset.Walk.start : Keyset.Walk ApprovalRequest (Int ×ₗ collation.Rank)) where
  answered := rfl
  whole := Keyset.behind_none
  full := by
    intro _
    constructor
    · exact (Nat.zero_mul _).symm
    · intro impossible
      exact absurd rfl impossible
  pages := Nat.zero_le _

/-- After the last page every row has been shown. -/
theorem Quiet.shown_all {matching : List ApprovalRequest}
    (tracks : Tracks service collation reader times walk path)
    (quiet : Quiet request matching walk path) (ended : walk.next = none) :
    walk.items.map some =
      (Keyset.newestFirst collation.positionOf matching).map times.respond := by
  have nothing : path.remaining collation.positionOf matching = [] := by
    cases onPath : path.next with
    | none => rw [Keyset.Walk.remaining, onPath]
    | some before =>
        obtain ⟨cursor, _, goesOn, _⟩ := tracks.follows.cursor before onPath
        rw [ended] at goesOn
        cases goesOn
  rw [← quiet.whole, nothing, List.append_nil, tracks.follows.items]

/-- The walk ends: page after page is asked for until there is none. -/
theorem quiet_finishes (deepEnough : 0 < reader.limits.depth) (positive : 1 ≤ request.limit)
    (fits : request.limit ≤ 200) (storable : plain request.tenantId = true)
    {matching : List ApprovalRequest} (readable : ∀ row ∈ matching, (times.respond row).isSome)
    (same : (walk.shown request).Perm matching)
    (tracks : Tracks service collation reader times walk path)
    (quiet : Quiet request matching walk path) :
    ∃ fetches last, (approvalWalk service collation reader times request).run walk
        (List.replicate fetches .fetch) = some last ∧ last.next = none ∧
      last.items.map some =
        (Keyset.newestFirst collation.positionOf matching).map times.respond := by
  obtain ⟨left, isLeft⟩ : ∃ left, matching.length / request.limit.toNat + 1 ≤
      walk.pages.length + left := ⟨_, Nat.le_add_left _ _⟩
  induction left generalizing walk path with
  | zero =>
      have ended : walk.next = none := by
        by_contra goesOn
        have room := quiet.next_page positive goesOn
        omega
      exact ⟨0, walk, rfl, ended, quiet.shown_all tracks ended⟩
  | succ left ih =>
      cases isNext : walk.next with
      | none => exact ⟨0, walk, rfl, isNext, quiet.shown_all tracks isNext⟩
      | some cursor =>
          obtain ⟨after, step⟩ := fetch_step deepEnough positive fits tracks.drawn tracks.follows
            isNext
          obtain ⟨still, sameStore, longer⟩ := quiet_fetch tracks positive fits storable readable
            same step quiet
          have shown : ((walk.fetch collation reader times request cursor).shown request).Perm
              matching := by
            rw [ApprovalWalk.shown, sameStore]
            exact same
          obtain ⟨fetches, last, reached, ended⟩ := ih shown (tracks.fetched positive step) still
            (by omega)
          refine ⟨fetches + 1, last, ?_, ended⟩
          rw [List.replicate_succ, Machine.run_cons]
          refine ⟨walk.fetch collation reader times request cursor, ?_, reached⟩
          simp only [approvalWalk, ApprovalWalk.step, isNext, Option.map_some]

/-! ## Every walk -/

/-- What a failure can be, and that only the last page is without a cursor. -/
structure AnsweredPages (walk : ApprovalWalk) : Prop where
  failures : ∀ failure ∈ walk.failures, failure = .raised .dataError
  earlier : ∀ page ∈ walk.pages.dropLast, page.nextCursor.isSome

theorem AnsweredPages.pages (answered : AnsweredPages walk) (goesOn : walk.next ≠ none) :
    ∀ page ∈ walk.pages, page.nextCursor.isSome := by
  intro page member
  rcases List.eq_nil_or_concat walk.pages with empty | ⟨front, last, isConcat⟩
  · rw [empty] at member
    cases member
  · rw [List.concat_eq_append] at isConcat
    have earlier := answered.earlier
    rw [isConcat, List.dropLast_concat] at earlier
    rw [isConcat, List.mem_append, List.mem_singleton] at member
    rcases member with inFront | rfl
    · exact earlier page inFront
    · rw [ApprovalWalk.next, isConcat, List.getLast?_concat] at goesOn
      simpa [Option.isSome_iff_ne_none] using goesOn

theorem answered_fetch {after : Keyset.Walk ApprovalRequest (Int ×ₗ collation.Rank)}
    (step : FetchStep collation reader times request walk path next after)
    (answered : AnsweredPages walk) : AnsweredPages next := by
  cases step with
  | failed cursor isNext failed =>
      refine ⟨?_, answered.earlier⟩
      intro failure member
      rcases List.mem_append.mp member with earlier | isNew
      · exact answered.failures failure earlier
      · exact List.mem_singleton.mp isNew
  | answered page goesOn follows =>
      refine ⟨answered.failures, ?_⟩
      rw [List.dropLast_concat]
      exact answered.pages goesOn

section Runs

variable (deepEnough : 0 < reader.limits.depth) (positive : 1 ≤ request.limit)
  (fits : request.limit ≤ 200) {conversations : List Conversation} {clock : Int}
  {labels : List WalkLabel} {final : ApprovalWalk}
  (reached : (approvalWalk service collation reader times request).run
    (.start conversations clock) labels = some final)

include deepEnough positive fits reached

theorem walk_answered :
    ∃ path, Tracks service collation reader times final path ∧ Kept final path ∧
      AnsweredPages final := by
  have always := (approvalWalk service collation reader times request).each_step_of_forall
    (fun _ _ _ => trivial : ∀ _ _ _, True) (.start conversations clock) labels
  apply run_tracks deepEnough positive fits _ (fun walk path => Kept walk path ∧ AnsweredPages walk)
    _ _ always reached
  · refine ⟨.start, tracks_start conversations clock, ?_, ?_⟩
    · intro row member
      cases member
    · exact ⟨fun _ member => (nomatch member), fun _ member => (nomatch member)⟩
  · rintro walk path store stay ⟨kept, answered⟩
    refine ⟨?_, ⟨answered.failures, answered.earlier⟩⟩
    intro row member
    obtain ⟨version, versionMem, advanced⟩ := kept row member
    obtain ⟨later, laterMem, further⟩ := stay version versionMem
    exact ⟨later, laterMem, advanced.trans further⟩
  · rintro walk path next after tracks - step ⟨kept, answered⟩
    exact ⟨kept_fetch step kept, answered_fetch step answered⟩

theorem walk_finds {createdAt : Int} {id : String}
    (matched : (approvalWalk service collation reader times request).EachStep
      (fun walk label _ => label = .fetch →
        walk.Passed collation createdAt id ∨ walk.Matches request createdAt id)
      (.start conversations clock) labels)
    (passed : final.Passed collation createdAt id) :
    ∃ item ∈ final.items, item.id = id ∧ item.createdAt.instant = some createdAt := by
  obtain ⟨path, tracks, found⟩ := run_tracks deepEnough positive fits _
    (fun _ path => Found collation createdAt id path) (fun _ _ _ _ found => found)
    (fun _ _ _ _ tracks held step found =>
      found_fetch tracks positive (held rfl) step found) matched reached
    ⟨.start, tracks_start conversations clock, by
      intro impossible
      rcases impossible with ended | ⟨row, member, _⟩
      · cases ended
      · cases member⟩
  obtain ⟨row, member, isHere⟩ := found ((tracks.follows.passed_iff createdAt id).mp passed)
  obtain ⟨sameTime, sameId⟩ := (collation.position_eq_iff _ _ _ _).mp isHere
  obtain ⟨item, itemMem, shown⟩ := tracks.follows.item_of_row member
  obtain ⟨itemId, itemTime⟩ := respond_fields shown
  exact ⟨item, itemMem, itemId.trans sameId, by rw [itemTime, sameTime]⟩

theorem walk_quiet (storable : plain request.tenantId = true) {matching : List ApprovalRequest}
    (readable : ∀ row ∈ matching, (times.respond row).isSome)
    (stays : (approvalWalk service collation reader times request).EachStep
      (fun walk label _ => label = .fetch → (walk.shown request).Perm matching)
      (.start conversations clock) labels) :
    ∃ path, Tracks service collation reader times final path ∧
      Quiet request matching final path :=
  run_tracks deepEnough positive fits _ (fun walk path => Quiet request matching walk path)
    (fun _ _ _ _ quiet => ⟨quiet.answered, quiet.whole, quiet.full, quiet.pages⟩)
    (fun _ _ _ _ tracks held step quiet =>
      (quiet_fetch tracks positive fits storable readable (held rfl) step quiet).1) stays reached
    ⟨.start, tracks_start conversations clock, quiet_start matching conversations clock⟩

end Runs

end Follows

/-- Whatever happens to the table between the pages, the client's own cursors are read, and the
pages show the approvals in order, none of them twice, and none is missed that matches at every
fetch until its position is passed. While the rows that match stay the same, the walk ends with
exactly these rows. -/
theorem approval_walk_complete (service : ExecutionService) (collation : Collation)
    (reader : CursorReader) (deepEnough : 0 < reader.limits.depth) (times : TimestampReader)
    (request : PageRequest) (positive : 1 ≤ request.limit) (fits : request.limit ≤ 200)
    (conversations : List Conversation) (clock : Int) (labels : List WalkLabel)
    (final : ApprovalWalk)
    (reached : (approvalWalk service collation reader times request).run
      (.start conversations clock) labels = some final) :
    (∀ failure ∈ final.failures, failure = .raised .dataError) ∧
    final.items.Pairwise (ShownBefore collation) ∧
    (final.items.map ApprovalResponse.id).Nodup ∧
    (∀ page ∈ final.pages.dropLast, page.nextCursor.isSome) ∧
    (∀ createdAt id,
      (approvalWalk service collation reader times request).EachStep
          (fun walk label _ => label = .fetch →
            walk.Passed collation createdAt id ∨ walk.Matches request createdAt id)
          (.start conversations clock) labels →
        final.Passed collation createdAt id →
          ∃ item ∈ final.items, item.id = id ∧ item.createdAt.instant = some createdAt) ∧
    (plain request.tenantId = true → ∀ matching : List ApprovalRequest,
      (∀ row ∈ matching, (times.respond row).isSome) →
        (approvalWalk service collation reader times request).EachStep
            (fun walk label _ => label = .fetch → (walk.shown request).Perm matching)
            (.start conversations clock) labels →
          final.failures = [] ∧
          final.pages.length ≤ matching.length / request.limit.toNat + 1 ∧
          (final.next = none → final.items.map some =
            (Keyset.newestFirst collation.positionOf matching).map times.respond) ∧
          ((final.shown request).Perm matching → ∃ fetches last,
            (approvalWalk service collation reader times request).run final
                (List.replicate fetches .fetch) = some last ∧
              last.next = none ∧ last.items.map some =
                (Keyset.newestFirst collation.positionOf matching).map times.respond)) := by
  obtain ⟨path, tracks, kept, answered⟩ := walk_answered deepEnough positive fits reached
  refine ⟨answered.failures, tracks.decreasing, tracks.distinct kept, answered.earlier, ?_, ?_⟩
  · intro createdAt id matched passed
    exact walk_finds deepEnough positive fits reached matched passed
  · intro storable matching readable stays
    obtain ⟨path, tracks, quiet⟩ :=
      walk_quiet deepEnough positive fits reached storable readable stays
    refine ⟨quiet.answered, quiet.pages, quiet.shown_all tracks, ?_⟩
    intro same
    exact quiet_finishes deepEnough positive fits storable readable same tracks quiet

/-! ## A recorded walk -/

namespace Recorded

def inJanuary (instant : Nat) : DateFields where
  year := 1970
  month := 1
  day := instant / 86400000000 + 1
  hour := instant / 3600000000 % 24
  minute := instant / 60000000 % 60
  second := instant / 1000000 % 60
  microsecond := instant % 1000000
  offset := some 0

theorem in_january_valid {instant : Nat} (early : instant < 31 * 86400000000) :
    (inJanuary instant).Valid where
  year := by simp [inJanuary]
  month := by simp [inJanuary]
  day := by
    have days : daysInMonth 1970 1 = 31 := rfl
    simp only [inJanuary, days]
    omega
  hour := Nat.mod_lt _ (by decide)
  minute := Nat.mod_lt _ (by decide)
  second := Nat.mod_lt _ (by decide)
  microsecond := Nat.mod_lt _ (by decide)
  offset := by
    intro offset isOffset
    cases isOffset
    decide

/-- The times of January 1970 in UTC. -/
def january : TimestampReader where
  read instant :=
    match instant with
    | .ofNat instant =>
        if early : instant < 31 * 86400000000 then
          some ⟨inJanuary instant, in_january_valid early⟩
        else none
    | .negSucc _ => none
  sound := by
    intro instant time isRead
    cases instant with
    | ofNat instant =>
        simp only at isRead
        split at isRead
        · cases isRead
          have day : (inJanuary instant).ordinal = 719163 + instant / 86400000000 := by
            simp only [inJanuary, DateFields.ordinal, daysBefore]
            simp
            omega
          have whole : (inJanuary instant).since1970 0 = instant := by
            simp only [DateFields.since1970, day]
            simp only [inJanuary]
            omega
          exact congrArg some whole
        · cases isRead
    | negSucc instant => cases isRead

/-- A message about another action each, written at the given time of the host. -/
def written (index : Nat) (key : String) (id : Fin 16) (now : Int) : List WalkLabel :=
  [.store (.call (.createPending (legacyMessage key))), .store (.statement index (.host now)),
    .store (.statement index (.drawn (uuid id) (uuid 0))), .store (.statement index .nothing)]

/-- Two messages of one time, with a page ending between them, and a later one. After the first page
another message comes in, and the one that has not been shown yet is decided. -/
def walkLabels : List WalkLabel :=
  .store (.createConversation conversation) ::
    (written 0 "first" 1 0 ++ written 1 "second" 2 0 ++ written 2 "third" 3 7 ++ [.fetch] ++
      written 3 "fourth" 4 9 ++ (decision 4 (uuid 1)).map .store ++ [.fetch])

def twoPerPage : PageRequest := ⟨"t-1", 2, none, none⟩

/-- Other inputs than the ones a cursor is written in are refused. -/
def strictReader : CursorReader :=
  ⟨⟨1000, 4300⟩, fun _ => .valueError, fun _ => none, fun _ => none⟩

theorem walk_labels_run :
    ((approvalWalk orderService .byCodePoint strictReader january twoPerPage).run (.start [] 0)
      walkLabels).map (fun final => (final.items.map fun item => (item.id, item.status),
        final.next, final.failures)) =
    some ([((uuid 3).text, "PENDING"), ((uuid 2).text, "PENDING"), ((uuid 1).text, "APPROVED")],
      none, []) := by
  decide +kernel

end Recorded

theorem approval_walk_complete_two_per_page :
    ∃ final, (approvalWalk Recorded.orderService .byCodePoint Recorded.strictReader
          Recorded.january Recorded.twoPerPage).run (.start [] 0) Recorded.walkLabels =
        some final ∧
      final.items.map (fun item => (item.id, item.status)) =
        [((Recorded.uuid 3).text, "PENDING"), ((Recorded.uuid 2).text, "PENDING"),
          ((Recorded.uuid 1).text, "APPROVED")] ∧
      final.items.Pairwise (ShownBefore .byCodePoint) := by
  obtain ⟨final, reached, seen⟩ := Option.map_eq_some_iff.mp Recorded.walk_labels_run
  have walked := approval_walk_complete Recorded.orderService .byCodePoint Recorded.strictReader
    (by decide) Recorded.january Recorded.twoPerPage (by decide) (by decide) [] 0
    Recorded.walkLabels final reached
  exact ⟨final, reached, congrArg Prod.fst seen, walked.2.1⟩

end AgentHarness.Approval
