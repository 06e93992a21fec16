import AgentHarness.Adapter.ExecutionDecision
import AgentHarness.Approval.StableKey

/-!
# A decision is never undone

The row lock orders the answers for one grant: a call that has locked the row before another one
has returned, and the later call has read a row that already shows the earlier answer.
-/

namespace AgentHarness.Approval

open AgentHarness.Library AgentHarness.Conversations AgentHarness.Executions ApprovalRequest

set_option autoImplicit false

/-! ## The order of the row locks -/

def lockedRow : Call → Option ApprovalRequest
  | .prepare _ (.locked _ row _) => some row
  | .prepare _ (.judged judgement) | .prepare _ (.issued judgement)
  | .prepare _ (.returned judgement) => some judgement.row
  | _ => none

def readAt : Call → Option Int
  | .prepare _ (.judged judgement) | .prepare _ (.issued judgement)
  | .prepare _ (.returned judgement) => some judgement.now
  | _ => none

def answerOf : Call → Option Judgement
  | .prepare _ (.returned judgement) => some judgement
  | _ => none

def pastLock : Call → Bool
  | .prepare _ .crashed => true
  | call => (lockedRow call).isSome

/-- A later version of the row shows what the judgement has decided. -/
structure Reflects (judgement : Judgement) (row : ApprovalRequest) : Prop where
  advances : Advances judgement.row row
  issued : judgement.issues = true → row.status = .consumed

/-- What a call knows of one that locked the same row before it. -/
def Precedes (first second : Call) : Prop :=
  ∀ row other, lockedRow first = some row → lockedRow second = some other → row.id = other.id →
    ∃ judgement, answerOf first = some judgement ∧ Reflects judgement other ∧
      ∀ now, readAt second = some now → judgement.now ≤ now

structure Ordered (world : World) : Prop where
  nodup : world.locks.Nodup
  known : ∀ caller ∈ world.locks, ∃ call, world.calls[caller]? = some call ∧ pastLock call = true
  listed : ∀ caller call, world.calls[caller]? = some call → (lockedRow call).isSome = true →
    caller ∈ world.locks
  precedes : world.locks.Pairwise fun earlier later => ∀ first second,
    world.calls[earlier]? = some first → world.calls[later]? = some second →
      Precedes first second

theorem precedes_idle {first second : Call} (idle : lockedRow second = none) :
    Precedes first second := by
  intro row other _ isOther
  rw [idle] at isOther
  cases isOther

variable {service : ExecutionService} {world next : World} {caller : Nat}

/-- A step of one call that takes no lock: it lets its row go, or it goes on with the row it
had before it returned. -/
theorem ordered_put (ordered : Ordered world) {before after : Call}
    (here : world.calls[caller]? = some before)
    (calls : next.calls = world.calls.set caller after) (locks : next.locks = world.locks)
    (past : pastLock before = true → pastLock after = true)
    (goesOn : lockedRow after = none ∨
      (lockedRow after = lockedRow before ∧ answerOf before = none))
    (reads : ∀ judgement now, (∃ other, other ∈ world.calls ∧ answerOf other = some judgement) →
      readAt after = some now → readAt before = some now ∨ judgement.now ≤ now) :
    Ordered next := by
  have inRange := (List.getElem?_eq_some_iff.mp here).1
  have self : next.calls[caller]? = some after := by
    rw [calls, List.getElem?_set_self inRange]
  have other : ∀ index, index ≠ caller → next.calls[index]? = world.calls[index]? := by
    intro index apart
    rw [calls, List.getElem?_set_ne apart.symm]
  constructor
  · rw [locks]
    exact ordered.nodup
  · intro index member
    rw [locks] at member
    obtain ⟨call, present, isPast⟩ := ordered.known index member
    by_cases same : index = caller
    · subst same
      rw [here] at present
      cases present
      exact ⟨after, self, past isPast⟩
    · exact ⟨call, (other index same).trans present, isPast⟩
  · intro index call present holds
    rw [locks]
    by_cases same : index = caller
    · subst same
      rw [self] at present
      cases present
      rcases goesOn with idle | ⟨sameRow, _⟩
      · rw [idle] at holds
        cases holds
      · exact ordered.listed index before here (by rw [← sameRow]; exact holds)
    · rw [other index same] at present
      exact ordered.listed index call present holds
  · rw [locks]
    apply (ordered.nodup.and ordered.precedes).imp
    rintro earlier later ⟨apart, precedes⟩ first second isFirst isSecond
    by_cases isLater : later = caller
    · subst isLater
      rw [self] at isSecond
      cases isSecond
      rw [other earlier apart] at isFirst
      rcases goesOn with idle | ⟨sameRow, _⟩
      · exact precedes_idle idle
      · intro row read isRow isRead same
        rw [sameRow] at isRead
        obtain ⟨judgement, answered, reflects, inTime⟩ :=
          precedes first before isFirst here row read isRow isRead same
        refine ⟨judgement, answered, reflects, ?_⟩
        intro now isNow
        rcases reads judgement now ⟨first, List.mem_of_getElem? isFirst, answered⟩ isNow with
          old | passed
        · exact inTime now old
        · exact passed
    · rw [other later isLater] at isSecond
      by_cases isEarlier : earlier = caller
      · subst isEarlier
        rw [self] at isFirst
        cases isFirst
        intro row read isRow isRead same
        rcases goesOn with idle | ⟨sameRow, unanswered⟩
        · rw [idle] at isRow
          cases isRow
        · rw [sameRow] at isRow
          obtain ⟨judgement, answered, _⟩ :=
            precedes before second here isSecond row read isRow isRead same
          rw [unanswered] at answered
          cases answered
      · rw [other earlier isEarlier] at isFirst
        exact precedes first second isFirst isSecond

theorem ordered_extend (ordered : Ordered world) (added : List Call)
    (idle : ∀ call ∈ added, lockedRow call = none) (calls : next.calls = world.calls ++ added)
    (locks : next.locks = world.locks) : Ordered next := by
  have kept : ∀ index ∈ world.locks, next.calls[index]? = world.calls[index]? := by
    intro index member
    obtain ⟨call, present, _⟩ := ordered.known index member
    rw [calls, List.getElem?_append_left (List.getElem?_eq_some_iff.mp present).1]
  constructor
  · rw [locks]
    exact ordered.nodup
  · intro index member
    rw [locks] at member
    obtain ⟨call, present, isPast⟩ := ordered.known index member
    exact ⟨call, (kept index member).trans present, isPast⟩
  · intro index call present holds
    rw [locks]
    rw [calls] at present
    by_cases inRange : index < world.calls.length
    · rw [List.getElem?_append_left inRange] at present
      exact ordered.listed index call present holds
    · rw [List.getElem?_append_right (by omega)] at present
      rw [idle call (List.mem_of_getElem? present)] at holds
      cases holds
  · rw [locks]
    apply ordered.precedes.imp_of_mem
    intro earlier later isEarlier isLater precedes first second isFirst isSecond
    rw [kept earlier isEarlier] at isFirst
    rw [kept later isLater] at isSecond
    exact precedes first second isFirst isSecond

/-- Whoever locked the row before has committed, so the locking read sees its answer. -/
theorem precedes_lock (sound : Sound service world) {request : PrepareRequest}
    {wanted : PrepareExecution} {row : ApprovalRequest} {grant : ExecutionGrant}
    {table : ApprovalTable} (here : world.calls[caller]? = some (.prepare request (.inserted wanted)))
    (locked : world.table.lockWhere caller (isGrantOf wanted) = some ([row], table))
    {index : Nat} {first : Call} (apart : index ≠ caller)
    (present : world.calls[index]? = some first) :
    Precedes first (.prepare request (.locked wanted row grant)) := by
  intro old other isOld isOther same
  cases isOther
  obtain ⟨free, rows, _⟩ := RowStore.update_inversion locked
  rw [List.map_id] at rows
  have selected : row ∈ world.table.select caller (isGrantOf wanted) := by
    rw [← rows]
    exact List.mem_singleton_self row
  obtain ⟨slot, member, seen, matched⟩ := (world.table.mem_select_iff _ _ _).mp selected
  have isFree := free slot member row seen matched
  have isRow := Slot.visible_cases seen isFree
  -- nobody else has written the slot
  have notWritten : ∀ version, Writes world index version → version.id ≠ row.id := by
    rintro version ⟨held, heldMem, written⟩ sameId
    have one := sound.slot_unique heldMem member (Slot.written_mem_versions written)
      (Slot.visible_mem_versions seen) sameId
    subst one
    rcases isRow with own | ⟨unwritten, _⟩
    · rw [own] at written
      cases written
      exact apart rfl
    · rw [unwritten] at written
      cases written
  have ok := sound.calls index first present
  cases first with
  | decide call => cases isOld
  | prepare firstRequest phase =>
      cases phase with
      | locked firstWanted firstRow firstGrant =>
          cases isOld
          exact (notWritten _ ok.2.2 same).elim
      | judged judgement =>
          cases isOld
          exact (notWritten _ ok.2.2.2 same).elim
      | issued judgement =>
          cases isOld
          exact (notWritten _ ok.2.2.2.2 same).elim
      | returned judgement =>
          cases isOld
          obtain ⟨_, _, _, current, currentMem, advances, consumed⟩ := ok
          have sameId : current.id = row.id := advances.id.trans same
          have isCurrent : current = row := by
            obtain ⟨held, heldMem, isCommitted⟩ :=
              (world.table.mem_committed_iff current).mp currentMem
            have one := sound.slot_unique heldMem member (Slot.committed_mem_versions isCommitted)
              (Slot.visible_mem_versions seen) sameId
            subst one
            rcases isRow with own | ⟨_, committed⟩
            · obtain ⟨uncommitted, _⟩ := sound.holds here heldMem own
              rw [uncommitted] at isCommitted
              cases isCommitted
            · rw [committed] at isCommitted
              exact (Option.some.inj isCommitted).symm
          subst isCurrent
          exact ⟨judgement, rfl, ⟨advances, consumed⟩, fun now isNow => by cases isNow⟩
      | called => cases isOld
      | authorized firstWanted => cases isOld
      | began firstWanted now => cases isOld
      | inserted firstWanted => cases isOld
      | raised error => cases isOld
      | crashed => cases isOld

theorem ordered_lock (sound : Sound service world) (ordered : Ordered world)
    {request : PrepareRequest} {wanted : PrepareExecution} {row : ApprovalRequest}
    {grant : ExecutionGrant} {table : ApprovalTable}
    (here : world.calls[caller]? = some (.prepare request (.inserted wanted)))
    (locked : world.table.lockWhere caller (isGrantOf wanted) = some ([row], table))
    (calls : next.calls = world.calls.set caller (.prepare request (.locked wanted row grant)))
    (locks : next.locks = world.locks ++ [caller]) : Ordered next := by
  have inRange := (List.getElem?_eq_some_iff.mp here).1
  have self : next.calls[caller]? = some (.prepare request (.locked wanted row grant)) := by
    rw [calls, List.getElem?_set_self inRange]
  have other : ∀ index, index ≠ caller → next.calls[index]? = world.calls[index]? := by
    intro index apart
    rw [calls, List.getElem?_set_ne apart.symm]
  have fresh : caller ∉ world.locks := by
    intro member
    obtain ⟨call, present, isPast⟩ := ordered.known caller member
    rw [here] at present
    cases present
    cases isPast
  have apart : ∀ index ∈ world.locks, index ≠ caller := by
    rintro index member rfl
    exact fresh member
  constructor
  · rw [locks]
    exact List.nodup_append.mpr ⟨ordered.nodup, List.nodup_singleton caller, by
      intro index member last single
      rw [List.mem_singleton.mp single]
      exact apart index member⟩
  · intro index member
    rw [locks, List.mem_append, List.mem_singleton] at member
    rcases member with old | rfl
    · obtain ⟨call, present, isPast⟩ := ordered.known index old
      exact ⟨call, (other index (apart index old)).trans present, isPast⟩
    · exact ⟨_, self, rfl⟩
  · intro index call present holds
    rw [locks, List.mem_append, List.mem_singleton]
    by_cases same : index = caller
    · exact Or.inr same
    · rw [other index same] at present
      exact Or.inl (ordered.listed index call present holds)
  · rw [locks, List.pairwise_append]
    refine ⟨?_, List.pairwise_singleton _ _, ?_⟩
    · apply ordered.precedes.imp_of_mem
      intro earlier later isEarlier isLater precedes first second isFirst isSecond
      rw [other earlier (apart earlier isEarlier)] at isFirst
      rw [other later (apart later isLater)] at isSecond
      exact precedes first second isFirst isSecond
    · intro earlier isEarlier later single first second isFirst isSecond
      rw [List.mem_singleton.mp single, self] at isSecond
      cases isSecond
      rw [other earlier (apart earlier isEarlier)] at isFirst
      exact precedes_lock sound here locked (apart earlier isEarlier) isFirst

/-- A step after which the call has no row locked. -/
theorem ordered_idle (ordered : Ordered world) {before after : Call}
    (here : world.calls[caller]? = some before)
    (calls : next.calls = world.calls.set caller after) (locks : next.locks = world.locks)
    (past : pastLock before = true → pastLock after = true) (idle : lockedRow after = none)
    (unread : readAt after = none) : Ordered next := by
  apply ordered_put ordered here calls locks past (Or.inl idle)
  intro judgement now _ isNow
  rw [unread] at isNow
  cases isNow

theorem answer_in_time (sound : Sound service world) {call : Call} (member : call ∈ world.calls)
    {judgement : Judgement} (answered : answerOf call = some judgement) :
    judgement.now ≤ world.clock := by
  obtain ⟨index, present⟩ := List.getElem?_of_mem member
  have ok := sound.calls index call present
  unfold answerOf at answered
  split at answered
  · cases answered
    exact ok.2.2.1
  · cases answered

theorem ordered_prepare_statement (sound : Sound service world) (ordered : Ordered world)
    {request : PrepareRequest} {phase after : PreparePhase} {table : ApprovalTable} {locks : Bool}
    (here : world.calls[caller]? = some (.prepare request phase))
    (ran : PrepareStep service world caller request phase after table locks)
    (calls : next.calls = world.calls.set caller (.prepare request after))
    (isLocks : next.locks = if locks then world.locks ++ [caller] else world.locks) :
    Ordered next := by
  cases ran with
  | lock wanted row grant table isGrant locked =>
      exact ordered_lock sound ordered here locked calls isLocks
  | readClock wanted row grant =>
      apply ordered_put ordered here calls isLocks (fun past => past) (Or.inr ⟨rfl, rfl⟩)
      rintro judgement now ⟨other, member, answered⟩ isNow
      cases isNow
      exact Or.inr (answer_in_time sound member answered)
  | issue judgement rows table issues updated =>
      exact ordered_put ordered here calls isLocks (fun past => past) (Or.inr ⟨rfl, rfl⟩)
        fun _ _ _ isNow => Or.inl isNow
  | answer judgement keeps =>
      exact ordered_put ordered here calls isLocks (fun past => past) (Or.inr ⟨rfl, rfl⟩)
        fun _ _ _ isNow => Or.inl isNow
  | finish judgement =>
      exact ordered_put ordered here calls isLocks (fun past => past) (Or.inr ⟨rfl, rfl⟩)
        fun _ _ _ isNow => Or.inl isNow
  | _ => exact ordered_idle ordered here calls isLocks (fun past => by cases past) rfl rfl

theorem ordered_step {label : Label} (sound : Sound service world) (ordered : Ordered world)
    (stepped : (approvals service).step world label = some next) : Ordered next := by
  cases world_step_of_step service world next label stepped with
  | tick duration => exact ordered_extend ordered [] (by simp) (by simp) rfl
  | createConversation row conversations created =>
      exact ordered_extend ordered [] (by simp) (by simp) rfl
  | prepare request =>
      exact ordered_extend ordered [.prepare request .called] (by simp [lockedRow]) rfl rfl
  | decide request =>
      exact ordered_extend ordered [.decide ⟨request, .called, none, false⟩] (by simp [lockedRow])
        rfl rfl
  | prepareStatement caller input request phase after table locks here ran =>
      exact ordered_prepare_statement sound ordered here ran rfl rfl
  | decideStatement caller input call after table here ran =>
      exact ordered_idle ordered here rfl rfl (fun past => by cases past) rfl rfl
  | crash caller call after here stops =>
      rcases crashed_cases stops with ⟨request, phase, rfl, rfl⟩ | ⟨call, rfl, rfl⟩
      · exact ordered_idle ordered here rfl rfl (fun _ => rfl) rfl rfl
      · exact ordered_idle ordered here rfl rfl (fun past => by cases past) rfl rfl

theorem ordered_run {conversations : List Conversation} {legacy : List ApprovalRequest}
    (isLegacy : Legacy legacy) {clock : Int} {labels : List Label} {final : World}
    (reached : (approvals service).run (World.start conversations legacy clock) labels =
      some final) : Sound service final ∧ Ordered final := by
  apply (approvals service).run_invariant (fun state => Sound service state ∧ Ordered state) _
    ⟨sound_start conversations isLegacy clock, ?_⟩ reached
  · rintro state label next ⟨sound, ordered⟩ stepped
    exact ⟨sound_step sound stepped, ordered_step sound ordered stepped⟩
  · constructor
    · exact List.nodup_nil
    · intro caller member
      cases member
    · intro caller call present _
      simp [World.start] at present
    · exact List.Pairwise.nil

/-! ## The language of the answers -/

/-- `PENDING* (AUTHORIZED* | REJECTED*) EXPIRED*`. -/
def IsDecisionWord (statuses : List String) : Prop :=
  ∃ pending authorized rejected expired : Nat, (authorized = 0 ∨ rejected = 0) ∧
    statuses = List.replicate pending "PENDING" ++ (List.replicate authorized "AUTHORIZED" ++
      (List.replicate rejected "REJECTED" ++ List.replicate expired "EXPIRED"))

/-- The statuses that may come after a status. -/
def MayFollow (earlier later : String) : Prop :=
  earlier = "PENDING" ∨ later = earlier ∨ later = "EXPIRED"

def wireStatuses : List String := ["PENDING", "AUTHORIZED", "REJECTED", "EXPIRED"]

theorem word_of_expired {statuses : List String}
    (expired : ∀ status ∈ statuses, status = "EXPIRED") :
    statuses = List.replicate statuses.length "EXPIRED" :=
  List.eq_replicate_iff.mpr ⟨rfl, expired⟩

theorem word_of_repeated (first : String) {rest : List String}
    (follow : ∀ status ∈ rest, status = first ∨ status = "EXPIRED")
    (ordered : rest.Pairwise MayFollow) (decided : first ≠ "PENDING") (last : first ≠ "EXPIRED") :
    ∃ repeated expired, rest = List.replicate repeated first ++
      List.replicate expired "EXPIRED" := by
  induction rest with
  | nil => exact ⟨0, 0, rfl⟩
  | cons status rest ih =>
      obtain ⟨later, tail⟩ := List.pairwise_cons.mp ordered
      rcases follow status (by simp) with rfl | rfl
      · obtain ⟨repeated, expired, shape⟩ :=
          ih (fun other member => follow other (by simp [member])) tail
        exact ⟨repeated + 1, expired, by rw [shape]; rfl⟩
      · have allExpired : ∀ other ∈ rest, other = "EXPIRED" := by
          intro other member
          rcases later other member with isPending | same | isExpired
          · exact absurd isPending (by decide)
          · exact same
          · exact isExpired
        exact ⟨0, rest.length + 1, by rw [word_of_expired allExpired]; simp [List.replicate_succ]⟩

theorem decision_word {statuses : List String} (wire : ∀ status ∈ statuses, status ∈ wireStatuses)
    (ordered : statuses.Pairwise MayFollow) : IsDecisionWord statuses := by
  induction statuses with
  | nil => exact ⟨0, 0, 0, 0, Or.inl rfl, rfl⟩
  | cons first rest ih =>
      obtain ⟨later, tail⟩ := List.pairwise_cons.mp ordered
      have follow : first ≠ "PENDING" → ∀ status ∈ rest, status = first ∨ status = "EXPIRED" := by
        intro decided status member
        rcases later status member with isPending | rest
        · exact absurd isPending decided
        · exact rest
      have isWire := wire first (by simp)
      simp only [wireStatuses, List.mem_cons, List.not_mem_nil, or_false] at isWire
      rcases isWire with rfl | rfl | rfl | rfl
      · obtain ⟨pending, authorized, rejected, expired, one, shape⟩ :=
          ih (fun status member => wire status (by simp [member])) tail
        exact ⟨pending + 1, authorized, rejected, expired, one, by rw [shape]; rfl⟩
      · obtain ⟨repeated, expired, shape⟩ :=
          word_of_repeated _ (follow (by decide)) tail (by decide) (by decide)
        exact ⟨0, repeated + 1, 0, expired, Or.inr rfl, by rw [shape]; rfl⟩
      · obtain ⟨repeated, expired, shape⟩ :=
          word_of_repeated _ (follow (by decide)) tail (by decide) (by decide)
        exact ⟨0, 0, repeated + 1, expired, Or.inl rfl, by rw [shape]; rfl⟩
      · have allExpired : ∀ other ∈ rest, other = "EXPIRED" := by
          intro other member
          rcases follow (by decide) other member with same | same
          · exact same
          · exact same
        refine ⟨0, 0, 0, rest.length + 1, Or.inl rfl, ?_⟩
        rw [word_of_expired allExpired]
        simp [List.replicate_succ]

/-- A judgement of a row that shows an earlier judgement does not take it back. -/
theorem judge_follows {judgement : Judgement} {row : ApprovalRequest} {now : Int}
    (reflects : Reflects judgement row) (later : judgement.now ≤ now) :
    MayFollow judgement.decision.status (judge row judgement.grant now) := by
  have leads := reflects.advances.status
  rcases judge_cases judgement.row judgement.grant judgement.now with ⟨status, expired⟩ |
    ⟨status, inTime, issued⟩ | ⟨status, _, _⟩ | ⟨status, _, isRejected⟩
  · refine Or.inr (Or.inr ?_)
    rw [judge, if_pos (expired.trans later)]
  · have isConsumed : row.status = .consumed := by
      rcases issued with isApproved | isConsumed
      · apply reflects.issued
        simp [Judgement.issues, issuesAt, inTime, isApproved]
      · rw [isConsumed] at leads
        simpa [Status.leadsTo] using leads
    rcases judge_cases row judgement.grant now with ⟨other, _⟩ | ⟨other, _⟩ | ⟨_, _, isPending⟩ |
      ⟨_, _, isRejected⟩
    · exact Or.inr (Or.inr other)
    · exact Or.inr (Or.inl (other.trans status.symm))
    · rw [isConsumed] at isPending
      cases isPending
    · rw [isConsumed] at isRejected
      cases isRejected
  · exact Or.inl status
  · have stays : row.status = .rejected := by
      rw [isRejected] at leads
      simpa [Status.leadsTo] using leads
    rcases judge_cases row judgement.grant now with ⟨other, _⟩ | ⟨_, _, isApproved | isConsumed⟩ |
      ⟨_, _, isPending⟩ | ⟨other, _⟩
    · exact Or.inr (Or.inr other)
    · rw [stays] at isApproved
      cases isApproved
    · rw [stays] at isConsumed
      cases isConsumed
    · rw [stays] at isPending
      cases isPending
    · exact Or.inr (Or.inl (other.trans status.symm))

/-! ## The answers of a run -/

namespace World

def answerFor (world : World) (action : Action) (caller : Nat) : Option ExecutionDecision :=
  (world.calls[caller]?.bind answerOf).bind fun judgement =>
    if (actionOf judgement.wanted).Same action then some judgement.decision else none

/-- The decisions returned for an action, in the order of the row locks. -/
def answers (world : World) (action : Action) : List ExecutionDecision :=
  world.locks.filterMap (world.answerFor action)

end World

theorem answer_of_eq_some_iff (call : Call) (judgement : Judgement) :
    answerOf call = some judgement ↔ ∃ request, call = .prepare request (.returned judgement) := by
  constructor
  · intro answered
    unfold answerOf at answered
    split at answered
    · cases answered
      exact ⟨_, rfl⟩
    · cases answered
  · rintro ⟨request, rfl⟩
    rfl

theorem answer_for_eq_some_iff (action : Action) (index : Nat) (decision : ExecutionDecision) :
    world.answerFor action index = some decision ↔
      ∃ request judgement, world.calls[index]? = some (.prepare request (.returned judgement)) ∧
        (actionOf judgement.wanted).Same action ∧ judgement.decision = decision := by
  simp only [World.answerFor, Option.bind_eq_some_iff, answer_of_eq_some_iff,
    Option.ite_none_right_eq_some, Option.some.injEq]
  constructor
  · rintro ⟨judgement, ⟨call, present, request, rfl⟩, same, isDecision⟩
    exact ⟨request, judgement, present, same, isDecision⟩
  · rintro ⟨request, judgement, present, same, isDecision⟩
    exact ⟨judgement, ⟨_, present, request, rfl⟩, same, isDecision⟩

/-- Two answers for one action, the first from a call that locked the row earlier. -/
theorem answers_follow (sound : Sound service world) {action : Action} {first second : Call}
    {earlier later : Nat} (isFirst : world.calls[earlier]? = some first)
    (isSecond : world.calls[later]? = some second) (precedes : Precedes first second)
    {decision other : ExecutionDecision} (answered : world.answerFor action earlier = some decision)
    (otherAnswered : world.answerFor action later = some other) :
    MayFollow decision.status other.status ∧ other.approvalId = decision.approvalId ∧
      other.expiresAt = decision.expiresAt := by
  obtain ⟨request, judgement, present, same, rfl⟩ := (answer_for_eq_some_iff ..).mp answered
  obtain ⟨request', judgement', present', same', rfl⟩ :=
    (answer_for_eq_some_iff ..).mp otherAnswered
  obtain ⟨prepared, row, isAnswer⟩ := sound.answered present
  obtain ⟨prepared', row', isAnswer'⟩ := sound.answered present'
  have actions := same.trans same'.symm
  have keys : judgement.wanted.approvalKey = judgement'.wanted.approvalKey := by
    rw [prepared.asks.approvalKey, prepared'.asks.approvalKey,
      (Action.canonical_eq_iff _ _).mpr actions]
  obtain ⟨ids, grants⟩ := sound.same_answer isAnswer isAnswer' actions.conversationId keys
  rw [isFirst] at present
  rw [isSecond] at present'
  cases present
  cases present'
  obtain ⟨shown, isShown, reflects, inTime⟩ := precedes judgement.row judgement'.row rfl rfl ids
  cases isShown
  refine ⟨?_, ids.symm, congrArg ExecutionGrant.expiresAt grants.symm⟩
  have follows := judge_follows reflects (inTime judgement'.now rfl)
  rw [grants] at follows
  exact follows

/-- The adapter reads every decision the service returns. -/
structure Readable (decision : ExecutionDecision) : Prop where
  wire : decision.status ∈ wireStatuses
  carries : decision.executionId.isSome = true ↔ decision.status = "AUTHORIZED"
  accepted : ∃ response read, Adapter.ExecutionResponse.ofDecision decision = some response ∧
    Adapter.ExecutionDecision.read response.body = some read ∧
    read.status.name = decision.status ∧ read.approvalId.text = decision.approvalId ∧
    read.executionId.map Uuid.text = decision.executionId ∧ read.expiresAt = decision.expiresAt

theorem readable_decision {judgement : Judgement} {id executionId : Uuid}
    (isId : judgement.row.id = id.text) (isExecution : judgement.grant.executionId = executionId.text) :
    Readable judgement.decision := by
  have carries : judgement.decision.executionId =
      if judgement.decision.status = "AUTHORIZED" then some executionId.text else none := by
    rw [← isExecution]
    rfl
  have isApproval : judgement.decision.approvalId = id.text := isId
  have cases := judge_cases judgement.row judgement.grant judgement.now
  have wire : ∃ status : Adapter.Status, judgement.decision.status = status.name := by
    rcases cases with ⟨status, _⟩ | ⟨status, _⟩ | ⟨status, _⟩ | ⟨status, _⟩
    · exact ⟨.expired, status⟩
    · exact ⟨.authorized, status⟩
    · exact ⟨.pending, status⟩
    · exact ⟨.rejected, status⟩
  obtain ⟨status, isStatus⟩ := wire
  have isAuthorized : judgement.decision.status = "AUTHORIZED" ↔ status = .authorized := by
    rw [isStatus]
    cases status <;> decide
  have complete : status = .authorized ↔
      (if status = .authorized then some executionId else none).isSome = true := by
    split_ifs with same <;> simp [same]
  have carried : judgement.decision.executionId =
      (if status = .authorized then some executionId else none).map Uuid.text := by
    rw [carries]
    split_ifs with named same same
    · rfl
    · exact absurd (isAuthorized.mp named) same
    · exact absurd (isAuthorized.mpr same) named
    · rfl
  obtain ⟨response, validated, read⟩ :=
    Adapter.read_of_decision isStatus isApproval carried complete
  refine ⟨?_, ?_, response, _, validated, read, isStatus.symm, isApproval.symm, carried.symm, rfl⟩
  · rw [isStatus]
    cases status <;> decide
  · rw [carries]
    split_ifs with named <;> simp [named]

theorem Sound.readable (sound : Sound service world) {caller : Nat} {request : PrepareRequest}
    {judgement : Judgement}
    (returned : world.calls[caller]? = some (.prepare request (.returned judgement))) :
    Readable judgement.decision := by
  obtain ⟨_, row, answered⟩ := sound.answered returned
  obtain ⟨_, _, _, _, _, id, executionId, isId, isExecution⟩ :=
    (sound.minted_row answered.member).origin answered.grant
  exact readable_decision (answered.id.symm.trans isId) isExecution

/-- The answers for one action form a word in which no decision is undone, all of them name one
approval and one expiry, and the adapter accepts each of them. -/
theorem decisions_never_undone (conversations : List Conversation)
    (legacy : List ApprovalRequest) (isLegacy : Legacy legacy) (clock : Int) (labels : List Label)
    (final : World)
    (reached : (approvals service).run (World.start conversations legacy clock) labels =
      some final) (action : Action) :
    IsDecisionWord ((final.answers action).map ExecutionDecision.status) ∧
      (final.answers action).Pairwise (fun earlier later =>
        later.approvalId = earlier.approvalId ∧ later.expiresAt = earlier.expiresAt) ∧
      (∀ decision ∈ final.answers action, Readable decision) ∧
      (∀ decision, final.Returned service action decision → decision ∈ final.answers action) := by
  obtain ⟨sound, ordered⟩ := ordered_run isLegacy reached
  have readable : ∀ decision ∈ final.answers action, Readable decision := by
    intro decision member
    obtain ⟨index, _, answered⟩ := List.mem_filterMap.mp member
    obtain ⟨request, judgement, present, _, rfl⟩ := (answer_for_eq_some_iff ..).mp answered
    exact sound.readable present
  have follow : (final.answers action).Pairwise fun earlier later =>
      MayFollow earlier.status later.status ∧ later.approvalId = earlier.approvalId ∧
        later.expiresAt = earlier.expiresAt := by
    apply List.Pairwise.filterMap (final.answerFor action) _ ordered.precedes
    intro earlier later precedes decision answered other otherAnswered
    obtain ⟨request, judgement, present, _⟩ := (answer_for_eq_some_iff ..).mp answered
    obtain ⟨request', judgement', present', _⟩ := (answer_for_eq_some_iff ..).mp otherAnswered
    exact answers_follow sound present present' (precedes _ _ present present') answered
      otherAnswered
  refine ⟨?_, follow.imp fun facts => facts.2, readable, ?_⟩
  · apply decision_word
    · intro status member
      obtain ⟨decision, isAnswer, rfl⟩ := List.mem_map.mp member
      exact (readable decision isAnswer).wire
    · rw [List.pairwise_map]
      exact follow.imp fun facts => facts.1
  · rintro decision ⟨index, request, wanted, judgement, present, authorized, rfl, rfl⟩
    obtain ⟨prepared, _⟩ := sound.answered present
    have isWanted : judgement.wanted = wanted :=
      Except.ok.inj (prepared.authorized.symm.trans authorized)
    subst isWanted
    exact List.mem_filterMap.mpr ⟨index, ordered.listed index _ present rfl,
      (answer_for_eq_some_iff ..).mpr ⟨request, judgement, present, Action.Same.refl _, rfl⟩⟩

theorem approved_twice_statuses :
    ((approvals Recorded.orderService).run (World.start [Recorded.conversation] [] 0)
      Recorded.approvedTwice).map (fun final =>
        (final.answers (actionOf Recorded.wanted)).map ExecutionDecision.status) =
      some ["PENDING", "AUTHORIZED", "AUTHORIZED"] := by
  decide +kernel

theorem decisions_never_undone_approved_twice :
    ∃ final, (approvals Recorded.orderService).run (World.start [Recorded.conversation] [] 0)
        Recorded.approvedTwice = some final ∧
      (final.answers (actionOf Recorded.wanted)).map ExecutionDecision.status =
        ["PENDING", "AUTHORIZED", "AUTHORIZED"] ∧
      IsDecisionWord ["PENDING", "AUTHORIZED", "AUTHORIZED"] := by
  obtain ⟨final, reached, statuses⟩ := Option.map_eq_some_iff.mp approved_twice_statuses
  have word := (decisions_never_undone [Recorded.conversation] [] legacy_nil 0
    Recorded.approvedTwice _ reached (actionOf Recorded.wanted)).1
  rw [statuses] at word
  exact ⟨final, reached, statuses, word⟩

end AgentHarness.Approval
