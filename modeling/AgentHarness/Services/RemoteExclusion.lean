import AgentHarness.Services.ServiceEffects

/-!
# Exclusion on the remote side

The slot table forgets a task when it ends, although the remote operation may still run. The
invariant therefore counts the keys in the table together with the keys of the lost operations:
they are distinct and within the limit, and once something is lost nothing is admitted.
-/

namespace AgentHarness.Services

open AgentHarness.Library AgentHarness.Events AgentHarness.Runtime AgentHarness.Conversations

set_option autoImplicit false

namespace Service

/-- Operations that have started and neither returned nor raised `ExecutionFailed`, with the key
they were admitted under; those of ended tasks included. -/
def unresolved (service : Service) : List (String × Task) :=
  (service.admission.tasks.entries.filter fun entry => entry.2.started) ++ service.lost

/-- The keys that are taken, by a task or by a lost operation. -/
def slots (service : Service) : List String :=
  service.admission.tasks.keys ++ service.lost.map Prod.fst

/-- An entry stands under its operation's key, and its thread was created for that key. -/
structure Owned (threads : List (String × String)) (entry : String × Task) : Prop where
  keyed : entry.2.operation.key = entry.1
  thread : ∀ threadId, entry.2.threadId = some threadId → (threadId, entry.1) ∈ threads

structure Sound (service : Service) : Prop where
  distinct : service.slots.Nodup
  bounded : service.slots.length ≤ service.admission.limit
  closed : service.lost ≠ [] → service.admission.accepting = false
  threadsDistinct : (service.threads.map Prod.fst).Nodup
  rows : ∀ row ∈ service.conversations, (row.runtimeThreadId, row.id) ∈ service.threads
  pending : ∀ row ∈ service.inserts, (row.runtimeThreadId, row.id) ∈ service.threads
  tasks : ∀ entry ∈ service.admission.tasks.entries, Owned service.threads entry
  lost : ∀ entry ∈ service.lost, Owned service.threads entry

theorem sound_new (limit : Nat) (positive : 1 ≤ limit) (conversations : List Conversation)
    (unique : (conversations.map Conversation.runtimeThreadId).Nodup) :
    Sound (new limit positive conversations) where
  distinct := by simp [slots, new, AdmissionController.new, Dict.keys, Dict.empty]
  bounded := by simp [slots, new, AdmissionController.new, Dict.keys, Dict.empty]
  closed := by simp [new]
  threadsDistinct := by simpa [new, Function.comp_def] using unique
  rows := by
    intro row member
    exact List.mem_map.mpr ⟨row, member, rfl⟩
  pending := by simp [new]
  tasks := by simp [new, AdmissionController.new, Dict.empty]
  lost := by simp [new]

theorem owned_continues {threads : List (String × String)} {key : String} {task next : Task}
    (owned : Owned threads (key, task)) (continues : Continues task next) :
    Owned threads (key, next) where
  keyed := by
    rw [continues.operation]
    exact owned.keyed
  thread := by
    rw [continues.threadId]
    exact owned.thread

theorem owned_mono {threads more : List (String × String)} {entry : String × Task}
    (owned : Owned threads entry) : Owned (threads ++ more) entry where
  keyed := owned.keyed
  thread threadId named := List.mem_append_left more (owned.thread threadId named)

/-- A freshly admitted operation works on the thread of the conversation it resolved. -/
theorem owned_admitted {service : Service} (sound : Sound service) {operation : Operation}
    (resolved : service.resolves operation = true) (consumer : Nat) :
    Owned service.threads (operation.key, { consumer := consumer, operation := operation }) := by
  refine ⟨rfl, fun threadId named => ?_⟩
  cases found : operation.resolved with
  | none => simp [Task.threadId, found] at named
  | some pair =>
      obtain ⟨conversation, principal⟩ := pair
      simp only [Task.threadId, found, Option.some.injEq] at named
      simp only [resolves, found, decide_eq_true_eq] at resolved
      have member := (ConversationRepository.get_owned_sound resolved).1
      have keyed : operation.key = conversation.id := by
        cases operation <;> simp_all [Operation.resolved, Operation.key]
      rw [keyed, ← named]
      exact sound.rows conversation member

theorem slots_admitted {service : Service} (sound : Sound service) {operation : Operation}
    (accepting : service.admission.accepting = true)
    (room : service.admission.tasks.size < service.admission.limit)
    (free : operation.key ∉ service.admission.tasks.keys) :
    service.lost = [] ∧ (service.admission.tasks.keys ++ [operation.key]).Nodup ∧
      (service.admission.tasks.keys ++ [operation.key]).length ≤ service.admission.limit := by
  have nothingLost : service.lost = [] := by
    by_contra lost
    rw [sound.closed lost] at accepting
    cases accepting
  have distinct := sound.distinct
  rw [slots, nothingLost, List.map_nil, List.append_nil] at distinct
  refine ⟨nothingLost, ?_, ?_⟩
  · rw [List.nodup_append]
    refine ⟨distinct, by simp, ?_⟩
    rintro key member _ single rfl
    exact free (List.mem_singleton.mp single ▸ member)
  · simp only [List.length_append, Dict.keys_length, List.length_cons, List.length_nil]
    omega

/-- A leaving task moves its key from the table to the lost ones, or gives it back. -/
theorem slots_leave {service : Service} (sound : Sound service) {key : String} {task : Task}
    (found : (key, task) ∈ service.admission.tasks.entries)
    (ending : Except RuntimeFault Value) :
    (service.leave key task ending).slots.Nodup ∧
      (service.leave key task ending).slots.length ≤ service.slots.length := by
  have held : key ∈ service.admission.tasks.keys :=
    (service.admission.tasks.mem_keys_iff key).mpr ⟨task, found⟩
  have keysDistinct : service.admission.tasks.keys.Nodup := sound.distinct.of_append_left
  have moved : (service.admission.tasks.keys.filter (fun name => name ≠ key) ++
      (service.lost.map Prod.fst ++ [key])).Perm service.slots := by
    have erased : service.admission.tasks.keys.filter (fun name => name ≠ key) =
        service.admission.tasks.keys.erase key := by
      rw [keysDistinct.erase_eq_filter]
      refine List.filter_congr fun name _ => ?_
      by_cases same : name = key <;> simp [same]
    rw [erased, slots, ← List.append_assoc]
    refine (List.perm_append_singleton _ _).trans ?_
    rw [← List.cons_append]
    exact (List.perm_cons_erase held).symm.append_right _
  have given : (service.admission.tasks.keys.filter (fun name => name ≠ key) ++
      service.lost.map Prod.fst).Sublist
      (service.admission.tasks.keys.filter (fun name => name ≠ key) ++
        (service.lost.map Prod.fst ++ [key])) :=
    List.Sublist.append_left (List.sublist_append_left _ _) _
  cases known : AdmissionController.outcomeKnown ending with
  | true =>
      have shape : (service.leave key task ending).slots =
          service.admission.tasks.keys.filter (fun name => name ≠ key) ++
            service.lost.map Prod.fst := by
        simp [slots, leave, AdmissionController.leave, known]
      rw [shape]
      exact ⟨(moved.nodup_iff.mpr sound.distinct).sublist given,
        given.length_le.trans moved.length_eq.le⟩
  | false =>
      have shape : (service.leave key task ending).slots =
          service.admission.tasks.keys.filter (fun name => name ≠ key) ++
            (service.lost.map Prod.fst ++ [key]) := by
        simp [slots, leave, AdmissionController.leave, known]
      rw [shape]
      exact ⟨moved.nodup_iff.mpr sound.distinct, moved.length_eq.le⟩

theorem sound_leave {service : Service} (sound : Sound service) {key : String} {task : Task}
    (found : (key, task) ∈ service.admission.tasks.entries)
    (ending : Except RuntimeFault Value) : Sound (service.leave key task ending) := by
  obtain ⟨distinct, shorter⟩ := slots_leave sound found ending
  refine { sound with
    distinct := distinct
    bounded := shorter.trans sound.bounded
    closed := ?_
    tasks := ?_
    lost := ?_ }
  · intro lost
    show (service.admission.leave key ending).accepting = false
    rw [service.admission.leave_accepting key ending]
    cases known : AdmissionController.outcomeKnown ending with
    | true =>
        simp only [leave, known, if_true] at lost
        rw [sound.closed lost, Bool.and_true]
    | false => rw [Bool.and_false]
  · intro entry member
    exact sound.tasks entry ((Dict.mem_pop _ _ _).mp member).1
  · intro entry member
    simp only [leave] at member
    split_ifs at member
    · exact sound.lost entry member
    · rcases List.mem_append.mp member with earlier | new
      · exact sound.lost entry earlier
      · rw [List.mem_singleton.mp new]
        exact sound.tasks _ found

theorem sound_effect {service next : Service} {label : Label} (sound : Sound service)
    (effect : Effect service label next) : Sound next := by
  cases effect with
  | refused operation => exact sound
  | admitted operation resolved accepting room free =>
      obtain ⟨nothingLost, distinct, bounded⟩ := slots_admitted sound accepting room free
      refine { sound with distinct := ?_, bounded := ?_, tasks := ?_ }
      · simpa [slots, nothingLost] using distinct
      · simpa [slots, nothingLost] using bounded
      · intro entry member
        rcases (Dict.mem_insert_new _ _ _ free _).mp member with old | rfl
        · exact sound.tasks entry old
        · exact owned_admitted sound resolved service.consumers.length
  | continued label key task next calls consumers answers found continues kept =>
      refine { sound with
        distinct := by simpa [slots, setTask, AdmissionController.updateTask] using sound.distinct
        bounded := by simpa [slots, setTask, AdmissionController.updateTask] using sound.bounded
        tasks := ?_ }
      intro entry member
      rcases (Dict.mem_modify _ _ _ _).mp member with ⟨old, _⟩ | ⟨_, _, rfl⟩
      · exact sound.tasks entry old
      · exact owned_continues (sound.tasks _ found) continues
  | threadCreated key task principal row call found calling operation fresh named =>
      refine { sound with
        distinct := by
          simpa [slots, proceed, setTask, AdmissionController.updateTask] using sound.distinct
        bounded := by
          simpa [slots, proceed, setTask, AdmissionController.updateTask] using sound.bounded
        threadsDistinct := ?_
        rows := fun other member => List.mem_append_left _ (sound.rows other member)
        pending := ?_
        tasks := ?_
        lost := fun entry member => owned_mono (sound.lost entry member) }
      · simp only [List.map_append, List.map_cons, List.map_nil]
        rw [List.nodup_append]
        refine ⟨sound.threadsDistinct, by simp, ?_⟩
        rintro threadId member _ single rfl
        exact fresh (List.mem_singleton.mp single ▸ member)
      · intro other member
        rcases List.mem_append.mp member with old | new
        · exact List.mem_append_left _ (sound.pending other old)
        · rw [List.mem_singleton.mp new, named]
          simp
      · intro entry member
        rcases (Dict.mem_modify _ _ _ _).mp member with ⟨old, _⟩ | ⟨_, _, rfl⟩
        · exact owned_mono (sound.tasks entry old)
        · refine ⟨(sound.tasks _ found).keyed, fun threadId thread => ?_⟩
          have unresolved : task.operation.resolved = none := by
            rw [operation]
            rfl
          simp only [Task.threadId, unresolved, Option.some.injEq] at thread
          rw [← thread]
          simp
  | left label key task ending found ends => exact sound_leave sound found ending
  | committed row rows pending created =>
      refine { sound with
        rows := ?_
        pending := fun other member => sound.pending other (List.mem_of_mem_erase member) }
      intro other member
      unfold ConversationRepository.create at created
      split_ifs at created
      cases created
      rcases List.mem_append.mp member with old | new
      · exact sound.rows other old
      · rw [List.mem_singleton.mp new]
        exact sound.pending row pending
  | insertFailed row pending =>
      exact { sound with
        pending := fun other member => sound.pending other (List.mem_of_mem_erase member) }
  | drained =>
      exact { sound with closed := fun _ => rfl }
  | cancelledAll label change consumers answers continues kept =>
      refine { sound with
        distinct := by simpa [slots, AdmissionController.cancelAll] using sound.distinct
        bounded := by simpa [slots, AdmissionController.cancelAll] using sound.bounded
        tasks := ?_ }
      intro entry member
      obtain ⟨task, found, changed⟩ := (Dict.mem_map_values _ _ _).mp member
      have owned := owned_continues (sound.tasks _ found) (continues task)
      rwa [← changed] at owned
  | consumed index action consumers kept =>
      exact { sound with }

theorem sound_run {start final : Service} {labels : List Label} (sound : Sound start)
    (reached : machine.run start labels = some final) : Sound final :=
  machine.run_invariant Sound
    (fun _ _ _ before stepped => sound_effect before (step_effect stepped)) sound reached

/-- Admission never opens again, and its limit never changes. -/
theorem closed_effect {service next : Service} {label : Label}
    (effect : Effect service label next) (closed : service.admission.accepting = false) :
    next.admission.accepting = false := by
  cases effect with
  | admitted operation resolved accepting room free => exact closed
  | left label key task ending found ends => simp [leave, AdmissionController.leave, closed]
  | drained => rfl
  | _ => exact closed

theorem limit_effect {service next : Service} {label : Label}
    (effect : Effect service label next) : next.admission.limit = service.admission.limit := by
  cases effect <;> rfl

/-- Distinct unresolved operations never work on the same runtime thread. -/
def ThreadsExclusive (operations : List (String × Task)) : Prop :=
  operations.Pairwise fun left right =>
    ∀ threadId, left.2.threadId = some threadId → right.2.threadId ≠ some threadId

theorem thread_key_unique {service : Service} (sound : Sound service) {left right : String × Task}
    (leftOwned : Owned service.threads left) (rightOwned : Owned service.threads right)
    {threadId : String} (leftThread : left.2.threadId = some threadId)
    (rightThread : right.2.threadId = some threadId) : left.1 = right.1 := by
  have same := List.inj_on_of_nodup_map sound.threadsDistinct
    (leftOwned.thread threadId leftThread) (rightOwned.thread threadId rightThread) rfl
  exact congrArg Prod.snd same

theorem sound_exclusive {service : Service} (sound : Sound service) :
    ThreadsExclusive service.unresolved := by
  have owned : ∀ entry ∈ service.unresolved, Owned service.threads entry := by
    intro entry member
    rcases List.mem_append.mp member with running | lost
    · exact sound.tasks entry (List.mem_filter.mp running).1
    · exact sound.lost entry lost
  have keysDistinct : (service.unresolved.map Prod.fst).Nodup := by
    refine sound.distinct.sublist ?_
    rw [unresolved, List.map_append]
    exact (List.filter_sublist.map Prod.fst).append_right _
  have pairwise := List.pairwise_map.mp keysDistinct
  refine pairwise.imp_of_mem fun {left right} leftMem rightMem different => ?_
  intro threadId leftThread rightThread
  exact different
    (thread_key_unique sound (owned left leftMem) (owned right rightMem) leftThread rightThread)

theorem sound_bounded {service : Service} (sound : Sound service) :
    service.unresolved.length ≤ service.admission.limit := by
  refine le_trans ?_ sound.bounded
  simp only [unresolved, slots, List.length_append, List.length_map, Dict.keys_length]
  exact Nat.add_le_add_right (List.length_filter_le _ _) _

theorem remote_exclusion (limit : Nat) (positive : 1 ≤ limit) (conversations : List Conversation)
    (unique : (conversations.map Conversation.runtimeThreadId).Nodup)
    (labels : List Label) (final : Service)
    (reached : machine.run (new limit positive conversations) labels = some final) :
    ThreadsExclusive final.unresolved ∧ final.unresolved.length ≤ limit ∧
      (final.lost ≠ [] → ∀ later last, machine.run final later = some last →
        ∀ key task, last.admission.submit key task = .error .serviceUnavailable) := by
  have sound := sound_run (sound_new limit positive conversations unique) reached
  have limit_eq : final.admission.limit = limit :=
    machine.run_invariant (fun service => service.admission.limit = limit)
      (fun _ _ _ before stepped => (limit_effect (step_effect stepped)).trans before) rfl reached
  refine ⟨sound_exclusive sound, limit_eq ▸ sound_bounded sound, ?_⟩
  intro lost later last rest key task
  have closed : last.admission.accepting = false :=
    machine.run_invariant (fun service => service.admission.accepting = false)
      (fun _ _ _ before stepped => closed_effect (step_effect stepped) before)
      (sound.closed lost) rest
  exact last.admission.submit_closed key task closed

/-- One chat that times out: its task is gone, its operation counts, nothing else gets in. -/
def timedOutChat : List Label :=
  let conversation : Conversation :=
    { id := "c", tenantId := "t", userId := "u", runtimeThreadId := "r" }
  let principal : ServicePrincipal := { userId := "u", tenantId := "t", roles := ∅ }
  [.submit (.chat conversation "hi" principal), .start "c", .deadline "c",
    .settle "c" (.error .cancelled)]

theorem remote_exclusion_timed_out_chat :
    ∃ final, machine.run (new 2 (by decide) [⟨"c", "t", "u", "r"⟩]) timedOutChat = some final ∧
      final.admission.tasks.keys = [] ∧ final.unresolved.length = 1 ∧
      ThreadsExclusive final.unresolved ∧
      ∀ later last, machine.run final later = some last →
        ∀ key task, last.admission.submit key task = .error .serviceUnavailable := by
  have reached :
      (machine.run (new 2 (by decide) [⟨"c", "t", "u", "r"⟩]) timedOutChat).isSome = true := by
    decide
  obtain ⟨exclusive, _, closed⟩ := remote_exclusion 2 (by decide) [⟨"c", "t", "u", "r"⟩]
    (by decide) timedOutChat _ (Option.some_get reached).symm
  exact ⟨_, (Option.some_get reached).symm, rfl, rfl, exclusive, closed (List.cons_ne_nil _ _)⟩

end Service

end AgentHarness.Services
