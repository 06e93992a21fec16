import AgentHarness.Evaluation.SeedSync
import Mathlib.Data.List.Pairwise

/-!
# Runs of the seed synchronisation

The index is a search in the dataset before the call, and the loop is followed by what it has made
of the cases behind it.
-/

namespace AgentHarness.Evaluation

open AgentHarness.Library AgentHarness.Events.CodexEventMapper

set_option autoImplicit false

/-! ## The index -/

/-- Case ids can be keys and no two examples have one case id. -/
def Indexable (dataset : Dataset) : Prop :=
  (∀ listed ∈ dataset.entries, ∀ caseId, listed.2.caseId = some caseId → hashable caseId = true) ∧
    (dataset.entries.filterMap fun listed => listed.2.key).Nodup

def DistinctSeeds (seeds : List SeedCase) : Prop :=
  (∀ seed ∈ seeds, hashable seed.id = true) ∧ (seeds.map SeedCase.key).Nodup

/-- The example of the dataset that has the id of the case. -/
def namedExample (dataset : Dataset) (seed : SeedCase) : Option (String × Example) :=
  dataset.entries.find? fun listed => listed.2.key == some seed.key

/-- The case changes an example that is not the seeds' own. -/
def refuses (dataset : Dataset) (seed : SeedCase) : Bool :=
  (namedExample dataset seed).any fun listed =>
    !listed.2.matchesSeed seed && !listed.2.seedOwned

/-- The case is in the dataset as it stands. -/
def upToDate (dataset : Dataset) (seed : SeedCase) : Bool :=
  (namedExample dataset seed).any fun listed => listed.2.matchesSeed seed

def filed (entries : List (String × Example)) : Index :=
  entries.filterMap fun listed => listed.2.caseId.map fun caseId => (caseId, listed)

theorem get_filed (entries : List (String × Example)) (caseId : Json) :
    (filed entries).get caseId =
      entries.find? fun listed => listed.2.key == some (Json.canonical caseId) := by
  induction entries with
  | nil => rfl
  | cons listed entries ih =>
      rw [List.find?_cons, ← ih, filed, List.filterMap_cons, ← filed]
      cases found : listed.2.caseId with
      | none => simp [Example.key, found]
      | some own =>
          simp only [Example.key, found, Option.map_some, Index.get, List.find?_cons, Json.equals,
            Option.some_beq_some]
          cases Json.canonical own == Json.canonical caseId <;> rfl

theorem index_examples_cases (existing : Index) (entries : List (String × Example))
    (distinct : (existing.map fun entry => Json.canonical entry.1).Nodup) :
    (indexExamples existing entries = .ok (existing ++ filed entries) ∧
      (∀ listed ∈ entries, ∀ caseId, listed.2.caseId = some caseId → hashable caseId = true) ∧
      (existing.map (fun entry => Json.canonical entry.1) ++
        entries.filterMap fun listed => listed.2.key).Nodup) ∨
    ((∃ error, indexExamples existing entries = .error error) ∧
      ¬ ((∀ listed ∈ entries, ∀ caseId, listed.2.caseId = some caseId → hashable caseId = true) ∧
        (existing.map (fun entry => Json.canonical entry.1) ++
          entries.filterMap fun listed => listed.2.key).Nodup)) := by
  induction entries generalizing existing with
  | nil => simpa [indexExamples, filed] using distinct
  | cons listed entries ih =>
      rw [indexExamples, filed, List.filterMap_cons, List.filterMap_cons, ← filed,
        List.forall_mem_cons]
      cases found : listed.2.caseId with
      | none => simpa [found, Example.key] using ih existing distinct
      | some caseId =>
          have key : listed.2.key = some (Json.canonical caseId) := by rw [Example.key, found]; rfl
          simp only [key, Option.map_some, Option.some.injEq, forall_eq']
          cases usable : hashable caseId with
          | false =>
              right
              exact ⟨⟨_, rfl⟩, fun both => by cases both.1.1⟩
          | true =>
              have taken : (existing.get caseId).isSome = true ↔
                  Json.canonical caseId ∈ existing.map fun entry => Json.canonical entry.1 := by
                simp [Index.get, Json.equals]
              simp only [Bool.not_true, Bool.false_eq_true, if_false]
              by_cases present : (existing.get caseId).isSome = true
              · right
                rw [if_pos present]
                apply And.intro ⟨_, rfl⟩
                intro both
                have apart := (List.nodup_append.mp both.2).2.2
                exact apart _ (taken.mp present) _ List.mem_cons_self rfl
              · rw [if_neg present]
                have grown : ((existing ++ [(caseId, listed)]).map
                    fun entry => Json.canonical entry.1).Nodup := by
                  rw [List.map_append, List.nodup_append]
                  refine ⟨distinct, by simp, ?_⟩
                  rintro key member _ single rfl
                  simp only [List.map_cons, List.map_nil, List.mem_singleton] at single
                  exact present (taken.mpr (single ▸ member))
                simpa only [List.append_assoc, List.map_append, List.map_cons, List.map_nil,
                  List.singleton_append, true_and] using ih _ grown

/-- Either the call fails before its loop, or it is the loop over the index. -/
theorem sync_cases_cases (client : Client) (dataset : Dataset) (seeds : List SeedCase) :
    (Indexable dataset ∧ DistinctSeeds seeds ∧
      syncCases client dataset seeds =
        syncLoop client (filed dataset.entries) seeds dataset 0 0) ∨
    (¬ (Indexable dataset ∧ DistinctSeeds seeds) ∧
      ∃ error, syncCases client dataset seeds = ⟨dataset, .error error⟩) := by
  rcases index_examples_cases [] dataset.entries List.nodup_nil with
    ⟨indexed, indexable⟩ | ⟨⟨error, failed⟩, unindexable⟩
  · rw [List.nil_append] at indexed
    simp only [syncCases, indexed]
    have usable : (seeds.any fun seed => !hashable seed.id) = true ↔
        ¬ ∀ seed ∈ seeds, hashable seed.id = true := by simp
    split
    · rename_i unhashable
      right
      exact ⟨fun both => usable.mp unhashable both.2.1, _, rfl⟩
    · rename_i hashable
      have hashable := not_not.mp (mt usable.mpr hashable)
      split
      · rename_i repeated
        right
        exact ⟨fun both => repeated both.2.2, _, rfl⟩
      · rename_i distinct
        left
        exact ⟨indexable, ⟨hashable, not_not.mp distinct⟩, rfl⟩
  · right
    apply And.intro fun both => unindexable both.1
    simp only [syncCases, failed]
    exact ⟨error, rfl⟩

theorem get_seed (dataset : Dataset) (seed : SeedCase) :
    (filed dataset.entries).get seed.id = namedExample dataset seed := get_filed _ _

theorem named_of_named_example {dataset : Dataset} {seed : SeedCase} {listed : String × Example}
    (found : namedExample dataset seed = some listed) :
    listed ∈ dataset.entries ∧ listed.2.key = some seed.key := by
  have named := List.find?_some found
  exact ⟨List.mem_of_find?_eq_some found, by simpa using named⟩

theorem same_of_key {dataset : Dataset} (indexable : Indexable dataset)
    {listed other : String × Example} (listedMem : listed ∈ dataset.entries)
    (otherMem : other ∈ dataset.entries) {key : Json} (listedKey : listed.2.key = some key)
    (otherKey : other.2.key = some key) : listed = other := by
  have apart := List.pairwise_filterMap.mp indexable.2
  by_contra different
  have symm : Std.Symm fun listed other : String × Example =>
      ∀ left, listed.2.key = some left → ∀ right, other.2.key = some right → left ≠ right :=
    ⟨fun _ _ clear left leftKey right rightKey same => clear right rightKey left leftKey same.symm⟩
  exact apart.forall listedMem otherMem different key listedKey key otherKey rfl

theorem named_example_of_key {dataset : Dataset} (indexable : Indexable dataset)
    {seed : SeedCase} {listed : String × Example} (member : listed ∈ dataset.entries)
    (key : listed.2.key = some seed.key) : namedExample dataset seed = some listed := by
  cases found : namedExample dataset seed with
  | none =>
      have absent := List.find?_eq_none.mp found listed member
      simp [key] at absent
  | some other =>
      have ⟨otherMem, otherKey⟩ := named_of_named_example found
      rw [same_of_key indexable member otherMem key otherKey]

/-! ## The loop -/

/-- What becomes of the example of a case that is not refused. -/
def settled (seed : SeedCase) (previous : Example) : Example :=
  if previous.matchesSeed seed then previous else updated seed previous

/-- The dataset after the cases `done`, none of which was refused. -/
structure Synced (before : Dataset) (done : List SeedCase) (now : Dataset) : Prop where
  kept : ∀ listed ∈ before.entries, (∀ seed ∈ done, listed.2.key ≠ some seed.key) →
    listed ∈ now.entries
  answered : ∀ seed ∈ done, ∀ listed, namedExample before seed = some listed →
    (listed.1, settled seed listed.2) ∈ now.entries
  added : ∀ seed ∈ done, namedExample before seed = none →
    ∃ id, id ∉ before.keys ∧ (id, created seed) ∈ now.entries
  origin : ∀ listed ∈ now.entries, listed ∈ before.entries ∨
    (∃ seed ∈ done, ∃ previous, namedExample before seed = some (listed.1, previous) ∧
      listed.2 = settled seed previous) ∨
    ∃ seed ∈ done, namedExample before seed = none ∧ listed.2 = created seed
  keys : ∀ id ∈ before.keys, id ∈ now.keys
  size : now.size = before.size + done.countP fun seed => (namedExample before seed).isNone
  distinct : (∀ seed ∈ done, seed.id.truthy = true) →
    (now.entries.filterMap fun listed => listed.2.key).Nodup

theorem settled_matches (seed : SeedCase) (previous : Example) :
    (settled seed previous).matchesSeed seed = true := by
  rw [settled]
  split
  · assumption
  · exact updated_matches seed previous

theorem settled_kept (seed : SeedCase) (previous : Example) {key : String}
    (other : key ∉ seedKeys) :
    Json.lookup key (settled seed previous).entries = Json.lookup key previous.entries := by
  rw [settled]
  split
  · rfl
  · exact updated_kept seed previous other

theorem settled_key {seed : SeedCase} (named : seed.id.truthy = true) {previous : Example}
    (key : previous.key = some seed.key) : (settled seed previous).key = some seed.key := by
  rw [settled]
  split
  · exact key
  · exact updated_key named previous

/-- An example of the dataset after the cases that has the id of another case had it before. -/
theorem Synced.key_of_pending {before now : Dataset} {done : List SeedCase} {seed : SeedCase}
    {listed : String × Example} (synced : Synced before done now)
    (named : ∀ seed ∈ done, seed.id.truthy = true)
    (pending : ∀ earlier ∈ done, earlier.key ≠ seed.key) (member : listed ∈ now.entries)
    (key : listed.2.key = some seed.key) : listed ∈ before.entries := by
  rcases synced.origin listed member with kept | ⟨earlier, behind, previous, found, rewritten⟩ |
    ⟨earlier, behind, _, made⟩
  · exact kept
  · have own := settled_key (named earlier behind) (named_of_named_example found).2
    rw [rewritten, own] at key
    exact absurd (Option.some.inj key) (pending earlier behind)
  · rw [made, created_key (named earlier behind)] at key
    exact absurd (Option.some.inj key) (pending earlier behind)

section Steps

variable {before now : Dataset} {done : List SeedCase} {seed : SeedCase}
  {listed : String × Example}

theorem synced_nil (indexable : Indexable before) : Synced before [] before where
  kept := fun _ member _ => member
  answered := by simp
  added := by simp
  origin := fun _ member => .inl member
  keys := fun _ member => member
  size := rfl
  distinct := fun _ => indexable.2

/-- With one more case behind, every example still has an origin. -/
theorem Synced.origin_append (synced : Synced before done now) {other : String × Example}
    (member : other ∈ now.entries) :
    other ∈ before.entries ∨
      (∃ earlier ∈ done ++ [seed], ∃ previous,
        namedExample before earlier = some (other.1, previous) ∧
          other.2 = settled earlier previous) ∨
      ∃ earlier ∈ done ++ [seed], namedExample before earlier = none ∧
        other.2 = created earlier := by
  rcases synced.origin other member with old | ⟨earlier, behind, rewritten⟩ |
    ⟨earlier, behind, made⟩
  · exact .inl old
  · exact .inr (.inl ⟨earlier, List.mem_append_left _ behind, rewritten⟩)
  · exact .inr (.inr ⟨earlier, List.mem_append_left _ behind, made⟩)

theorem synced_keep (synced : Synced before done now)
    (found : namedExample before seed = some listed)
    (same : listed.2.matchesSeed seed = true) (present : listed ∈ now.entries) :
    Synced before (done ++ [seed]) now where
  kept := fun other member apart =>
    synced.kept other member fun earlier behind => apart earlier (List.mem_append_left _ behind)
  answered := by
    intro earlier behind other named
    rcases List.mem_append.mp behind with old | new
    · exact synced.answered earlier old other named
    · rw [List.mem_singleton.mp new] at named ⊢
      cases found.symm.trans named
      rw [settled, if_pos same]
      exact present
  added := by
    intro earlier behind absent
    rcases List.mem_append.mp behind with old | new
    · exact synced.added earlier old absent
    · rw [List.mem_singleton.mp new, found] at absent
      cases absent
  origin := fun _ member => synced.origin_append member
  keys := synced.keys
  size := by simp [synced.size, found]
  distinct := fun named =>
    synced.distinct fun earlier behind => named earlier (List.mem_append_left _ behind)

theorem synced_create (client : Client) (synced : Synced before done now)
    (pending : ∀ earlier ∈ done, earlier.key ≠ seed.key)
    (absent : namedExample before seed = none) :
    Synced before (done ++ [seed]) (createExample client now seed) where
  kept := by
    intro other member apart
    apply (Dict.mem_insert_new _ _ _ _ _).mpr
    exact .inl (synced.kept other member fun earlier behind =>
      apart earlier (List.mem_append_left _ behind))
  answered := by
    intro earlier behind other named
    apply (Dict.mem_insert_new _ _ _ _ _).mpr
    rcases List.mem_append.mp behind with old | new
    · exact .inl (synced.answered earlier old other named)
    · rw [List.mem_singleton.mp new, absent] at named
      cases named
  added := by
    intro earlier behind missing
    rcases List.mem_append.mp behind with old | new
    · obtain ⟨id, unused, member⟩ := synced.added earlier old missing
      exact ⟨id, unused, (Dict.mem_insert_new _ _ _ _ _).mpr (.inl member)⟩
    · rw [List.mem_singleton.mp new]
      refine ⟨client.newId now.keys, ?_, (Dict.mem_insert_new _ _ _ _ _).mpr (.inr rfl)⟩
      intro used
      exact client.fresh now.keys (synced.keys _ used)
  origin := by
    intro other member
    rcases (Dict.mem_insert_new _ _ _ _ _).mp member with old | rfl
    · exact synced.origin_append old
    · exact .inr (.inr ⟨seed, by simp, absent, rfl⟩)
  keys := by
    intro id used
    rw [createExample, Dict.keys_insert_new]
    exact List.mem_append_left _ (synced.keys id used)
  size := by
    have size : (createExample client now seed).size = now.size + 1 := by
      simp [createExample, Dict.insertNew, Dict.size]
    rw [size, synced.size, List.countP_append]
    simp [absent, Nat.add_assoc]
  distinct := by
    intro named
    have behind : ∀ earlier ∈ done, earlier.id.truthy = true :=
      fun earlier member => named earlier (List.mem_append_left _ member)
    have own := created_key (named seed (by simp))
    rw [createExample, Dict.insertNew, List.filterMap_append, List.nodup_append]
    refine ⟨synced.distinct behind, by simp [own], ?_⟩
    intro key member other single same
    have isOwn : other = seed.key := by simpa [own] using single
    obtain ⟨listed, listedMem, listedKey⟩ := List.mem_filterMap.mp member
    rw [same, isOwn] at listedKey
    have old := synced.key_of_pending behind pending listedMem listedKey
    have missing := List.find?_eq_none.mp absent listed old
    simp [listedKey] at missing

/-- A dataset lists an example id once. -/
theorem same_of_id {dataset : Dataset} {listed other : String × Example}
    (otherMem : other ∈ dataset.entries) (member : listed ∈ dataset.entries)
    (same : other.1 = listed.1) : other.2 = listed.2 := by
  have listedHere : (listed.1, other.2) ∈ dataset.entries := by
    rw [← same]
    exact otherMem
  exact dataset.value_unique listedHere member

/-- Updating the example of a case leaves the case ids of the dataset as they are. -/
theorem update_example_keys (truthy : seed.id.truthy = true) (present : listed ∈ now.entries)
    (named : listed.2.key = some seed.key) :
    (updateExample now listed.1 seed listed.2).entries.filterMap (fun other => other.2.key) =
      now.entries.filterMap fun other => other.2.key := by
  rw [updateExample, Dict.modify, List.filterMap_map]
  apply List.filterMap_congr
  intro other otherMem
  by_cases isListed : other.1 = listed.1
  · simp only [Function.comp_apply, isListed, if_true]
    rw [updated_key truthy, same_of_id otherMem present isListed, named]
  · simp only [Function.comp_apply, isListed, if_false]

theorem synced_update (synced : Synced before done now)
    (pending : ∀ earlier ∈ done, earlier.key ≠ seed.key)
    (found : namedExample before seed = some listed)
    (changed : listed.2.matchesSeed seed = false) (present : listed ∈ now.entries) :
    Synced before (done ++ [seed]) (updateExample now listed.1 seed listed.2) := by
  have ⟨member, named⟩ := named_of_named_example found
  have apart : ∀ other : String × Example, other ∈ before.entries → other.2.key ≠ some seed.key →
      other.1 ≠ listed.1 := by
    intro other otherMem otherKey same
    apply otherKey
    rw [same_of_id otherMem member same, named]
  refine ⟨?kept, ?answered, ?added, ?origin, ?keys, ?size, ?distinct⟩
  case kept =>
    intro other otherMem untouched
    apply (Dict.mem_modify _ _ _ _).mpr
    left
    constructor
    · exact synced.kept other otherMem fun earlier behind =>
        untouched earlier (List.mem_append_left _ behind)
    · exact apart other otherMem (untouched seed (by simp))
  case answered =>
    intro earlier behind other otherFound
    apply (Dict.mem_modify _ _ _ _).mpr
    rcases List.mem_append.mp behind with old | new
    · left
      have ⟨otherMem, otherKey⟩ := named_of_named_example otherFound
      constructor
      · exact synced.answered earlier old other otherFound
      · apply apart other otherMem
        rw [otherKey]
        exact fun same => pending earlier old (Option.some.inj same)
    · right
      rw [List.mem_singleton.mp new] at otherFound ⊢
      cases found.symm.trans otherFound
      refine ⟨listed.2, present, ?_⟩
      rw [settled, changed, if_neg Bool.false_ne_true]
  case added =>
    intro earlier behind absent
    rcases List.mem_append.mp behind with old | new
    · have ⟨id, unused, kept⟩ := synced.added earlier old absent
      refine ⟨id, unused, (Dict.mem_modify _ _ _ _).mpr (.inl ⟨kept, ?_⟩)⟩
      intro same
      have same : id = listed.1 := same
      apply unused
      rw [same]
      exact (before.mem_keys_iff listed.1).mpr ⟨listed.2, member⟩
    · rw [List.mem_singleton.mp new, found] at absent
      cases absent
  case origin =>
    intro other otherMem
    rcases (Dict.mem_modify _ _ _ _).mp otherMem with ⟨old, _⟩ | ⟨_, _, rfl⟩
    · exact synced.origin_append old
    · refine .inr (.inl ⟨seed, by simp, listed.2, found, ?_⟩)
      rw [settled, changed, if_neg Bool.false_ne_true]
  case keys =>
    intro id used
    rw [updateExample, Dict.keys_modify]
    exact synced.keys id used
  case size =>
    have size : (updateExample now listed.1 seed listed.2).size = now.size := by
      simp [updateExample, Dict.modify, Dict.size]
    rw [size, synced.size, List.countP_append]
    simp [found]
  case distinct =>
    intro truthy
    rw [update_example_keys (truthy seed (by simp)) present named]
    exact synced.distinct fun earlier behind => truthy earlier (List.mem_append_left _ behind)

/-- One round of the loop, for a case that is not refused. -/
theorem sync_loop_step (client : Client) (synced : Synced before done now)
    (pending : ∀ earlier ∈ done, earlier.key ≠ seed.key) (accepted : refuses before seed = false)
    (seeds : List SeedCase) (added changed : Nat) :
    ∃ next nextAdded nextChanged,
      syncLoop client (filed before.entries) (seed :: seeds) now added changed =
        syncLoop client (filed before.entries) seeds next nextAdded nextChanged ∧
      Synced before (done ++ [seed]) next := by
  rw [syncLoop, get_seed]
  rw [refuses] at accepted
  cases found : namedExample before seed with
  | none => exact ⟨_, _, _, rfl, synced_create client synced pending found⟩
  | some listed =>
      have ⟨member, named⟩ := named_of_named_example found
      have present : listed ∈ now.entries := by
        apply synced.kept listed member
        intro earlier behind same
        rw [named] at same
        exact pending earlier behind (Option.some.inj same).symm
      cases matched : listed.2.matchesSeed seed with
      | true =>
          simp only [matched, if_true]
          exact ⟨_, _, _, rfl, synced_keep synced found matched present⟩
      | false =>
          have owned : listed.2.seedOwned = true := by simpa [found, matched] using accepted
          simp only [matched, owned, Bool.false_eq_true, if_false, Bool.not_true]
          exact ⟨_, _, _, rfl, synced_update synced pending found matched present⟩

/-- The rounds for cases of which none is refused. -/
theorem sync_loop_run (client : Client) (synced : Synced before done now)
    (front back : List SeedCase)
    (distinct : ((done ++ front).map SeedCase.key).Nodup)
    (accepted : ∀ seed ∈ front, refuses before seed = false) (added changed : Nat) :
    ∃ next nextAdded nextChanged,
      syncLoop client (filed before.entries) (front ++ back) now added changed =
        syncLoop client (filed before.entries) back next nextAdded nextChanged ∧
      Synced before (done ++ front) next := by
  induction front generalizing done now added changed with
  | nil => exact ⟨now, added, changed, rfl, by rwa [List.append_nil]⟩
  | cons seed front ih =>
      have pending : ∀ earlier ∈ done, earlier.key ≠ seed.key := by
        intro earlier behind same
        rw [List.map_append, List.nodup_append] at distinct
        exact distinct.2.2 _ (List.mem_map_of_mem behind) _ (by simp) same
      have ⟨next, nextAdded, nextChanged, stepped, nextSynced⟩ := sync_loop_step client
        synced pending (accepted seed List.mem_cons_self) (front ++ back) added changed
      have regrouped : done ++ seed :: front = done ++ [seed] ++ front := by simp
      rw [regrouped] at distinct ⊢
      have ⟨last, lastAdded, lastChanged, ran, lastSynced⟩ := ih nextSynced distinct
        (fun later ahead => accepted later (List.mem_cons_of_mem _ ahead)) nextAdded nextChanged
      exact ⟨last, lastAdded, lastChanged, stepped.trans ran, lastSynced⟩

theorem sync_loop_refused (client : Client) (now : Dataset) (refused : refuses before seed = true)
    (seeds : List SeedCase) (added changed : Nat) :
    ∃ error, syncLoop client (filed before.entries) (seed :: seeds) now added changed =
      ⟨now, .error error⟩ := by
  rw [syncLoop, get_seed]
  rw [refuses] at refused
  cases found : namedExample before seed with
  | none =>
      rw [found] at refused
      cases refused
  | some listed =>
      rw [found, Option.any_some, Bool.and_eq_true, Bool.not_eq_true', Bool.not_eq_true'] at refused
      simp only [refused.1, refused.2, Bool.false_eq_true, if_false, Bool.not_false, if_true]
      exact ⟨_, rfl⟩

/-- Cases that are up to date are passed over. -/
theorem sync_loop_up_to_date (client : Client) (now : Dataset) (front back : List SeedCase)
    (current : ∀ seed ∈ front, upToDate before seed = true) (added changed : Nat) :
    syncLoop client (filed before.entries) (front ++ back) now added changed =
      syncLoop client (filed before.entries) back now added changed := by
  induction front with
  | nil => rfl
  | cons seed front ih =>
      have here := current seed List.mem_cons_self
      have ⟨listed, found, matched⟩ := (Option.any_eq_true _ _).mp here
      rw [List.cons_append, syncLoop, get_seed]
      simp only [found, matched, if_true]
      exact ih fun later ahead => current later (List.mem_cons_of_mem _ ahead)

end Steps

end AgentHarness.Evaluation
