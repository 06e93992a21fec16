import AgentHarness.Evaluation.SyncRuns
import Mathlib.Algebra.GroupWithZero.Nat
import Mathlib.Algebra.Order.BigOperators.Group.List

/-!
# Failed synchronisations

The ids are checked before the first write, the owner of an example only when the loop comes to its
case: a refusal leaves behind what was written for the cases before it.
-/

namespace AgentHarness.Evaluation

open AgentHarness.Library

set_option autoImplicit false

/-- A call that raises leaves the dataset as it was. -/
def Atomic (client : Client) (dataset : Dataset) (seeds : List SeedCase) : Prop :=
  ∀ error, (syncCases client dataset seeds).result = .error error →
    (syncCases client dataset seeds).dataset = dataset

/-- The case is the first one that is refused. -/
def FirstRefused (dataset : Dataset) (front : List SeedCase) (seed : SeedCase) : Prop :=
  (∀ earlier ∈ front, refuses dataset earlier = false) ∧ refuses dataset seed = true

section Calls

variable {dataset : Dataset} {seeds front back : List SeedCase} {seed : SeedCase}

/-- The call with the first refused case: what it leaves was written for the cases before. -/
theorem sync_refused (client : Client) (indexable : Indexable dataset) (distinct : DistinctSeeds seeds)
    (cut : seeds = front ++ seed :: back) (first : FirstRefused dataset front seed) :
    ∃ error now, syncCases client dataset seeds = ⟨now, .error error⟩ ∧
      Synced dataset front now := by
  rcases sync_cases_cases client dataset seeds with ⟨_, _, looped⟩ | ⟨unusable, _⟩
  · have frontDistinct : (([] ++ front).map SeedCase.key).Nodup := by
      have all := distinct.2
      rw [cut, List.map_append] at all
      exact (List.nodup_append.mp all).1
    have ⟨now, added, changed, ran, synced⟩ := sync_loop_run client
      (synced_nil indexable) front (seed :: back) frontDistinct first.1 0 0
    have ⟨error, refused⟩ := sync_loop_refused client now first.2 back added changed
    refine ⟨error, now, ?_, synced⟩
    rw [looped, cut, ran, refused]
  · exact absurd ⟨indexable, distinct⟩ unusable

/-- A call that refuses no case succeeds. -/
theorem sync_accepted (client : Client) (indexable : Indexable dataset) (distinct : DistinctSeeds seeds)
    (accepted : ∀ seed ∈ seeds, refuses dataset seed = false) :
    ∃ now counts, syncCases client dataset seeds = ⟨now, .ok counts⟩ ∧
      Synced dataset seeds now := by
  rcases sync_cases_cases client dataset seeds with ⟨_, _, looped⟩ | ⟨unusable, _⟩
  · have ⟨now, added, changed, ran, synced⟩ := sync_loop_run client
      (synced_nil indexable) seeds [] distinct.2 accepted 0 0
    rw [List.append_nil] at ran
    exact ⟨now, (added, changed), looped.trans ran, synced⟩
  · exact absurd ⟨indexable, distinct⟩ unusable

theorem refused_or_accepted (dataset : Dataset) (seeds : List SeedCase) :
    (∃ front seed back, seeds = front ++ seed :: back ∧ FirstRefused dataset front seed) ∨
      ∀ seed ∈ seeds, refuses dataset seed = false := by
  cases found : seeds.find? (refuses dataset) with
  | none =>
      right
      intro seed member
      simpa using List.find?_eq_none.mp found seed member
  | some seed =>
      left
      have ⟨refused, front, back, cut, earlier⟩ := List.find?_eq_some_iff_append.mp found
      exact ⟨front, seed, back, cut, fun other member => by simpa using earlier other member,
        refused⟩

/-- Where nothing has changed, nothing was to be written. -/
theorem up_to_date_of_unchanged (synced : Synced dataset front dataset) (member : seed ∈ front) :
    upToDate dataset seed = true := by
  have noneMissing : front.countP (fun seed => (namedExample dataset seed).isNone) = 0 := by
    have size := synced.size
    omega
  have present : namedExample dataset seed ≠ none := by
    simpa using List.countP_eq_zero.mp noneMissing seed member
  cases found : namedExample dataset seed with
  | none => exact absurd found present
  | some listed =>
      have ⟨listedMem, _⟩ := named_of_named_example found
      have answered := synced.answered seed member listed found
      have same : settled seed listed.2 = listed.2 := dataset.value_unique answered listedMem
      rw [upToDate, found, Option.any_some]
      cases matched : listed.2.matchesSeed seed with
      | true => rfl
      | false =>
          rw [settled, matched, if_neg Bool.false_ne_true] at same
          have written := updated_matches seed listed.2
          rw [same, matched] at written
          cases written

end Calls

/-- The call is atomic exactly if it fails before its loop, or its loop has written nothing when it
comes to the first case it refuses. -/
theorem sync_atomic_iff (client : Client) (dataset : Dataset) (seeds : List SeedCase) :
    Atomic client dataset seeds ↔
      ¬ Indexable dataset ∨ ¬ DistinctSeeds seeds ∨
        ∀ front seed back, seeds = front ++ seed :: back → FirstRefused dataset front seed →
          ∀ earlier ∈ front, upToDate dataset earlier = true := by
  constructor
  · intro atomic
    by_contra excluded
    simp only [not_or, not_not] at excluded
    have ⟨indexable, distinct, unclean⟩ := excluded
    apply unclean
    intro front seed back cut first
    have ⟨error, now, failed, synced⟩ := sync_refused client indexable distinct cut first
    have unchanged := atomic error (by rw [failed])
    rw [failed] at unchanged
    have unchanged : now = dataset := unchanged
    rw [unchanged] at synced
    exact fun earlier member => up_to_date_of_unchanged synced member
  · intro condition error raised
    rcases sync_cases_cases client dataset seeds with
      ⟨indexable, distinct, looped⟩ | ⟨_, early, failed⟩
    · rcases refused_or_accepted dataset seeds with ⟨front, seed, back, cut, first⟩ | accepted
      · have current : ∀ earlier ∈ front, upToDate dataset earlier = true := by
          rcases condition with unindexable | repeated | clean
          · exact absurd indexable unindexable
          · exact absurd distinct repeated
          · exact clean front seed back cut first
        have ⟨refusal, refused⟩ := sync_loop_refused client dataset first.2 back 0 0
        rw [looped, cut, sync_loop_up_to_date client dataset front _ current, refused]
      · have ⟨now, counts, succeeded, _⟩ :=
          sync_accepted client indexable distinct accepted
        rw [succeeded] at raised
        cases raised
    · rw [failed]

/-! ## A refusal after a write -/

/-- The new id is longer than all ids in use. -/
def growingClient : Client where
  newId := fun ids => String.ofList (List.replicate ((ids.map String.length).sum + 1) 'e')
  fresh := by
    intro ids used
    have short : ∀ id ∈ ids, id.length ≤ (ids.map String.length).sum :=
      fun id member => List.single_le_sum (by simp) _ (List.mem_map_of_mem member)
    have long := short _ used
    rw [String.length_ofList, List.length_replicate] at long
    omega

def plainSeed (id : String) : SeedCase where
  id := .str id
  message := .str "new question"
  category := .str "tool"
  expect := .obj []
  requiresFixture := none

/-- One example that is not the seeds' own. -/
def productionDataset : Dataset where
  entries := [("id-b", ⟨.obj [], .obj [],
    some [("case_id", .str "b"), ("source", .str "production")]⟩)]
  nodup := by simp

theorem created_before_refusal :
    (syncCases growingClient productionDataset [plainSeed "a", plainSeed "b"]).result =
        .error (.valueError "Refusing to overwrite a non-seed example: " (some (.str "b"))) ∧
      (syncCases growingClient productionDataset [plainSeed "a", plainSeed "b"]).dataset.keys =
        ["id-b", "eeeee"] ∧
      ¬ Atomic growingClient productionDataset [plainSeed "a", plainSeed "b"] := by
  have raised : (syncCases growingClient productionDataset
      [plainSeed "a", plainSeed "b"]).result =
        .error (.valueError "Refusing to overwrite a non-seed example: " (some (.str "b"))) := by
    decide +kernel
  have keys : (syncCases growingClient productionDataset
      [plainSeed "a", plainSeed "b"]).dataset.keys = ["id-b", "eeeee"] := by
    decide +kernel
  refine ⟨raised, keys, ?_⟩
  intro atomic
  rw [atomic _ raised] at keys
  cases keys

end AgentHarness.Evaluation
