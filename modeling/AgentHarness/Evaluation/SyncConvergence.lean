import AgentHarness.Evaluation.SyncAtomicity

/-!
# Successful synchronisations

After a call that succeeds every case stands in the dataset once and as the case file has it. All
else is as it was, and a second call finds nothing to write.
-/

namespace AgentHarness.Evaluation

open AgentHarness.Library AgentHarness.Events.CodexEventMapper

set_option autoImplicit false

section Calls

variable {client : Client} {dataset now : Dataset} {seeds : List SeedCase}

/-- Every case is in the dataset after the cases. -/
theorem present_of_synced (synced : Synced dataset seeds now)
    (named : ∀ seed ∈ seeds, seed.id.truthy = true) {seed : SeedCase} (member : seed ∈ seeds) :
    ∃ listed ∈ now.entries, listed.2.key = some seed.key ∧
      listed.2.matchesSeed seed = true := by
  cases found : namedExample dataset seed with
  | none =>
      have ⟨id, _, made⟩ := synced.added seed member found
      exact ⟨_, made, created_key (named seed member), created_matches seed⟩
  | some listed =>
      have ⟨_, key⟩ := named_of_named_example found
      exact ⟨_, synced.answered seed member listed found, settled_key (named seed member) key,
        settled_matches seed listed.2⟩

theorem indexable_of_synced (indexable : Indexable dataset) (distinct : DistinctSeeds seeds)
    (named : ∀ seed ∈ seeds, seed.id.truthy = true) (synced : Synced dataset seeds now) :
    Indexable now := by
  apply And.intro _ (synced.distinct named)
  intro listed member caseId found
  rcases synced.origin listed member with kept | ⟨seed, behind, previous, previousFound, rewritten⟩ |
    ⟨seed, behind, _, made⟩
  · exact indexable.1 listed kept caseId found
  · rw [rewritten, settled] at found
    split at found
    · exact indexable.1 _ (named_of_named_example previousFound).1 caseId found
    · rw [updated_case_id (named seed behind)] at found
      cases found
      exact distinct.1 seed behind
  · rw [made, created_case_id (named seed behind)] at found
    cases found
    exact distinct.1 seed behind

theorem up_to_date_of_synced (indexable : Indexable dataset) (distinct : DistinctSeeds seeds)
    (named : ∀ seed ∈ seeds, seed.id.truthy = true) (synced : Synced dataset seeds now)
    {seed : SeedCase} (member : seed ∈ seeds) : upToDate now seed = true := by
  have ⟨listed, listedMem, key, matched⟩ := present_of_synced synced named member
  have found := named_example_of_key (indexable_of_synced indexable distinct named synced)
    listedMem key
  rw [upToDate, found, Option.any_some, matched]

/-- An example that no case names, or that is not the seeds' own, stays as it is. -/
theorem kept_of_synced (indexable : Indexable dataset) (synced : Synced dataset seeds now)
    (accepted : ∀ seed ∈ seeds, refuses dataset seed = false) {listed : String × Example}
    (member : listed ∈ dataset.entries)
    (foreign : (∀ seed ∈ seeds, listed.2.key ≠ some seed.key) ∨ listed.2.seedOwned = false) :
    listed ∈ now.entries := by
  by_cases unnamed : ∀ seed ∈ seeds, listed.2.key ≠ some seed.key
  · exact synced.kept listed member unnamed
  · have notOwned := foreign.resolve_left unnamed
    simp only [not_forall, not_not] at unnamed
    have ⟨seed, seedMem, key⟩ := unnamed
    have found := named_example_of_key indexable member key
    have matched : listed.2.matchesSeed seed = true := by
      simpa [refuses, found, notOwned] using accepted seed seedMem
    have answered := synced.answered seed seedMem listed found
    rwa [settled, if_pos matched] at answered

/-- Every example is still there, with the metadata an update does not write. -/
theorem metadata_of_synced (synced : Synced dataset seeds now) {listed : String × Example}
    (indexable : Indexable dataset) (member : listed ∈ dataset.entries) :
    ∃ stored, (listed.1, stored) ∈ now.entries ∧
      ∀ key, key ∉ seedKeys →
        Json.lookup key stored.entries = Json.lookup key listed.2.entries := by
  by_cases unnamed : ∀ seed ∈ seeds, listed.2.key ≠ some seed.key
  · exact ⟨listed.2, synced.kept listed member unnamed, fun _ _ => rfl⟩
  · simp only [not_forall, not_not] at unnamed
    have ⟨seed, seedMem, key⟩ := unnamed
    have found := named_example_of_key indexable member key
    exact ⟨_, synced.answered seed seedMem listed found,
      fun _ other => settled_kept seed listed.2 other⟩

/-- A call that succeeds has gone through all its cases. -/
theorem synced_of_ok {counts : Nat × Nat}
    (succeeded : (syncCases client dataset seeds).result = .ok counts) :
    Indexable dataset ∧ DistinctSeeds seeds ∧
      (∀ seed ∈ seeds, refuses dataset seed = false) ∧
      Synced dataset seeds (syncCases client dataset seeds).dataset := by
  rcases sync_cases_cases client dataset seeds with ⟨indexable, distinct, _⟩ | ⟨_, error, failed⟩
  · rcases refused_or_accepted dataset seeds with ⟨front, seed, back, cut, first⟩ | accepted
    · have ⟨error, now, failed, _⟩ :=
        sync_refused client indexable distinct cut first
      rw [failed] at succeeded
      cases succeeded
    · have ⟨now, counts, ended, synced⟩ :=
        sync_accepted client indexable distinct accepted
      rw [ended]
      exact ⟨indexable, distinct, accepted, synced⟩
  · rw [failed] at succeeded
    cases succeeded

end Calls

/-- After a successful call every case is in the dataset once, with its inputs and outputs. The
examples that no case names or that are not the seeds' own are unchanged, every example keeps its
other metadata, and a second call writes nothing. -/
theorem sync_converges (client : Client) (dataset : Dataset) (seeds : List SeedCase)
    (counts : Nat × Nat) (named : ∀ seed ∈ seeds, seed.id.truthy = true)
    (succeeded : (syncCases client dataset seeds).result = .ok counts) :
    let now := (syncCases client dataset seeds).dataset
    (∀ seed ∈ seeds, ∃ listed ∈ now.entries, listed.2.key = some seed.key ∧
      listed.2.matchesSeed seed = true ∧
      ∀ other ∈ now.entries, other.2.key = some seed.key → other = listed) ∧
    (∀ listed ∈ dataset.entries,
      ((∀ seed ∈ seeds, listed.2.key ≠ some seed.key) ∨ listed.2.seedOwned = false) →
        listed ∈ now.entries) ∧
    (∀ listed ∈ dataset.entries, ∃ stored, (listed.1, stored) ∈ now.entries ∧
      ∀ key, key ∉ seedKeys →
        Json.lookup key stored.entries = Json.lookup key listed.2.entries) ∧
    ∀ again : Client, syncCases again now seeds = ⟨now, .ok (0, 0)⟩ := by
  have ⟨indexable, distinct, accepted, synced⟩ := synced_of_ok succeeded
  have nowIndexable := indexable_of_synced indexable distinct named synced
  refine ⟨?once, ?frame, ?metadata, ?again⟩
  case once =>
    intro seed member
    have ⟨listed, listedMem, key, matched⟩ := present_of_synced synced named member
    exact ⟨listed, listedMem, key, matched,
      fun other otherMem otherKey => same_of_key nowIndexable otherMem listedMem otherKey key⟩
  case frame =>
    intro listed member foreign
    exact kept_of_synced indexable synced accepted member foreign
  case metadata =>
    intro listed member
    exact metadata_of_synced synced indexable member
  case again =>
    intro again
    have current : ∀ seed ∈ seeds,
        upToDate (syncCases client dataset seeds).dataset seed = true :=
      fun seed member => up_to_date_of_synced indexable distinct named synced member
    rcases sync_cases_cases again (syncCases client dataset seeds).dataset seeds with
      ⟨_, _, looped⟩ | ⟨unusable, _⟩
    · have passed := sync_loop_up_to_date again
        (syncCases client dataset seeds).dataset seeds [] current 0 0
      rw [List.append_nil] at passed
      rw [looped, passed, syncLoop]
    · exact absurd ⟨nowIndexable, distinct⟩ unusable

/-- One case is created and one updated, over the note of a reviewer. -/
def reviewedDataset : Dataset where
  entries := [("id-b", ⟨.obj [], .obj [],
    some [("case_id", .str "b"), ("source", .str "seed-jsonl"), ("reviewer", .str "human")]⟩)]
  nodup := by simp

theorem sync_converges_reviewed :
    let now := (syncCases growingClient reviewedDataset [plainSeed "a", plainSeed "b"]).dataset
    (∀ seed ∈ [plainSeed "a", plainSeed "b"], ∃ listed ∈ now.entries,
      listed.2.key = some seed.key ∧ listed.2.matchesSeed seed = true ∧
      ∀ other ∈ now.entries, other.2.key = some seed.key → other = listed) ∧
    (∀ listed ∈ reviewedDataset.entries,
      ((∀ seed ∈ [plainSeed "a", plainSeed "b"], listed.2.key ≠ some seed.key) ∨
        listed.2.seedOwned = false) → listed ∈ now.entries) ∧
    (∀ listed ∈ reviewedDataset.entries, ∃ stored, (listed.1, stored) ∈ now.entries ∧
      ∀ key, key ∉ seedKeys →
        Json.lookup key stored.entries = Json.lookup key listed.2.entries) ∧
    ∀ again : Client,
      syncCases again now [plainSeed "a", plainSeed "b"] = ⟨now, .ok (0, 0)⟩ :=
  sync_converges growingClient reviewedDataset [plainSeed "a", plainSeed "b"] (1, 1)
    (by decide +kernel) (by decide +kernel)

end AgentHarness.Evaluation
