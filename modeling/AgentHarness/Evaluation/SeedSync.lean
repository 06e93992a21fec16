import AgentHarness.Events.CodexEventMapper
import AgentHarness.Library.Dict
import AgentHarness.Library.PythonValue

/-!
# Seed synchronisation

`sync_cases` against a client that stores and lists what it is given: the remote examples are a
dictionary from example ids, in listing order. The index of case ids is built once, before the loop,
so what happens to a case depends on the dataset before the call only.
-/

namespace AgentHarness.Evaluation

open AgentHarness.Library AgentHarness.Events.CodexEventMapper

set_option autoImplicit false

/-- A line of the case file. -/
structure SeedCase where
  id : Json
  message : Json
  category : Json
  expect : Json
  requiresFixture : Option Json
  deriving DecidableEq, Repr

/-- A stored example without its id. -/
structure Example where
  inputs : Json
  outputs : Json
  metadata : Option (List (String × Json))
  deriving DecidableEq, Repr

abbrev Dataset := Dict String Example

/-- The client picks the id of an example it creates, and never one in use. -/
structure Client where
  newId : List String → String
  fresh : ∀ ids, newId ids ∉ ids

/-- An error that ends the call. A `ValueError` has a text and mostly the case id behind it. -/
inductive SyncError where
  | valueError (text : String) (caseId : Option Json)
  | unhashable
  deriving DecidableEq, Repr

structure SyncOutcome where
  dataset : Dataset
  result : Except SyncError (Nat × Nat)

namespace SeedCase

def inputs (seed : SeedCase) : Json :=
  .obj [("message", seed.message), ("category", seed.category),
    ("requires_fixture", seed.requiresFixture.getD .null)]

def outputs (seed : SeedCase) : Json := .obj [("expect", seed.expect)]

def key (seed : SeedCase) : Json := Json.canonical seed.id

def metadata (seed : SeedCase) : List (String × Json) :=
  [("case_id", seed.id), ("source", .str "seed-jsonl"), ("category", seed.category)]

end SeedCase

namespace Example

def entries (stored : Example) : List (String × Json) := stored.metadata.getD []

/-- The case id the index files the example under: falsy ones are passed over. -/
def caseId (stored : Example) : Option Json :=
  (Json.lookup "case_id" stored.entries).filter Json.truthy

def seedOwned (stored : Example) : Bool :=
  Json.lookup "source" stored.entries == some (.str "seed-jsonl")

/-- What the index compares. -/
def key (stored : Example) : Option Json := stored.caseId.map Json.canonical

def matchesSeed (stored : Example) (seed : SeedCase) : Bool :=
  Json.equals stored.inputs seed.inputs && Json.equals stored.outputs seed.outputs

end Example

/-- `{**base, **written}`: a key of both keeps its place and takes the new value. -/
def mergeEntries (base written : List (String × Json)) : List (String × Json) :=
  base.map (fun entry => (entry.1, (Json.lookup entry.1 written).getD entry.2)) ++
    written.filter fun entry => entry.1 ∉ base.map Prod.fst

def created (seed : SeedCase) : Example where
  inputs := seed.inputs
  outputs := seed.outputs
  metadata := some seed.metadata

def updated (seed : SeedCase) (previous : Example) : Example where
  inputs := seed.inputs
  outputs := seed.outputs
  metadata := some (mergeEntries previous.entries seed.metadata)

def createExample (client : Client) (dataset : Dataset) (seed : SeedCase) : Dataset :=
  dataset.insertNew (client.newId dataset.keys) (created seed) (client.fresh _)

def updateExample (dataset : Dataset) (id : String) (seed : SeedCase) (previous : Example) :
    Dataset :=
  dataset.modify id fun _ => updated seed previous

/-! ## What is written -/

/-- The keys an update writes. -/
def seedKeys : List String := ["case_id", "source", "category"]

/-- The merged metadata: what was written, and under the other keys what was there. -/
theorem lookup_merge_entries (key : String) (base written : List (String × Json)) :
    Json.lookup key (mergeEntries base written) =
      (Json.lookup key written).or (Json.lookup key base) := by
  rw [mergeEntries, Json.lookup_append,
    Json.lookup_map_values fun name value => (Json.lookup name written).getD value]
  by_cases known : key ∈ base.map Prod.fst
  · have dropped :
        Json.lookup key (written.filter fun entry => entry.1 ∉ base.map Prod.fst) = none := by
      apply Json.lookup_eq_none_iff.mpr
      intro member
      have ⟨entry, kept, same⟩ := List.mem_map.mp member
      have unknown := (List.mem_filter.mp kept).2
      rw [same] at unknown
      simp [known] at unknown
    have ⟨value, found⟩ := Option.ne_none_iff_exists'.mp
      (mt Json.lookup_eq_none_iff.mp (not_not.mpr known))
    rw [dropped, found, Option.none_or, Option.map_some]
    cases Json.lookup key written <;> rfl
  · rw [Json.lookup_filter_names known, Json.lookup_eq_none_iff.mpr known, Option.map_none]

theorem updated_entries (seed : SeedCase) (previous : Example) :
    (updated seed previous).entries = mergeEntries previous.entries seed.metadata := rfl

theorem updated_kept (seed : SeedCase) (previous : Example) {key : String}
    (other : key ∉ seedKeys) :
    Json.lookup key (updated seed previous).entries = Json.lookup key previous.entries := by
  have unwritten : Json.lookup key seed.metadata = none := by
    apply Json.lookup_eq_none_iff.mpr
    simpa [SeedCase.metadata, seedKeys] using other
  rw [updated_entries, lookup_merge_entries, unwritten, Option.none_or]

theorem created_matches (seed : SeedCase) : (created seed).matchesSeed seed = true := by
  simp [Example.matchesSeed, created, Json.equals]

theorem updated_matches (seed : SeedCase) (previous : Example) :
    (updated seed previous).matchesSeed seed = true := by
  simp [Example.matchesSeed, updated, Json.equals]

section Named

variable {seed : SeedCase}

theorem created_case_id (named : seed.id.truthy = true) : (created seed).caseId = some seed.id := by
  simp [Example.caseId, Example.entries, created, SeedCase.metadata, Json.lookup, named]

theorem updated_case_id (named : seed.id.truthy = true) (previous : Example) :
    (updated seed previous).caseId = some seed.id := by
  rw [Example.caseId, updated_entries, lookup_merge_entries]
  simp [SeedCase.metadata, Json.lookup, named]

theorem created_key (named : seed.id.truthy = true) : (created seed).key = some seed.key := by
  rw [Example.key, created_case_id named]
  rfl

theorem updated_key (named : seed.id.truthy = true) (previous : Example) :
    (updated seed previous).key = some seed.key := by
  rw [Example.key, updated_case_id named]
  rfl

end Named

/-! ## The call -/

/-- The keys of a dictionary are told apart by `==`. -/
abbrev Index := List (Json × String × Example)

def Index.get (existing : Index) (caseId : Json) : Option (String × Example) :=
  (existing.find? fun entry => Json.equals entry.1 caseId).map Prod.snd

def indexExamples (existing : Index) : List (String × Example) → Except SyncError Index
  | [] => .ok existing
  | listed :: rest =>
      match listed.2.caseId with
      | none => indexExamples existing rest
      | some caseId =>
          if !hashable caseId then .error .unhashable
          else if (existing.get caseId).isSome then
            .error (.valueError "Duplicate remote case_id: " (some caseId))
          else indexExamples (existing ++ [(caseId, listed)]) rest

def syncLoop (client : Client) (existing : Index) :
    List SeedCase → Dataset → Nat → Nat → SyncOutcome
  | [], dataset, added, updated => ⟨dataset, .ok (added, updated)⟩
  | seed :: seeds, dataset, added, updated =>
      match existing.get seed.id with
      | none => syncLoop client existing seeds (createExample client dataset seed) (added + 1) updated
      | some (id, previous) =>
          if previous.matchesSeed seed then syncLoop client existing seeds dataset added updated
          else if !previous.seedOwned then
            ⟨dataset, .error (.valueError "Refusing to overwrite a non-seed example: " seed.id)⟩
          else syncLoop client existing seeds (updateExample dataset id seed previous) added
            (updated + 1)

def syncCases (client : Client) (dataset : Dataset) (seeds : List SeedCase) : SyncOutcome :=
  match indexExamples [] dataset.entries with
  | .error error => ⟨dataset, .error error⟩
  | .ok existing =>
      if (seeds.any fun seed => !hashable seed.id) then ⟨dataset, .error .unhashable⟩
      else if ¬ (seeds.map fun seed => Json.canonical seed.id).Nodup then
        ⟨dataset, .error (.valueError "Duplicate seed case IDs" none)⟩
      else syncLoop client existing seeds dataset 0 0

end AgentHarness.Evaluation
