import Mathlib.Data.List.Nodup

/-!
# Insertion-ordered dictionaries

A dictionary keeps one entry a key, in the order the keys were first written. The field `nodup`
makes a dictionary with a repeated key unrepresentable.
-/

namespace AgentHarness.Library

set_option autoImplicit false

structure Dict (Key Value : Type*) where
  entries : List (Key × Value)
  nodup : (entries.map Prod.fst).Nodup

namespace Dict

variable {Key Value : Type*}

def empty : Dict Key Value where
  entries := []
  nodup := List.nodup_nil

def keys (dict : Dict Key Value) : List Key := dict.entries.map Prod.fst

def size (dict : Dict Key Value) : Nat := dict.entries.length

theorem mem_keys_iff (dict : Dict Key Value) (key : Key) :
    key ∈ dict.keys ↔ ∃ value, (key, value) ∈ dict.entries := by
  simp [keys]

@[simp] theorem keys_length (dict : Dict Key Value) : dict.keys.length = dict.size := by
  simp [keys, size]

/-- A key stands for one value. -/
theorem value_unique (dict : Dict Key Value) {key : Key} {left right : Value}
    (leftMem : (key, left) ∈ dict.entries) (rightMem : (key, right) ∈ dict.entries) :
    left = right := by
  have same := List.inj_on_of_nodup_map dict.nodup leftMem rightMem rfl
  exact congrArg Prod.snd same

def insertNew (dict : Dict Key Value) (key : Key) (value : Value) (fresh : key ∉ dict.keys) :
    Dict Key Value where
  entries := dict.entries ++ [(key, value)]
  nodup := by
    rw [List.map_append, List.nodup_append]
    refine ⟨dict.nodup, by simp, ?_⟩
    rintro found member _ single rfl
    simp only [List.map_cons, List.map_nil, List.mem_singleton] at single
    exact fresh (single ▸ member)

def mapValues (dict : Dict Key Value) (change : Value → Value) : Dict Key Value where
  entries := dict.entries.map fun entry => (entry.1, change entry.2)
  nodup := by
    rw [List.map_map]
    exact dict.nodup

@[simp] theorem mem_insert_new (dict : Dict Key Value) (key : Key) (value : Value)
    (fresh : key ∉ dict.keys) (entry : Key × Value) :
    entry ∈ (dict.insertNew key value fresh).entries ↔
      entry ∈ dict.entries ∨ entry = (key, value) := by
  simp [insertNew]

theorem mem_map_values (dict : Dict Key Value) (change : Value → Value) (entry : Key × Value) :
    entry ∈ (dict.mapValues change).entries ↔
      ∃ value, (entry.1, value) ∈ dict.entries ∧ entry.2 = change value := by
  simp only [mapValues, List.mem_map]
  constructor
  · rintro ⟨old, member, rfl⟩
    exact ⟨old.2, member, rfl⟩
  · rintro ⟨value, member, changed⟩
    exact ⟨(entry.1, value), member, by rw [← changed]⟩

@[simp] theorem keys_insert_new (dict : Dict Key Value) (key : Key) (value : Value)
    (fresh : key ∉ dict.keys) : (dict.insertNew key value fresh).keys = dict.keys ++ [key] := by
  simp [keys, insertNew]

@[simp] theorem keys_map_values (dict : Dict Key Value) (change : Value → Value) :
    (dict.mapValues change).keys = dict.keys := by
  simp [keys, mapValues]

variable [DecidableEq Key]

def get? (dict : Dict Key Value) (key : Key) : Option Value :=
  (dict.entries.find? fun entry => entry.1 = key).map Prod.snd

theorem get?_eq_some_iff (dict : Dict Key Value) (key : Key) (value : Value) :
    dict.get? key = some value ↔ (key, value) ∈ dict.entries := by
  constructor
  · intro found
    obtain ⟨entry, first, rfl⟩ := Option.map_eq_some_iff.mp found
    have named : entry.1 = key := by simpa using List.find?_some first
    subst named
    exact List.mem_of_find?_eq_some first
  · intro member
    cases first : dict.entries.find? fun entry => entry.1 = key with
    | none =>
        have absent := List.find?_eq_none.mp first (key, value) member
        simp at absent
    | some entry =>
        have named : entry.1 = key := by simpa using List.find?_some first
        subst named
        have found := List.mem_of_find?_eq_some first
        simp only [get?, first, Option.map_some, dict.value_unique found member]

def pop (dict : Dict Key Value) (key : Key) : Dict Key Value where
  entries := dict.entries.filter fun entry => entry.1 ≠ key
  nodup := dict.nodup.sublist (List.filter_sublist.map Prod.fst)

def modify (dict : Dict Key Value) (key : Key) (change : Value → Value) : Dict Key Value where
  entries := dict.entries.map fun entry =>
    if entry.1 = key then (entry.1, change entry.2) else entry
  nodup := by
    have same : (dict.entries.map fun entry =>
        if entry.1 = key then (entry.1, change entry.2) else entry).map Prod.fst =
          dict.entries.map Prod.fst := by
      rw [List.map_map]
      refine List.map_congr_left fun entry _ => ?_
      simp only [Function.comp_apply]
      split_ifs <;> rfl
    rw [same]
    exact dict.nodup

@[simp] theorem mem_pop (dict : Dict Key Value) (key : Key) (entry : Key × Value) :
    entry ∈ (dict.pop key).entries ↔ entry ∈ dict.entries ∧ entry.1 ≠ key := by
  simp [pop]

theorem mem_modify (dict : Dict Key Value) (key : Key) (change : Value → Value)
    (entry : Key × Value) :
    entry ∈ (dict.modify key change).entries ↔
      (entry ∈ dict.entries ∧ entry.1 ≠ key) ∨
        ∃ value, (key, value) ∈ dict.entries ∧ entry = (key, change value) := by
  simp only [modify, List.mem_map]
  constructor
  · rintro ⟨old, member, rfl⟩
    by_cases named : old.1 = key
    · right
      refine ⟨old.2, named ▸ member, ?_⟩
      rw [if_pos named, named]
    · left
      rw [if_neg named]
      exact ⟨member, named⟩
  · rintro (⟨member, other⟩ | ⟨value, member, rfl⟩)
    · exact ⟨entry, member, if_neg other⟩
    · exact ⟨(key, value), member, if_pos rfl⟩

@[simp] theorem keys_pop (dict : Dict Key Value) (key : Key) :
    (dict.pop key).keys = dict.keys.filter fun name => name ≠ key := by
  simp [keys, pop, List.filter_map, Function.comp_def]

@[simp] theorem keys_modify (dict : Dict Key Value) (key : Key) (change : Value → Value) :
    (dict.modify key change).keys = dict.keys := by
  simp only [keys, modify, List.map_map]
  refine List.map_congr_left fun entry _ => ?_
  simp only [Function.comp_apply]
  split_ifs <;> rfl

end Dict

end AgentHarness.Library
