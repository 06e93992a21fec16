import AgentHarness.Library.JsonText
import Mathlib.Data.String.Basic

/-!
# JSON values up to the order of keys

A value as such: an object is a mapping from keys. Sorting the keys of an object makes the values
that differ only in the order of entries equal, and no others, as long as no object has a key twice.
-/

namespace AgentHarness.Library

set_option autoImplicit false

inductive JsonValue where
  | null
  | bool (value : Bool)
  | int (value : Int)
  | float (value : FloatText)
  | str (value : String)
  | arr (items : List JsonValue)
  | obj (fields : String → Option JsonValue)

namespace Json

mutual

/-- What the value stands for. -/
def denote : Json → JsonValue
  | .null => .null
  | .bool value => .bool value
  | .int value => .int value
  | .float value => .float value
  | .str value => .str value
  | .arr items => .arr (denoteItems items)
  | .obj entries => .obj (denoteEntries entries)

def denoteItems : List Json → List JsonValue
  | [] => []
  | item :: items => denote item :: denoteItems items

/-- As in `lookup`, the last entry of a key wins. -/
def denoteEntries : List (String × Json) → String → Option JsonValue
  | [], _ => none
  | (name, value) :: entries, key =>
      match denoteEntries entries key with
      | some found => some found
      | none => if name = key then some (denote value) else none

end

mutual

/-- No object in the value has a key twice, as no dictionary has. -/
def distinctKeys : Json → Bool
  | .arr items => distinctKeysItems items
  | .obj entries => (entries.map Prod.fst).Nodup && distinctKeysEntries entries
  | _ => true

def distinctKeysItems : List Json → Bool
  | [] => true
  | item :: items => distinctKeys item && distinctKeysItems items

def distinctKeysEntries : List (String × Json) → Bool
  | [] => true
  | (_, value) :: entries => distinctKeys value && distinctKeysEntries entries

end

theorem distinct_of_mem {entries : List (String × Json)} {name : String} {value : Json}
    (distinct : distinctKeysEntries entries = true) (member : (name, value) ∈ entries) :
    distinctKeys value = true := by
  induction entries with
  | nil => cases member
  | cons entry entries ih =>
      rw [distinctKeysEntries, Bool.and_eq_true] at distinct
      rcases List.mem_cons.mp member with same | later
      · cases same
        exact distinct.1
      · exact ih distinct.2 later

/-! ## Objects as mappings -/

theorem denote_entries_eq_none_iff (entries : List (String × Json)) (key : String) :
    denoteEntries entries key = none ↔ key ∉ entries.map Prod.fst := by
  induction entries with
  | nil => simp [denoteEntries]
  | cons entry entries ih =>
      rw [denoteEntries, List.map_cons, List.mem_cons, not_or]
      cases found : denoteEntries entries key with
      | some value =>
          have present : key ∈ entries.map Prod.fst := by
            by_contra absent
            rw [ih.mpr absent] at found
            cases found
          simp [present]
      | none =>
          have absent := ih.mp found
          by_cases same : entry.1 = key
          · simp [same]
          · simp [same, absent, Ne.symm same]

theorem denote_entries_of_mem {entries : List (String × Json)} {name : String} {value : Json}
    (unique : (entries.map Prod.fst).Nodup) (member : (name, value) ∈ entries) :
    denoteEntries entries name = some (denote value) := by
  induction entries with
  | nil => cases member
  | cons entry entries ih =>
      obtain ⟨absent, rest⟩ := List.nodup_cons.mp unique
      rcases List.mem_cons.mp member with same | later
      · subst same
        rw [denoteEntries, (denote_entries_eq_none_iff entries name).mpr absent]
        simp
      · rw [denoteEntries, ih rest later]

theorem mem_of_denote_entries {entries : List (String × Json)} {key : String}
    {denoted : JsonValue} (found : denoteEntries entries key = some denoted) :
    ∃ value, (key, value) ∈ entries ∧ denote value = denoted := by
  induction entries with
  | nil => cases found
  | cons entry entries ih =>
      obtain ⟨name, value⟩ := entry
      rw [denoteEntries] at found
      cases inner : denoteEntries entries key with
      | some other =>
          rw [inner] at found
          obtain ⟨value, member, isDenoted⟩ := ih (inner.trans found)
          exact ⟨value, List.mem_cons_of_mem _ member, isDenoted⟩
      | none =>
          rw [inner] at found
          simp only at found
          split_ifs at found with same
          subst same
          exact ⟨value, List.mem_cons_self, Option.some.inj found⟩

/-- A mapping does not depend on the order its entries are written in. -/
theorem denote_entries_perm {left right : List (String × Json)}
    (unique : (left.map Prod.fst).Nodup) (same : left.Perm right) :
    denoteEntries left = denoteEntries right := by
  have uniqueRight : (right.map Prod.fst).Nodup := (same.map Prod.fst).nodup_iff.mp unique
  funext key
  cases found : denoteEntries right key with
  | none =>
      rw [denote_entries_eq_none_iff] at found ⊢
      intro present
      exact found ((same.map Prod.fst).mem_iff.mp present)
  | some denoted =>
      obtain ⟨value, member, isDenoted⟩ := mem_of_denote_entries found
      rw [denote_entries_of_mem unique (same.mem_iff.mpr member), isDenoted]

end Json

namespace JsonText

open Json

/-! ## Sorted keys -/

theorem sort_entries_perm (entries : List (String × Json)) : (sortEntries entries).Perm entries :=
  List.perm_insertionSort _ entries

theorem sort_keys_names (entries : List (String × Json)) :
    (sortKeysEntries entries).map Prod.fst = entries.map Prod.fst := by
  induction entries with
  | nil => rfl
  | cons entry entries ih => simp only [sortKeysEntries, List.map_cons, ih]

mutual

theorem denote_sort_keys :
    (value : Json) → distinctKeys value = true → denote (sortKeys value) = denote value
  | .null, _ | .bool _, _ | .int _, _ | .float _, _ | .str _, _ => by
      rw [sortKeys]
      all_goals simp
  | .arr items, distinct => by
      rw [sortKeys, denote, denote, denote_sort_keys_items items distinct]
  | .obj entries, distinct => by
      rw [distinctKeys, Bool.and_eq_true, decide_eq_true_eq] at distinct
      have unique : ((sortKeysEntries entries).map Prod.fst).Nodup := by
        rw [sort_keys_names]
        exact distinct.1
      rw [sortKeys, denote, denote,
        ← denote_entries_perm unique (sort_entries_perm _).symm,
        denote_sort_keys_entries entries distinct.2]

theorem denote_sort_keys_items :
    (items : List Json) → distinctKeysItems items = true →
      denoteItems (sortKeysItems items) = denoteItems items
  | [], _ => rfl
  | item :: items, distinct => by
      rw [distinctKeysItems, Bool.and_eq_true] at distinct
      rw [sortKeysItems, denoteItems, denoteItems, denote_sort_keys item distinct.1,
        denote_sort_keys_items items distinct.2]

theorem denote_sort_keys_entries :
    (entries : List (String × Json)) → distinctKeysEntries entries = true →
      denoteEntries (sortKeysEntries entries) = denoteEntries entries
  | [], _ => rfl
  | (name, value) :: entries, distinct => by
      rw [distinctKeysEntries, Bool.and_eq_true] at distinct
      funext key
      rw [sortKeysEntries, denoteEntries, denoteEntries, denote_sort_keys value distinct.1,
        denote_sort_keys_entries entries distinct.2]

end

theorem mem_sort_keys_entries (entries : List (String × Json)) (name : String) (sorted : Json) :
    (name, sorted) ∈ sortKeysEntries entries ↔
      ∃ value, (name, value) ∈ entries ∧ sorted = sortKeys value := by
  induction entries with
  | nil => simp [sortKeysEntries]
  | cons entry entries ih =>
      simp only [sortKeysEntries, List.mem_cons, Prod.mk.injEq, ih]
      constructor
      · rintro (⟨rfl, rfl⟩ | ⟨value, member, isSorted⟩)
        · exact ⟨entry.2, Or.inl rfl, rfl⟩
        · exact ⟨value, Or.inr member, isSorted⟩
      · rintro ⟨value, rfl | member, isSorted⟩
        · exact Or.inl ⟨rfl, isSorted⟩
        · exact Or.inr ⟨value, member, isSorted⟩

theorem nodup_of_names {entries : List (String × Json)} (unique : (entries.map Prod.fst).Nodup) :
    entries.Nodup := List.Nodup.of_map Prod.fst unique

/-- Two ways of writing one mapping are sorted into the same list. -/
theorem sort_entries_congr {left right : List (String × Json)}
    (unique : (left.map Prod.fst).Nodup) (same : left.Perm right) :
    sortEntries left = sortEntries right := by
  have total : Std.Total fun left right : String × Json => left.1 ≤ right.1 :=
    ⟨fun left right => le_total left.1 right.1⟩
  have trans : IsTrans (String × Json) fun left right => left.1 ≤ right.1 :=
    ⟨fun _ _ _ first second => first.trans second⟩
  apply List.Perm.eq_of_pairwise _ (List.pairwise_insertionSort _ left)
    (List.pairwise_insertionSort _ right)
  · exact ((sort_entries_perm left).trans same).trans (sort_entries_perm right).symm
  · intro entry other entryMem otherMem before after
    have inLeft := (sort_entries_perm left).mem_iff.mp entryMem
    have otherLeft := same.mem_iff.mpr ((sort_entries_perm right).mem_iff.mp otherMem)
    exact List.inj_on_of_nodup_map unique inLeft otherLeft (le_antisymm before after)

theorem sort_object_congr {left right : List (String × Json)}
    (unique : (left.map Prod.fst).Nodup) (uniqueRight : (right.map Prod.fst).Nodup)
    (inner : ∀ name value other, (name, value) ∈ left → (name, other) ∈ right →
      denote value = denote other → sortKeys value = sortKeys other)
    (same : denoteEntries left = denoteEntries right) :
    sortEntries (sortKeysEntries left) = sortEntries (sortKeysEntries right) := by
  have names : ((sortKeysEntries left).map Prod.fst).Nodup := by rwa [sort_keys_names]
  have namesRight : ((sortKeysEntries right).map Prod.fst).Nodup := by rwa [sort_keys_names]
  apply sort_entries_congr names
  rw [List.perm_ext_iff_of_nodup (nodup_of_names names) (nodup_of_names namesRight)]
  intro entry
  obtain ⟨name, sorted⟩ := entry
  rw [mem_sort_keys_entries, mem_sort_keys_entries]
  constructor
  · rintro ⟨value, member, isSorted⟩
    have found := denote_entries_of_mem unique member
    rw [same] at found
    obtain ⟨other, otherMem, isDenoted⟩ := mem_of_denote_entries found
    exact ⟨other, otherMem, isSorted.trans (inner name value other member otherMem isDenoted.symm)⟩
  · rintro ⟨other, otherMem, isSorted⟩
    have found := denote_entries_of_mem uniqueRight otherMem
    rw [← same] at found
    obtain ⟨value, member, isDenoted⟩ := mem_of_denote_entries found
    exact ⟨value, member, isSorted.trans (inner name value other member otherMem isDenoted).symm⟩

mutual

theorem sort_keys_of_denote :
    (left right : Json) → distinctKeys left = true → distinctKeys right = true →
      denote left = denote right → sortKeys left = sortKeys right
  | .null, right, _, _, same | .bool _, right, _, _, same | .int _, right, _, _, same
  | .float _, right, _, _, same | .str _, right, _, _, same => by
      cases right <;> simp only [denote, reduceCtorEq, JsonValue.bool.injEq,
        JsonValue.int.injEq, JsonValue.float.injEq, JsonValue.str.injEq] at same
      all_goals first | rfl | rw [same]
  | .arr items, right, distinct, distinctRight, same => by
      cases right with
      | arr others =>
          rw [denote, denote, JsonValue.arr.injEq] at same
          rw [sortKeys, sortKeys,
            sort_keys_items_of_denote items others distinct distinctRight same]
      | _ => simp only [denote, reduceCtorEq] at same
  | .obj entries, right, distinct, distinctRight, same => by
      cases right with
      | obj others =>
          rw [distinctKeys, Bool.and_eq_true, decide_eq_true_eq] at distinct distinctRight
          rw [denote, denote, JsonValue.obj.injEq] at same
          rw [sortKeys, sortKeys, sort_object_congr distinct.1 distinctRight.1 _ same]
          intro name value other member otherMem isDenoted
          exact sort_keys_entries_of_denote entries name value member other
            (distinct_of_mem distinct.2 member) (distinct_of_mem distinctRight.2 otherMem)
            isDenoted
      | _ => simp only [denote, reduceCtorEq] at same

theorem sort_keys_items_of_denote :
    (left right : List Json) → distinctKeysItems left = true → distinctKeysItems right = true →
      denoteItems left = denoteItems right → sortKeysItems left = sortKeysItems right
  | [], [], _, _, _ => rfl
  | [], _ :: _, _, _, same => by simp [denoteItems] at same
  | _ :: _, [], _, _, same => by simp [denoteItems] at same
  | item :: items, other :: others, distinct, distinctRight, same => by
      rw [distinctKeysItems, Bool.and_eq_true] at distinct distinctRight
      rw [denoteItems, denoteItems, List.cons.injEq] at same
      rw [sortKeysItems, sortKeysItems,
        sort_keys_of_denote item other distinct.1 distinctRight.1 same.1,
        sort_keys_items_of_denote items others distinct.2 distinctRight.2 same.2]

theorem sort_keys_entries_of_denote :
    (entries : List (String × Json)) → ∀ name value, (name, value) ∈ entries →
      ∀ other, distinctKeys value = true → distinctKeys other = true →
        denote value = denote other → sortKeys value = sortKeys other
  | (_, first) :: entries, name, value, member, other, distinct, distinctOther, same => by
      rcases List.mem_cons.mp member with isFirst | later
      · have isValue : value = first := (Prod.mk.inj isFirst).2
        rw [isValue] at distinct same ⊢
        exact sort_keys_of_denote first other distinct distinctOther same
      · exact sort_keys_entries_of_denote entries name value later other distinct distinctOther
          same

end

/-- Sorting the keys keeps apart exactly the values that are not equal. -/
theorem sort_keys_eq_iff {left right : Json} (distinct : distinctKeys left = true)
    (distinctRight : distinctKeys right = true) :
    sortKeys left = sortKeys right ↔ denote left = denote right := by
  constructor
  · intro same
    rw [← denote_sort_keys left distinct, ← denote_sort_keys right distinctRight, same]
  · exact sort_keys_of_denote left right distinct distinctRight

end JsonText

end AgentHarness.Library
