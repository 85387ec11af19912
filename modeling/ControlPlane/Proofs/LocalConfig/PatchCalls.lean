import ControlPlane.LocalConfig.Snapshot
import Mathlib.Data.List.Nodup

/-!
# The calls of a patch

The patch between two snapshots calls for exactly the keys on which they differ, once for each, and
gives such a key what the second snapshot holds of it (`Patch.mem_calls_between`,
`Patch.nodup_calls_between`). The keys to set and those to remove stand in ascending order. What a call,
or the restoring of a key, makes of a snapshot is told key by key.
-/

namespace ControlPlane

namespace LocalConfig

namespace Snapshot

@[simp]
theorem getElem?_insert_key (snapshot : Snapshot) (key key' : String) (value : Bool) :
    (snapshot.insert key value)[key']? = if key = key' then some value else snapshot[key']? := by
  rw [Std.ExtTreeMap.getElem?_insert]
  simp only [Std.LawfulEqCmp.compare_eq_iff_eq]

@[simp]
theorem getElem?_erase_key (snapshot : Snapshot) (key key' : String) :
    (snapshot.erase key)[key']? = if key = key' then none else snapshot[key']? := by
  rw [Std.ExtTreeMap.getElem?_erase]
  simp only [Std.LawfulEqCmp.compare_eq_iff_eq]

theorem getElem?_restore (snapshot old : Snapshot) (key key' : String) :
    (snapshot.restore old key)[key']? = if key = key' then old[key']? else snapshot[key']? := by
  unfold restore
  by_cases hk : key = key'
  · subst hk
    cases hold : old[key]? <;> simp
  · cases hold : old[key]? <;> simp [hk]

/-- Keys that are restored one after another are as in the old snapshot, the others as before. -/
theorem getElem?_foldl_restore (old : Snapshot) (keys : List String) (key : String) :
    ∀ snapshot : Snapshot, (keys.foldl (fun next key => next.restore old key) snapshot)[key]? =
      if key ∈ keys then old[key]? else snapshot[key]? := by
  induction keys with
  | nil => intro snapshot; rfl
  | cons first keys ih =>
    intro snapshot
    rw [List.foldl_cons, ih, getElem?_restore]
    by_cases hmem : key ∈ keys
    · simp [hmem]
    · by_cases hk : first = key
      · simp [hk]
      · simp [hmem, hk, Ne.symm hk]

end Snapshot

namespace Call

/-- What a call gives its key: a value or nothing. -/
def value? : Call → Option Bool
  | .set _ enabled => some enabled
  | .unset _ => none

/-- The call that gives a key what a snapshot holds of it. -/
def toward (current : Snapshot) (key : String) : Call :=
  match current[key]? with
  | some enabled => .set key enabled
  | none => .unset key

@[simp]
theorem key_toward (current : Snapshot) (key : String) : (toward current key).key = key := by
  unfold toward
  split <;> rfl

@[simp]
theorem value?_toward (current : Snapshot) (key : String) :
    (toward current key).value? = current[key]? := by
  unfold toward
  split
  · next h => rw [h]; rfl
  · next h => rw [h]; rfl

theorem getElem?_apply (snapshot : Snapshot) (call : Call) (key : String) :
    (call.apply snapshot)[key]? = if call.key = key then call.value? else snapshot[key]? := by
  cases call with
  | set key' enabled => exact Snapshot.getElem?_insert_key snapshot key' key enabled
  | unset key' => exact Snapshot.getElem?_erase_key snapshot key' key

end Call

namespace Patch

theorem mem_set_between {previous current : Snapshot} {key : String} {value : Bool} :
    (key, value) ∈ (between previous current).set ↔
      previous[key]? ≠ some value ∧ current[key]? = some value := by
  simp [between, Std.ExtTreeMap.mem_toList_iff_getElem?_eq_some, and_comm]

theorem mem_unset_between {previous current : Snapshot} {key : String} :
    key ∈ (between previous current).unset ↔ previous[key]? ≠ none ∧ current[key]? = none := by
  unfold between
  rw [List.mem_filter, Std.ExtTreeMap.mem_keys, Std.ExtTreeMap.mem_iff_isSome_getElem?,
    Std.ExtTreeMap.contains_eq_isSome_getElem?, Option.isSome_iff_ne_none, Bool.not_eq_true',
    Option.isSome_eq_false_iff, Option.isNone_iff_eq_none]

/-- A call is made when its key differs, and it moves the key to where it should be. -/
theorem mem_calls_between {previous current : Snapshot} {call : Call} :
    call ∈ (between previous current).calls ↔
      previous[call.key]? ≠ current[call.key]? ∧ call = .toward current call.key := by
  unfold calls
  rw [List.mem_append, List.mem_map, List.mem_map]
  cases call with
  | set key value =>
    have hset : (∃ entry ∈ (between previous current).set, Call.set entry.1 entry.2 = .set key value) ↔
        (key, value) ∈ (between previous current).set := by simp
    simp only [hset, mem_set_between, reduceCtorEq, and_false, exists_false, or_false, Call.key,
      Call.toward]
    cases current[key]? <;> simp +contextual [eq_comm]
  | unset key =>
    simp only [reduceCtorEq, and_false, exists_false, false_or, Call.unset.injEq, exists_eq_right,
      mem_unset_between, Call.key, Call.toward]
    cases current[key]? <;> simp

/-- The keys that are called for are those that differ. -/
theorem mem_keys_calls_between {previous current : Snapshot} {key : String} :
    key ∈ (between previous current).calls.map Call.key ↔ previous[key]? ≠ current[key]? := by
  rw [List.mem_map]
  constructor
  · rintro ⟨call, hmem, rfl⟩
    exact (mem_calls_between.mp hmem).1
  · intro hne
    refine ⟨.toward current key, ?_, Call.key_toward current key⟩
    rw [mem_calls_between, Call.key_toward]
    exact ⟨hne, rfl⟩

/-- Where there is nothing to call for, nothing differs. -/
theorem eq_of_calls_between_eq_nil {previous current : Snapshot}
    (h : (between previous current).calls = []) : previous = current := by
  refine Std.ExtTreeMap.ext_getElem? fun key => Decidable.byContradiction fun hne => ?_
  have hmem := mem_keys_calls_between.mpr hne
  rw [h] at hmem
  cases hmem

/-- No key is set and removed, since a key to set is in the current snapshot and one to remove is not. -/
theorem disjoint_keys_between (previous current : Snapshot) :
    ((between previous current).set.map Prod.fst).Disjoint (between previous current).unset := by
  intro key hset hunset
  obtain ⟨⟨_, value⟩, hmem, rfl⟩ := List.mem_map.1 hset
  have hin := (mem_set_between.1 hmem).2
  rw [(mem_unset_between.1 hunset).2] at hin
  cases hin

/-- No key is called for twice. -/
theorem nodup_calls_between (previous current : Snapshot) :
    ((between previous current).calls.map Call.key).Nodup := by
  have hset : ((between previous current).set.map Prod.fst).Nodup := by
    have hkeys : (current.toList.map Prod.fst).Nodup := by
      rw [Std.ExtTreeMap.map_fst_toList_eq_keys]
      exact Std.ExtTreeMap.nodup_keys
    exact hkeys.sublist (List.filter_sublist.map Prod.fst)
  have hunset : (between previous current).unset.Nodup :=
    Std.ExtTreeMap.nodup_keys.sublist List.filter_sublist
  have hcalls : (between previous current).calls.map Call.key =
      (between previous current).set.map Prod.fst ++ (between previous current).unset := by
    simp [calls, Function.comp_def, Call.key]
  rw [hcalls]
  exact List.Nodup.append hset hunset (disjoint_keys_between previous current)

theorem ascending_set_between (previous current : Snapshot) :
    (between previous current).set.Pairwise fun a b => a.1 < b.1 := by
  have hordered : current.toList.Pairwise fun a b => compare a.1 b.1 = .lt :=
    Std.ExtTreeMap.ordered_keys_toList
  exact (hordered.imp compareOfLessAndEq_eq_lt.mp).sublist List.filter_sublist

theorem ascending_unset_between (previous current : Snapshot) :
    (between previous current).unset.Pairwise (· < ·) := by
  have hordered : previous.keys.Pairwise fun a b => compare a b = .lt := Std.ExtTreeMap.ordered_keys
  exact (hordered.imp compareOfLessAndEq_eq_lt.mp).sublist List.filter_sublist

theorem count_keys_calls_between (previous current : Snapshot) (key : String) :
    ((between previous current).calls.map Call.key).count key =
      if previous[key]? = current[key]? then 0 else 1 := by
  split
  · next heq =>
    rw [List.count_eq_zero, mem_keys_calls_between]
    exact fun hne => hne heq
  · next hne =>
    exact List.count_eq_one_of_mem (nodup_calls_between _ _) (mem_keys_calls_between.mpr hne)

theorem calls_between_eq_nil_iff {previous current : Snapshot} :
    (between previous current).calls = [] ↔ previous = current := by
  refine ⟨eq_of_calls_between_eq_nil, ?_⟩
  rintro rfl
  rw [List.eq_nil_iff_forall_not_mem]
  intro call hmem
  exact (mem_calls_between.mp hmem).1 rfl

/-- Where snapshots differ in one key at most, the patch calls for this key at most. -/
theorem calls_between_of_agree {previous current : Snapshot} {key : String}
    (hagree : ∀ key', key' ≠ key → previous[key']? = current[key']?) :
    (between previous current).calls =
      if previous[key]? = current[key]? then [] else [.toward current key] := by
  split
  · next heq =>
    refine calls_between_eq_nil_iff.mpr (Std.ExtTreeMap.ext_getElem? fun key' => ?_)
    by_cases hkey : key' = key
    · rwa [hkey]
    · exact hagree key' hkey
  · next hne =>
    have hall : ∀ call ∈ (between previous current).calls, call = .toward current key := by
      intro call hmem
      obtain ⟨hdiffers, hcall⟩ := mem_calls_between.mp hmem
      have hkey : call.key = key := Decidable.byContradiction fun hkey => hdiffers (hagree _ hkey)
      rwa [hkey] at hcall
    have hmem : Call.toward current key ∈ (between previous current).calls := by
      rw [mem_calls_between, Call.key_toward]
      exact ⟨hne, rfl⟩
    have honce := count_keys_calls_between previous current key
    rw [if_neg hne, List.count_eq_length.mpr, List.length_map] at honce
    · obtain ⟨call, hcalls⟩ := List.length_eq_one_iff.mp honce
      rw [hcalls, List.mem_singleton] at hmem
      rw [hcalls, hmem]
    · intro key' hkey
      obtain ⟨call, hcall, rfl⟩ := List.mem_map.mp hkey
      rw [hall call hcall, Call.key_toward]

end Patch

end LocalConfig

end ControlPlane
