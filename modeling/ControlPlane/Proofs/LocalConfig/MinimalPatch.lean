import ControlPlane.Proofs.LocalConfig.PatchCalls
import ControlPlane.Proofs.Text.Utf8Order
import Mathlib.Data.List.Perm.Subperm
import Mathlib.Data.List.Sort
import Mathlib.Data.Prod.Lex

/-!
# The patch is the least that leads from one snapshot to another

A patch is found by going through the entries of both snapshots in whatever order they come, noting what
differs and sorting what was noted (`Patch.gather`). The order in which the entries come does not matter:
what is gathered is always the patch between the snapshots (`Patch.gather_eq_between`).

A call of the patch moves its key to where it should be and leaves the others alone, so calls that are
taken from it, in any order, bring just their keys in line (`Call.getElem?_foldl_apply_toward`). Whatever
calls lead to the current snapshot, they call for every key that differs (`Call.mem_keys_of_leads`), so
no call of the patch can be spared.
-/

namespace ControlPlane

namespace LocalConfig

variable {previous current : Snapshot} {calls part : List Call} {key : String}

/-! ## Calls one after another -/

namespace Call

/-- What is not called for stays as it is. -/
theorem getElem?_foldl_apply_of_notMem (h : key ∉ calls.map Call.key) (snapshot : Snapshot) :
    (calls.foldl Call.apply snapshot)[key]? = snapshot[key]? := by
  induction calls generalizing snapshot with
  | nil => rfl
  | cons call calls ih =>
    rw [List.map_cons, List.mem_cons, not_or] at h
    rw [List.foldl_cons, ih h.2, getElem?_apply, if_neg (Ne.symm h.1)]

/-- Calls that move their keys to where they should be bring these keys in line, and no others. -/
theorem getElem?_foldl_apply_toward (h : ∀ call ∈ calls, call = .toward current call.key)
    (snapshot : Snapshot) (key : String) : (calls.foldl Call.apply snapshot)[key]? =
      if key ∈ calls.map Call.key then current[key]? else snapshot[key]? := by
  -- The snapshot is general, since each call meets what the calls before it have left.
  induction calls generalizing snapshot with
  | nil => rfl
  | cons call calls ih =>
    have hvalue : call.value? = current[call.key]? := by
      rw [h call List.mem_cons_self, value?_toward, key_toward]
    rw [List.foldl_cons, ih (fun later hmem => h later (List.mem_cons_of_mem _ hmem)), getElem?_apply,
      hvalue, List.map_cons]
    by_cases hlater : key ∈ calls.map Call.key
    · rw [if_pos hlater, if_pos (List.mem_cons_of_mem _ hlater)]
    · by_cases hkey : call.key = key
      · simp [hkey]
      · simp [hlater, hkey, Ne.symm hkey]

/-- Calls that lead from one snapshot to another call for every key on which the two differ. -/
theorem mem_keys_of_leads (h : calls.foldl Call.apply previous = current)
    (hne : previous[key]? ≠ current[key]?) : key ∈ calls.map Call.key := by
  by_contra hnot
  rw [← h, getElem?_foldl_apply_of_notMem hnot] at hne
  exact hne rfl

end Call

/-! ## Sorting -/

/-- Sorting by a key that tells the elements apart has one outcome for all orders of a list. -/
theorem mergeSort_eq_of_perm {α β : Type} [LinearOrder β] {f : α → β} (hf : Function.Injective f)
    {l sorted : List α} (hperm : l.Perm sorted) (hsorted : sorted.Pairwise fun a b => f a < f b) :
    l.mergeSort (fun a b => f a ≤ f b) = sorted := by
  have hleft : (l.mergeSort fun a b => f a ≤ f b).Pairwise fun a b => decide (f a ≤ f b) := by
    apply List.pairwise_mergeSort
    · intro a b c hab hbc
      exact decide_eq_true ((of_decide_eq_true hab).trans (of_decide_eq_true hbc))
    · intro a b
      simpa using le_total (f a) (f b)
  have hright : sorted.Pairwise fun a b => decide (f a ≤ f b) :=
    hsorted.imp fun hlt => decide_eq_true hlt.le
  refine List.Perm.eq_of_pairwise ?_ hleft hright ((List.mergeSort_perm l _).trans hperm)
  intro a b _ _ hab hba
  exact hf (le_antisymm (of_decide_eq_true hab) (of_decide_eq_true hba))

namespace Patch

/-! ## Gathering a patch -/

/-- Notes an entry of the current snapshot that is new or differs. -/
def noteEntry (previous : Snapshot) (patch : Patch) (entry : String × Bool) : Patch :=
  if previous[entry.1]? ≠ some entry.2 then { patch with set := patch.set ++ [entry] } else patch

/-- Notes a key of the previous snapshot that is gone. -/
def noteKey (current : Snapshot) (patch : Patch) (key : String) : Patch :=
  if current.contains key then patch else { patch with unset := patch.unset ++ [key] }

/-- Sorts what was noted: by key, and then by value. -/
def inOrder (patch : Patch) : Patch where
  set := patch.set.mergeSort fun a b => toLex a ≤ toLex b
  unset := patch.unset.mergeSort fun a b => a ≤ b

/-- The patch that is found on the way through the entries of the current snapshot and the keys of the
previous one, in the order in which they are given. -/
def gather (previous current : Snapshot) (entries : List (String × Bool)) (keys : List String) : Patch :=
  (keys.foldl (noteKey current) (entries.foldl (noteEntry previous) ⟨[], []⟩)).inOrder

theorem foldl_noteEntry (entries : List (String × Bool)) (patch : Patch) :
    entries.foldl (noteEntry previous) patch =
      { patch with set := patch.set ++ entries.filter fun (key, enabled) =>
          previous[key]? ≠ some enabled } := by
  induction entries generalizing patch with
  | nil => simp
  | cons entry entries ih =>
    rw [List.foldl_cons, ih, noteEntry, List.filter_cons]
    by_cases hdiffers : previous[entry.1]? = some entry.2 <;> simp [hdiffers]

theorem foldl_noteKey (keys : List String) (patch : Patch) :
    keys.foldl (noteKey current) patch =
      { patch with unset := patch.unset ++ keys.filter fun key => !current.contains key } := by
  induction keys generalizing patch with
  | nil => simp
  | cons key keys ih =>
    rw [List.foldl_cons, ih, noteKey, List.filter_cons]
    cases current.contains key <;> simp

/-- The order in which the snapshots are gone through does not matter. -/
theorem gather_eq_between {entries : List (String × Bool)} {keys : List String}
    (hentries : entries.Perm current.toList) (hkeys : keys.Perm previous.keys) :
    gather previous current entries keys = between previous current := by
  have hset : (entries.filter fun (key, enabled) => previous[key]? ≠ some enabled).Perm
      (between previous current).set := hentries.filter _
  have hunset : (keys.filter fun key => !current.contains key).Perm (between previous current).unset :=
    hkeys.filter _
  have hascending : (between previous current).set.Pairwise fun a b => toLex a < toLex b :=
    (ascending_set_between previous current).imp fun hlt => Prod.Lex.toLex_lt_toLex.mpr (Or.inl hlt)
  rw [gather, foldl_noteEntry, foldl_noteKey, inOrder, List.nil_append, List.nil_append]
  exact congrArg₂ Patch.mk (mergeSort_eq_of_perm toLex.injective hset hascending)
    (mergeSort_eq_of_perm Function.injective_id hunset (ascending_unset_between previous current))

/-! ## What a patch does -/

/-- The calls that set keys. -/
def setCalls (patch : Patch) : List Call := patch.set.map fun (key, enabled) => .set key enabled

/-- The calls that remove keys. -/
def unsetCalls (patch : Patch) : List Call := patch.unset.map .unset

theorem calls_eq_append (patch : Patch) : patch.calls = patch.setCalls ++ patch.unsetCalls := rfl

/-- Calls of a patch bring just their keys in line, whichever they are and however they are ordered. -/
theorem getElem?_foldl_apply_between (h : part ⊆ (between previous current).calls) (key : String) :
    (part.foldl Call.apply previous)[key]? =
      if key ∈ part.map Call.key then current[key]? else previous[key]? :=
  Call.getElem?_foldl_apply_toward (fun _ hmem => (mem_calls_between.mp (h hmem)).2) previous key

/-- Calls of a patch do what the whole patch does just if no call of it is missing. -/
theorem foldl_apply_between_eq_iff (h : part ⊆ (between previous current).calls) :
    part.foldl Call.apply previous = current ↔ (between previous current).calls ⊆ part := by
  constructor
  · intro hleads call hcall
    obtain ⟨hdiffers, htoward⟩ := mem_calls_between.mp hcall
    obtain ⟨other, hother, hkey⟩ := List.mem_map.mp (Call.mem_keys_of_leads hleads hdiffers)
    -- what a call of the patch does is told by its key
    have hsame : other = call := by
      rw [(mem_calls_between.mp (h hother)).2, hkey]
      exact htoward.symm
    exact hsame ▸ hother
  · intro hall
    refine Std.ExtTreeMap.ext_getElem? fun key => ?_
    rw [getElem?_foldl_apply_between h]
    by_cases hpart : key ∈ part.map Call.key
    · exact if_pos hpart
    · rw [if_neg hpart]
      by_contra hdiffers
      exact hpart (List.map_subset Call.key hall (mem_keys_calls_between.mpr hdiffers))

/-- No calls lead from one snapshot to another that are fewer than those of the patch. -/
theorem length_calls_between_le (h : calls.foldl Call.apply previous = current) :
    (between previous current).calls.length ≤ calls.length := by
  have hkeys : (between previous current).calls.map Call.key ⊆ calls.map Call.key := fun _ hmem =>
    Call.mem_keys_of_leads h (mem_keys_calls_between.mp hmem)
  have hcount := (List.Nodup.subperm (nodup_calls_between previous current) hkeys).length_le
  rwa [List.length_map, List.length_map] at hcount

theorem isEmpty_eq_true_iff (patch : Patch) : patch.isEmpty = true ↔ patch.calls = [] := by
  simp [isEmpty, calls]

/-- What makes a patch the least one that leads from one snapshot to another. -/
structure IsMinimal (patch : Patch) (previous current : Snapshot) : Prop where
  /-- It is what is gathered, in whatever order the two snapshots are gone through. -/
  gathered : ∀ entries keys, entries.Perm current.toList → keys.Perm previous.keys →
    gather previous current entries keys = patch
  /-- No key is set and removed. -/
  disjoint : (patch.set.map Prod.fst).Disjoint patch.unset
  /-- The keys to set ascend. -/
  ascending_set : patch.set.Pairwise fun a b => Utf8.bytes a.1 < Utf8.bytes b.1
  /-- The keys to remove ascend. -/
  ascending_unset : patch.unset.Pairwise fun a b => Utf8.bytes a < Utf8.bytes b
  /-- It leads to the current snapshot when keys are set first. -/
  sets_first : (patch.setCalls ++ patch.unsetCalls).foldl Call.apply previous = current
  /-- It leads to the current snapshot when keys are removed first. -/
  unsets_first : (patch.unsetCalls ++ patch.setCalls).foldl Call.apply previous = current
  /-- Where only some of its calls are made, in whatever order, just their keys come in line. -/
  partly : ∀ part ⊆ patch.calls, ∀ key : String, (part.foldl Call.apply previous)[key]? =
    if key ∈ part.map Call.key then current[key]? else previous[key]?
  /-- Where a call is left out, the current snapshot is missed. -/
  needed : ∀ part ⊆ patch.calls, ∀ call ∈ patch.calls, call ∉ part →
    part.foldl Call.apply previous ≠ current
  /-- No other calls that lead to the current snapshot are fewer. -/
  fewest : ∀ calls : List Call, calls.foldl Call.apply previous = current →
    patch.calls.length ≤ calls.length
  /-- It is empty just if there is nothing to change. -/
  empty : patch.isEmpty = true ↔ previous = current

/--
The patch between two snapshots does not depend on the order in which their entries come. Its keys to set
and its keys to remove are disjoint and each strictly ascending. Carried out in either order it leads from
the first snapshot to the second, some of its calls bring just their keys in line, none of them can be
left out, and there are none just if the snapshots are equal.
-/
theorem minimal_patch (previous current : Snapshot) :
    (between previous current).IsMinimal previous current where
  gathered := fun _ _ => gather_eq_between
  disjoint := disjoint_keys_between previous current
  ascending_set := (ascending_set_between previous current).imp Utf8.bytes_lt
  ascending_unset := (ascending_unset_between previous current).imp Utf8.bytes_lt
  sets_first := by
    rw [← calls_eq_append]
    exact (foldl_apply_between_eq_iff (List.Subset.refl _)).mpr (List.Subset.refl _)
  unsets_first := by
    have hperm : ((between previous current).unsetCalls ++ (between previous current).setCalls).Perm
        (between previous current).calls := by
      rw [calls_eq_append]
      exact List.perm_append_comm
    exact (foldl_apply_between_eq_iff hperm.subset).mpr hperm.symm.subset
  partly := fun _ hpart key => getElem?_foldl_apply_between hpart key
  needed := fun _ hpart _ hcall hleft hleads =>
    hleft ((foldl_apply_between_eq_iff hpart).mp hleads hcall)
  fewest := fun _ => length_calls_between_le
  empty := (isEmpty_eq_true_iff _).trans calls_between_eq_nil_iff

/-- Of five keys one stays, one is switched, two are gone and one is new. Gone through in another order
the snapshots give the same patch, and it misses its aim without one of the removals. -/
theorem minimal_patch_mixed :
    let previous : Snapshot := .ofList [("a", true), ("b", false), ("c", true), ("d", true)]
    let current : Snapshot := .ofList [("a", true), ("b", true), ("e", false)]
    gather previous current [("e", false), ("a", true), ("b", true)] ["d", "b", "c", "a"] =
      ⟨[("b", true), ("e", false)], ["c", "d"]⟩ ∧
    [.unset "d", .set "e" false, .set "b" true].foldl Call.apply previous ≠ current := by
  intro previous current
  have hpatch : between previous current = ⟨[("b", true), ("e", false)], ["c", "d"]⟩ := by
    decide +kernel
  have hminimal := minimal_patch previous current
  rw [hpatch] at hminimal
  refine ⟨hminimal.gathered _ _ (by decide +kernel) (by decide +kernel), ?_⟩
  exact hminimal.needed _ (by decide +kernel) (.unset "c") (by decide +kernel) (by decide +kernel)

end Patch

end LocalConfig

end ControlPlane
