import ControlPlane.Proofs.LocalConfig.PatchCalls
import ControlPlane.Proofs.Store.Intact
import Mathlib.Data.List.Induction

/-!
# Gates and their local keys

A local key begins with the head of all local keys, and is the local key of the gate that is named by it.
The gate that is named by what follows the head has the same local key, unless that name is a local key
itself. No other gate shares it.

What a list of gates says of a name is `Gate.switch?`, and the snapshot of gates with different names is
told by it (`Snapshot.getElem?_ofGates`): under a local key stands what is said of the key itself, and
only if nothing is said of it what is said of the other name. So the order of the gates does not matter,
and gates with other local keys do not matter either.
-/

namespace ControlPlane

open LocalConfig

/-- What gates say of a name. -/
def Gate.switch? (gates : List Gate) (name : String) : Option Bool :=
  (gates.find? (·.key = name)).map (·.enabled)

namespace LocalConfig

variable {name name' rest : String} {enabled : Bool} {gates : List Gate}

/-! ## Local keys -/

theorem isLocalKey_iff : isLocalKey name = true ↔ ∃ rest, name = featureHead ++ rest := by
  unfold isLocalKey
  rw [List.isPrefixOf_iff_prefix]
  constructor
  · rintro ⟨rest, hrest⟩
    refine ⟨String.ofList rest, String.toList_inj.mp ?_⟩
    rw [String.toList_append, String.toList_ofList, hrest]
  · rintro ⟨rest, rfl⟩
    exact ⟨rest.toList, String.toList_append.symm⟩

theorem isLocalKey_featureHead (rest : String) : isLocalKey (featureHead ++ rest) = true :=
  isLocalKey_iff.mpr ⟨rest, rfl⟩

theorem localKey_of_isLocalKey (h : isLocalKey name = true) : localKey name = name := if_pos h

theorem localKey_of_bare (h : isLocalKey name = false) : localKey name = featureHead ++ name :=
  if_neg (Bool.eq_false_iff.mp h)

theorem isLocalKey_localKey (name : String) : isLocalKey (localKey name) = true := by
  unfold localKey
  split
  · assumption
  · exact isLocalKey_featureHead name

/-- The names with a local key are the key itself and, if it is no local key, what follows the head. -/
theorem localKey_eq_iff : localKey name = featureHead ++ rest ↔
    name = featureHead ++ rest ∨ isLocalKey rest = false ∧ name = rest := by
  cases hname : isLocalKey name with
  | true =>
    rw [localKey_of_isLocalKey hname]
    refine (or_iff_left ?_).symm
    rintro ⟨hrest, rfl⟩
    rw [hname] at hrest
    cases hrest
  | false =>
    rw [localKey_of_bare hname, String.append_right_inj]
    constructor
    · rintro rfl
      exact Or.inr ⟨hname, rfl⟩
    · rintro (rfl | ⟨-, rfl⟩)
      · rw [isLocalKey_featureHead] at hname
        cases hname
      · rfl

end LocalConfig

/-! ## What gates say -/

namespace Gate

variable {name name' : String} {enabled : Bool} {gates gates' : List Gate}

theorem switch?_append (gates gates' : List Gate) (name : String) :
    switch? (gates ++ gates') name = (switch? gates name).or (switch? gates' name) := by
  rw [switch?, List.find?_append, Option.map_or]
  rfl

theorem switch?_singleton (gate : Gate) (name : String) :
    switch? [gate] name = if gate.key = name then some gate.enabled else none := by
  by_cases h : gate.key = name <;> simp [switch?, h]

theorem switch?_eq_none : switch? gates name = none ↔ ∀ gate ∈ gates, gate.key ≠ name := by
  simp [switch?]

/-- Where gates have different names, what they say of one is what its gate says. -/
theorem switch?_eq_some (h : (gates.map Gate.key).Nodup) :
    switch? gates name = some enabled ↔ ⟨name, enabled⟩ ∈ gates := by
  induction gates with
  | nil => simp [switch?]
  | cons gate gates ih =>
    rw [List.map_cons, List.nodup_cons] at h
    rw [← List.singleton_append, switch?_append, switch?_singleton, List.singleton_append,
      List.mem_cons]
    by_cases hkey : gate.key = name
    · have hother : ⟨name, enabled⟩ ∉ gates := fun hmem =>
        h.1 (List.mem_map.mpr ⟨_, hmem, hkey.symm⟩)
      subst hkey
      have hself : (⟨gate.key, enabled⟩ : Gate) = gate ↔ gate.enabled = enabled := by
        obtain ⟨key, enabled'⟩ := gate
        simp [eq_comm]
      simp [hother, hself]
    · have hother : (⟨name, enabled⟩ : Gate) ≠ gate := by
        rintro rfl
        exact hkey rfl
      simp [hkey, hother, ih h.2]

theorem switch?_perm (h : (gates.map Gate.key).Nodup) (hperm : gates.Perm gates') (name : String) :
    switch? gates name = switch? gates' name := by
  refine Option.ext fun enabled => ?_
  rw [switch?_eq_some h, switch?_eq_some ((hperm.map Gate.key).nodup_iff.mp h), hperm.mem_iff]

end Gate

namespace LocalConfig

namespace Snapshot

variable {gates gates' : List Gate}

/-! ## Snapshots of gates -/

theorem getElem?_addGate (snapshot : Snapshot) (gate : Gate) (key : String) :
    (snapshot.addGate gate)[key]? =
      if localKey gate.key = key then
        if isLocalKey gate.key then some gate.enabled else snapshot[key]?.or (some gate.enabled)
      else snapshot[key]? := by
  unfold addGate
  cases hlocal : isLocalKey gate.key with
  | true =>
    rw [if_pos rfl, if_pos rfl, getElem?_insert_key, localKey_of_isLocalKey hlocal]
  | false =>
    rw [if_neg Bool.false_ne_true, if_neg Bool.false_ne_true, Std.ExtTreeMap.getElem?_insertIfNew]
    simp only [Std.LawfulEqCmp.compare_eq_iff_eq]
    by_cases hkey : localKey gate.key = key
    · subst hkey
      cases hheld : snapshot[localKey gate.key]? with
      | none => simp [Std.ExtTreeMap.mem_iff_isSome_getElem?, hheld]
      | some enabled => simp [Std.ExtTreeMap.mem_iff_isSome_getElem?, hheld]
    · simp [hkey]

/-- Only local keys stand in a snapshot of gates. -/
theorem isLocalKey_of_ofGates {key : String} (h : (ofGates gates)[key]? ≠ none) :
    isLocalKey key = true := by
  unfold ofGates at h
  induction gates using List.reverseRecOn with
  | nil => exact absurd Std.ExtTreeMap.getElem?_empty h
  | append_singleton gates gate ih =>
    rw [List.foldl_append, List.foldl_cons, List.foldl_nil, getElem?_addGate] at h
    split at h
    · next hkey =>
      rw [← hkey]
      exact isLocalKey_localKey gate.key
    · exact ih h

/-- Under a local key stands what gates say of the key itself, and only if they say nothing of it what
they say of the other name with this key, if there is one. -/
theorem getElem?_ofGates (h : (gates.map Gate.key).Nodup) (rest : String) :
    (ofGates gates)[featureHead ++ rest]? = (Gate.switch? gates (featureHead ++ rest)).or
      (if isLocalKey rest then none else Gate.switch? gates rest) := by
  unfold ofGates
  -- The gates are taken from the end, so that the last one meets the snapshot of those before it.
  induction gates using List.reverseRecOn with
  | nil => simp [Gate.switch?]
  | append_singleton gates gate ih =>
    rw [List.map_append, List.map_singleton, List.nodup_append] at h
    obtain ⟨hgates, -, hnew⟩ := h
    have hunsaid : Gate.switch? gates gate.key = none := Gate.switch?_eq_none.mpr fun other hmem =>
      hnew _ (List.mem_map_of_mem hmem) _ (List.mem_singleton_self _)
    rw [List.foldl_append, List.foldl_cons, List.foldl_nil, getElem?_addGate, ih hgates,
      Gate.switch?_append, Gate.switch?_append, Gate.switch?_singleton, Gate.switch?_singleton]
    by_cases hkey : localKey gate.key = featureHead ++ rest
    · rw [if_pos hkey]
      rcases localKey_eq_iff.mp hkey with hself | ⟨hbare, hrest⟩
      · -- the gate is named by the key
        rw [hself, isLocalKey_featureHead, if_pos rfl, if_pos rfl, ← hself, hunsaid]
        rfl
      · -- the gate is named by what follows the head
        have hne : gate.key ≠ featureHead ++ rest := by
          intro hself
          rw [← hrest, hself, isLocalKey_featureHead] at hbare
          cases hbare
        rw [if_neg hne, Option.or_none, hrest, hbare, if_pos rfl, ← hrest, hunsaid]
        simp
    · have hself : gate.key ≠ featureHead ++ rest := fun hself =>
        hkey (localKey_eq_iff.mpr (Or.inl hself))
      have hother : isLocalKey rest = false → gate.key ≠ rest := fun hbare hrest =>
        hkey (localKey_eq_iff.mpr (Or.inr ⟨hbare, hrest⟩))
      rw [if_neg hkey, if_neg hself, Option.or_none]
      cases hrest : isLocalKey rest with
      | true => rfl
      | false => rw [if_neg (hother hrest), Option.or_none]

/-- What stands under a key is decided by what gates say of the names with this local key. -/
theorem getElem?_ofGates_congr (h : (gates.map Gate.key).Nodup) (h' : (gates'.map Gate.key).Nodup)
    {key : String} (hsame : ∀ name, localKey name = key →
      Gate.switch? gates name = Gate.switch? gates' name) :
    (ofGates gates)[key]? = (ofGates gates')[key]? := by
  by_cases hlocal : isLocalKey key = true
  · obtain ⟨rest, rfl⟩ := isLocalKey_iff.mp hlocal
    rw [getElem?_ofGates h, getElem?_ofGates h', hsame _ (localKey_of_isLocalKey hlocal)]
    cases hrest : isLocalKey rest with
    | true => rfl
    | false => rw [hsame rest (localKey_of_bare hrest)]
  · have hnone : ∀ gates, (ofGates gates)[key]? = none := fun gates =>
      Decidable.byContradiction fun hheld => hlocal (isLocalKey_of_ofGates hheld)
    rw [hnone, hnone]

/-- The order of the gates does not matter. -/
theorem ofGates_of_perm (h : (gates.map Gate.key).Nodup) (hperm : gates.Perm gates') :
    ofGates gates' = ofGates gates := by
  have h' := (hperm.map Gate.key).nodup_iff.mp h
  refine Std.ExtTreeMap.ext_getElem? fun key => ?_
  exact getElem?_ofGates_congr h' h fun name _ => (Gate.switch?_perm h hperm name).symm

end Snapshot

end LocalConfig

/-! ## The gates of a store -/

namespace Database.Intact

variable {db : Database}

theorem nodup_keys_gates (h : db.Intact) : ((db.records .gate).map Gate.key).Nodup := by
  rw [List.Nodup, List.pairwise_map]
  refine (h.records_ascending .gate).imp ?_
  intro gate gate' hlt heq
  rw [show RecordKind.gate.key gate = RecordKind.gate.key gate' from heq] at hlt
  exact String.lt_irrefl _ hlt

theorem switch?_gates (h : db.Intact) (name : String) :
    Gate.switch? (db.records .gate) name = (db.record? .gate name).map Gate.enabled := by
  refine Option.ext fun enabled => ?_
  rw [Gate.switch?_eq_some h.nodup_keys_gates, Option.map_eq_some_iff]
  constructor
  · intro hmem
    exact ⟨⟨name, enabled⟩, h.mem_records.mp hmem, rfl⟩
  · rintro ⟨gate, hgate, rfl⟩
    have hkey : gate.key = name := (h.of_record? hgate).1
    rw [← hkey] at hgate ⊢
    exact h.mem_records.mpr hgate

end Database.Intact

end ControlPlane
