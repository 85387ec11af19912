import ControlPlane.Proofs.LocalConfig.GateKeys

/-!
# What stands in a snapshot of gates

Taking the local key of a local key changes nothing, and the local keys are the texts that begin with
`feature.`. A local key is the local key of two names at most: of itself, and of what follows the head
unless that begins with the head too.

So a snapshot of gates with different names can be read off the gates, in whatever order they are listed
(`Snapshot.snapshot_of_gates`): under a local key stands the gate that is named by it, and if there is none
the one that is named by what follows the head.
-/

namespace ControlPlane

namespace LocalConfig

variable {name key rest : String} {enabled : Bool} {gates : List Gate}

theorem isLocalKey_eq_false_iff :
    isLocalKey name = false ↔ ∀ rest, name ≠ featureHead ++ rest := by
  rw [Bool.eq_false_iff, ne_eq, isLocalKey_iff, not_exists]

theorem localKey_localKey (name : String) : localKey (localKey name) = localKey name :=
  localKey_of_isLocalKey (isLocalKey_localKey name)

/-- The local keys are the texts that begin with the head. -/
theorem exists_localKey_iff : (∃ name, localKey name = key) ↔ ∃ rest, key = featureHead ++ rest := by
  rw [← isLocalKey_iff]
  constructor
  · rintro ⟨name, rfl⟩
    exact isLocalKey_localKey name
  · intro hkey
    exact ⟨key, localKey_of_isLocalKey hkey⟩

namespace Snapshot

/-- Something stands under the local keys of the gates alone. -/
theorem getElem?_ofGates_ne_none_iff :
    (ofGates gates)[key]? ≠ none ↔ ∃ gate ∈ gates, localKey gate.key = key := by
  unfold ofGates
  induction gates using List.reverseRecOn with
  | nil => simp
  | append_singleton gates gate ih =>
    rw [List.foldl_append, List.foldl_cons, List.foldl_nil, getElem?_addGate]
    by_cases hkey : localKey gate.key = key
    · rw [if_pos hkey]
      refine iff_of_true ?_ ⟨gate, by simp, hkey⟩
      split <;> simp
    · rw [if_neg hkey, ih]
      simp [or_and_right, exists_or, hkey]

/-- What stands in a snapshot of gates is the switch of a gate with that local key. -/
theorem exists_gate_of_ofGates (h : (ofGates gates)[key]? = some enabled) :
    ∃ gate ∈ gates, localKey gate.key = key ∧ gate.enabled = enabled := by
  unfold ofGates at h
  induction gates using List.reverseRecOn with
  | nil =>
    rw [List.foldl_nil, Std.ExtTreeMap.getElem?_empty] at h
    cases h
  | append_singleton gates gate ih =>
    have hearlier : (gates.foldl addGate ∅)[key]? = some enabled →
        ∃ gate' ∈ gates ++ [gate], localKey gate'.key = key ∧ gate'.enabled = enabled := fun h =>
      let ⟨earlier, hmem, hgate⟩ := ih h
      ⟨earlier, List.mem_append_left _ hmem, hgate⟩
    rw [List.foldl_append, List.foldl_cons, List.foldl_nil, getElem?_addGate] at h
    by_cases hkey : localKey gate.key = key
    · rw [if_pos hkey] at h
      split at h
      · exact ⟨gate, by simp, hkey, Option.some.inj h⟩
      · rcases Option.or_eq_some_iff.mp h with hheld | ⟨-, hgate⟩
        · exact hearlier hheld
        · exact ⟨gate, by simp, hkey, Option.some.inj hgate⟩
    · rw [if_neg hkey] at h
      exact hearlier h

theorem getElem?_ofGates_eq_some (h : (gates.map Gate.key).Nodup) :
    (ofGates gates)[featureHead ++ rest]? = some enabled ↔
      ⟨featureHead ++ rest, enabled⟩ ∈ gates ∨
        featureHead ++ rest ∉ gates.map Gate.key ∧ isLocalKey rest = false ∧
          ⟨rest, enabled⟩ ∈ gates := by
  have hunsaid : Gate.switch? gates (featureHead ++ rest) = none ↔
      featureHead ++ rest ∉ gates.map Gate.key := by
    simp [Gate.switch?_eq_none]
  rw [getElem?_ofGates h, Option.or_eq_some_iff, Gate.switch?_eq_some h, hunsaid]
  cases isLocalKey rest with
  | true => simp
  | false => simp [Gate.switch?_eq_some h]

/--
The local key of a local key is the key itself. The local keys are the texts that begin with `feature.`,
and each of them is the local key of itself and, unless this begins with `feature.` too, of what follows.

Let gates have different names. Their snapshot has a value under the local keys of the gates and under no
other key. The value is that of the gate which is named by the key, if there is one, and otherwise that of
the gate which is named by what follows `feature.` in it. The order of the gates does not matter.
-/
theorem snapshot_of_gates :
    (∀ name, localKey (localKey name) = localKey name) ∧
    (∀ key, (∃ name, localKey name = key) ↔ ∃ rest, key = "feature." ++ rest) ∧
    (∀ rest name, localKey name = "feature." ++ rest ↔
      name = "feature." ++ rest ∨ (∀ rest', rest ≠ "feature." ++ rest') ∧ name = rest) ∧
    ∀ gates : List Gate, (gates.map Gate.key).Nodup →
      (∀ key, (ofGates gates)[key]? ≠ none ↔ ∃ gate ∈ gates, localKey gate.key = key) ∧
      (∀ key enabled, (ofGates gates)[key]? = some enabled ↔ ∃ rest, key = "feature." ++ rest ∧
        (⟨key, enabled⟩ ∈ gates ∨
          key ∉ gates.map Gate.key ∧ (∀ rest', rest ≠ "feature." ++ rest') ∧
            ⟨rest, enabled⟩ ∈ gates)) ∧
      ∀ gates', gates.Perm gates' → ofGates gates' = ofGates gates := by
  have hhead : featureHead = "feature." := rfl
  refine ⟨localKey_localKey, fun _ => exists_localKey_iff, ?_, ?_⟩
  · intro rest name
    rw [← hhead, ← isLocalKey_eq_false_iff]
    exact localKey_eq_iff
  · intro gates h
    refine ⟨fun _ => getElem?_ofGates_ne_none_iff, ?_, fun _ => ofGates_of_perm h⟩
    intro key enabled
    rw [← hhead]
    constructor
    · intro hheld
      have hlocal := isLocalKey_of_ofGates (hheld ▸ Option.some_ne_none enabled)
      obtain ⟨rest, rfl⟩ := isLocalKey_iff.mp hlocal
      refine ⟨rest, rfl, ?_⟩
      rw [← isLocalKey_eq_false_iff]
      exact (getElem?_ofGates_eq_some h).mp hheld
    · rintro ⟨rest, rfl, hgates⟩
      rw [← isLocalKey_eq_false_iff] at hgates
      exact (getElem?_ofGates_eq_some h).mpr hgates

/-- A gate is doubled, one has the head twice and one has no name: each local key has the value of the
gate that is named by it, before and after the gates are turned round. -/
theorem snapshot_of_gates_doubled :
    let gates : List Gate := [⟨"a", false⟩, ⟨"feature.a", true⟩, ⟨"feature.feature.a", false⟩, ⟨"", true⟩]
    (gates.map Gate.key).Nodup ∧ (ofGates gates)["feature.a"]? = some true ∧
      (ofGates gates)["feature.feature.a"]? = some false ∧ (ofGates gates)["feature."]? = some true ∧
      ofGates gates.reverse = ofGates gates := by
  intro gates
  have hnodup : (gates.map Gate.key).Nodup := by decide
  obtain ⟨-, hvalue, horder⟩ := snapshot_of_gates.2.2.2 gates hnodup
  refine ⟨hnodup, ?_, ?_, ?_, horder _ gates.reverse_perm.symm⟩
  · exact (hvalue _ _).mpr ⟨"a", rfl, Or.inl (by decide)⟩
  · exact (hvalue _ _).mpr ⟨"feature.a", rfl, Or.inl (by decide)⟩
  · refine (hvalue _ _).mpr ⟨"", rfl, Or.inr ⟨by decide, ?_, by decide⟩⟩
    exact isLocalKey_eq_false_iff.mp (by decide)

end Snapshot

end LocalConfig

end ControlPlane
