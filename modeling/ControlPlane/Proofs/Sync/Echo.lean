import ControlPlane.Proofs.Service.OperationEffect
import ControlPlane.Proofs.Sync.OneKey
import Mathlib.Logic.Relation

/-!
# What is written back

What a node's local configuration holds of gates may be written back into the registry, all of it or any
part of it, each key as the name of a gate. Gates that had other names are then doubled, but the snapshot
of the gates stays the same (`Echoed.ofGates_eq`). So a synchronizer finds nothing to change, however often
this happens (`Site.echo_is_quiet`).
-/

namespace ControlPlane

open LocalConfig

/-! ## Gates written back -/

namespace Gate

/-- Gates after one has been written: it takes the place of the gate with its name, if there is one. -/
def upsert (gates : List Gate) (gate : Gate) : List Gate := gate :: gates.filter (·.key ≠ gate.key)

variable {gates gates' : List Gate} {gate gate' : Gate} {name : String}

theorem mem_upsert :
    gate' ∈ upsert gates gate ↔ gate' = gate ∨ gate' ∈ gates ∧ gate'.key ≠ gate.key := by
  unfold upsert
  rw [List.mem_cons, List.mem_filter, decide_eq_true_iff]

theorem nodup_keys_upsert (h : (gates.map Gate.key).Nodup) (gate : Gate) :
    ((upsert gates gate).map Gate.key).Nodup := by
  unfold upsert
  rw [List.map_cons, List.nodup_cons]
  refine ⟨?_, h.sublist (List.filter_sublist.map Gate.key)⟩
  rw [List.mem_map]
  rintro ⟨gate', hmem, hkey⟩
  exact of_decide_eq_true (List.mem_filter.mp hmem).2 hkey

theorem perm_upsert (h : gates.Perm gates') (gate : Gate) :
    (upsert gates gate).Perm (upsert gates' gate) :=
  (h.filter _).cons gate

theorem switch?_upsert (h : (gates.map Gate.key).Nodup) (gate : Gate) (name : String) :
    switch? (upsert gates gate) name = if gate.key = name then some gate.enabled else switch? gates name := by
  refine Option.ext fun enabled => ?_
  rw [switch?_eq_some (nodup_keys_upsert h gate), mem_upsert]
  by_cases hkey : gate.key = name
  · subst hkey
    rw [if_pos rfl]
    obtain ⟨key, enabled'⟩ := gate
    simp [eq_comm]
  · have hother : (⟨name, enabled⟩ : Gate) ≠ gate := by
      rintro rfl
      exact hkey rfl
    rw [if_neg hkey, switch?_eq_some h, or_iff_right hother]
    exact and_iff_left (Ne.symm hkey)

end Gate

/-! ## Snapshots of gates written back -/

namespace LocalConfig.Snapshot

variable {gates gates' : List Gate} {gate : Gate}

/-- A gate that is named by a local key and says what stands there already changes nothing. -/
theorem ofGates_upsert (h : (gates.map Gate.key).Nodup)
    (hheld : (ofGates gates)[gate.key]? = some gate.enabled) :
    ofGates (Gate.upsert gates gate) = ofGates gates := by
  have hsome : (ofGates gates)[gate.key]? ≠ none := by
    rw [hheld]
    exact Option.some_ne_none gate.enabled
  have hlocal := isLocalKey_of_ofGates hsome
  have h' := Gate.nodup_keys_upsert h gate
  refine Std.ExtTreeMap.ext_getElem? fun key => ?_
  by_cases hkey : gate.key = key
  · subst hkey
    obtain ⟨rest, hrest⟩ := isLocalKey_iff.mp hlocal
    have hwritten := getElem?_ofGates h' rest
    rw [← hrest, Gate.switch?_upsert h, if_pos rfl, Option.some_or] at hwritten
    rw [hwritten, hheld]
  · refine getElem?_ofGates_congr h' h fun name hname => ?_
    have hother : gate.key ≠ name := by
      rintro rfl
      exact hkey ((localKey_of_isLocalKey hlocal).symm.trans hname)
    rw [Gate.switch?_upsert h, if_neg hother]

end LocalConfig.Snapshot

/-- Whether gates come about when some of what the snapshot of others holds is written back among these,
whatever their order. -/
def Echoed (gates gates' : List Gate) : Prop :=
  ∃ echo : List Gate, (∀ gate ∈ echo, (Snapshot.ofGates gates)[gate.key]? = some gate.enabled) ∧
    gates'.Perm (echo.foldl Gate.upsert gates)

namespace Echoed

variable {gates gates' : List Gate}

/-- The induction is on the gates that are written back. Each of them leaves the snapshot as it is, so the
others are in it still. -/
theorem foldl_upsert {echo : List Gate} (h : (gates.map Gate.key).Nodup)
    (hecho : ∀ gate ∈ echo, (Snapshot.ofGates gates)[gate.key]? = some gate.enabled) :
    ((echo.foldl Gate.upsert gates).map Gate.key).Nodup ∧
      Snapshot.ofGates (echo.foldl Gate.upsert gates) = .ofGates gates := by
  induction echo generalizing gates with
  | nil => exact ⟨h, rfl⟩
  | cons gate echo ih =>
    rw [List.forall_mem_cons] at hecho
    have hsame := Snapshot.ofGates_upsert h hecho.1
    have hrest := ih (Gate.nodup_keys_upsert h gate) (by
      rw [hsame]
      exact hecho.2)
    rwa [hsame] at hrest

theorem ofGates_eq (h : (gates.map Gate.key).Nodup) (hechoed : Echoed gates gates') :
    (gates'.map Gate.key).Nodup ∧ Snapshot.ofGates gates' = .ofGates gates := by
  obtain ⟨echo, hecho, hperm⟩ := hechoed
  obtain ⟨hnodup, hsame⟩ := foldl_upsert h hecho
  refine ⟨(hperm.map Gate.key).nodup_iff.mpr hnodup, ?_⟩
  rw [Snapshot.ofGates_of_perm hnodup hperm.symm, hsame]

/-- What is written back may be written back again. -/
theorem ofGates_eq_of_reflTransGen (h : (gates.map Gate.key).Nodup)
    (hechoed : Relation.ReflTransGen Echoed gates gates') :
    (gates'.map Gate.key).Nodup ∧ Snapshot.ofGates gates' = .ofGates gates := by
  induction hechoed with
  | refl => exact ⟨h, rfl⟩
  | tail _ hlast ih =>
    obtain ⟨hnodup, hsame⟩ := ofGates_eq ih.1 hlast
    exact ⟨hnodup, hsame.trans ih.2⟩

end Echoed

/-! ## Gates written back into a store -/

/-- The store after gates have been written, one after another. -/
def Database.upsertGates (db : Database) (gates : List Gate) : Database :=
  gates.foldl (fun db gate => (db.commit (Tx.upsert .gate gate)).2) db

namespace Database.Intact

variable {db : Database} {gate : Gate}

theorem commit_upsert (h : db.Intact) (gate : Gate) :
    (db.commit (Tx.upsert .gate gate)).2 = db.keep .gate gate := by
  rw [Database.commit, h.upsert_run .gate gate]

theorem perm_keep (h : db.Intact) (hfits : RecordKind.gate.Fits gate) :
    ((db.keep .gate gate).records .gate).Perm (Gate.upsert (db.records .gate) gate) := by
  have h' := h.keep .gate hfits
  refine (List.perm_ext_iff_of_nodup h'.nodup_keys_gates.of_map ?_).mpr fun gate' => ?_
  · exact (Gate.nodup_keys_upsert h.nodup_keys_gates gate).of_map
  · rw [h'.mem_records, Gate.mem_upsert, Database.record?_keep_same .gate hfits, h.mem_records]
    have hname : RecordKind.gate.key gate = RecordKind.gate.key gate' ↔ gate.key = gate'.key := Iff.rfl
    by_cases hkey : gate.key = gate'.key
    · rw [if_pos (hname.mpr hkey), or_iff_left fun hother => hother.2 hkey.symm, Option.some_inj, eq_comm]
    · have hother : gate' ≠ gate := by
        rintro rfl
        exact hkey rfl
      rw [if_neg fun heq => hkey (hname.mp heq), or_iff_right hother]
      exact (and_iff_left (Ne.symm hkey)).symm

/-- The gates listed are those written and the others that there were. -/
theorem perm_upsertGates (h : db.Intact) {gates echo : List Gate}
    (hfits : ∀ gate ∈ echo, RecordKind.gate.Fits gate) (hgates : (db.records .gate).Perm gates) :
    (db.upsertGates echo).Intact ∧
      ((db.upsertGates echo).records .gate).Perm (echo.foldl Gate.upsert gates) := by
  induction echo generalizing db gates with
  | nil => exact ⟨h, hgates⟩
  | cons gate echo ih =>
    rw [List.forall_mem_cons] at hfits
    unfold Database.upsertGates at ih ⊢
    rw [List.foldl_cons, List.foldl_cons, h.commit_upsert gate]
    refine ih (h.keep .gate hfits.1) hfits.2 ?_
    exact (h.perm_keep hfits.1).trans (Gate.perm_upsert hgates gate)

end Database.Intact

namespace Sync.Site

variable {site : Site} {gates : List Gate}

/-- Where all gates that are listed have the snapshot that is known, cycles make no call. -/
theorem quiet_of_forall (hsite : site.known = .ofGates gates) {occasions : List Occasion}
    (hlists : ∀ occasion ∈ occasions, ∀ listed, occasion.view.listGates occasion.db = .ok listed →
      Snapshot.ofGates listed = .ofGates gates) :
    site.attemptsOn occasions = [] ∧ (site.after occasions).known = .ofGates gates := by
  induction occasions generalizing site with
  | nil => exact ⟨rfl, hsite⟩
  | cons occasion occasions ih =>
    rw [List.forall_mem_cons] at hlists
    have hquiet : site.attempts occasion = [] ∧ (site.cycle occasion).2.known = .ofGates gates := by
      cases site.course occasion with
      | idle _ _ hattempts hknown => exact ⟨hattempts, hknown.trans hsite⟩
      | writing listed hlisted _ hcalls hknown =>
        have hwanted := hlists.1 listed hlisted
        rw [hsite, hwanted, Patch.calls_between_eq_nil_iff.mpr rfl, List.map_eq_nil_iff] at hcalls
        refine ⟨hcalls, ?_⟩
        rw [hknown, hcalls, ← hwanted]
        rfl
    obtain ⟨hnone, hknown⟩ := ih hquiet.2 hlists.2
    refine ⟨?_, hknown⟩
    rw [attemptsOn, hquiet.1, hnone]
    rfl

/--
The local configuration is known to be as the gates want it. When what it holds is written back among the
gates, all of it or any part of it, they want what they wanted before, and a store into which it is written
lists such gates. As long as nothing else is written, however often this is, cycles make no call, and a
forced one finds nothing to change.
-/
theorem echo_is_quiet (h : (gates.map Gate.key).Nodup) (hsite : site.known = .ofGates gates) :
    (∀ gates', Echoed gates gates' → Snapshot.ofGates gates' = .ofGates gates) ∧
    (∀ (db : Database) (echo : List Gate), db.Intact → db.query GateRegistry.list = .ok gates →
      (∀ gate ∈ echo, RecordKind.gate.Fits gate) →
      (∀ gate ∈ echo, (Snapshot.ofGates gates)[gate.key]? = some gate.enabled) →
      ∃ gates', (db.upsertGates echo).query GateRegistry.list = .ok gates' ∧ Echoed gates gates') ∧
    ∀ occasions : List Occasion,
      (∀ occasion ∈ occasions, ∀ listed, occasion.view.listGates occasion.db = .ok listed →
        Relation.ReflTransGen Echoed gates listed) →
      site.attemptsOn occasions = [] ∧ (site.after occasions).known = .ofGates gates ∧
      ∀ (next : Occasion) (gates' : List Gate), Relation.ReflTransGen Echoed gates gates' →
        next.Forces gates' → ((site.after occasions).cycle next).1 = .ok .unchanged ∧
          (site.after occasions).callsMade next = [] := by
  refine ⟨fun gates' hechoed => (hechoed.ofGates_eq h).2, ?_, ?_⟩
  · intro db echo hdb hgates hfits hecho
    have hrecords : gates = db.records .gate := Except.ok.inj (hgates.symm.trans (hdb.query_list .gate))
    have hperm : (db.records .gate).Perm gates := by rw [hrecords]
    obtain ⟨hdb', hperm'⟩ := hdb.perm_upsertGates hfits hperm
    exact ⟨_, hdb'.query_list .gate, echo, hecho, hperm'⟩
  · intro occasions hlists
    obtain ⟨hnone, hknown⟩ := quiet_of_forall hsite fun occasion hmem listed hlisted =>
      (Echoed.ofGates_eq_of_reflTransGen h (hlists occasion hmem listed hlisted)).2
    refine ⟨hnone, hknown, ?_⟩
    intro next gates' hechoed hnext
    have hwanted := (Echoed.ofGates_eq_of_reflTransGen h hechoed).2
    obtain ⟨hcalls, hresult⟩ := cycle_of_compares (hnext.compares (site.after occasions))
    rw [hknown, hwanted, Patch.calls_between_eq_nil_iff.mpr rfl] at hcalls
    rw [hresult, if_pos hcalls]
    exact ⟨rfl, hcalls⟩

/-- A part of what the local configuration holds is written back. It doubles one gate and agrees with
another one that stands beside its double. -/
theorem echo_is_quiet_doubled :
    let gates : List Gate := [⟨"a", true⟩, ⟨"feature.a", false⟩, ⟨"b", true⟩]
    let gates' : List Gate := [⟨"a", true⟩, ⟨"b", true⟩, ⟨"feature.a", false⟩, ⟨"feature.b", true⟩]
    let site := (initial .standard .standard .empty).after [finding gates .succeeds false]
    (site.cycle (finding gates' .succeeds false)).1 = .ok .unchanged ∧
      site.callsMade (finding gates' .succeeds false) = [] := by
  intro gates gates' site
  have hresult : ((initial .standard .standard .empty).cycle (finding gates .succeeds false)).1 =
      .ok (.applied ⟨["feature.a", "feature.b"], [], []⟩) := by
    decide +kernel
  obtain ⟨_, hlisted, hknown, -⟩ := wanted_of_settled (Or.inr ⟨_, hresult, rfl⟩)
  cases hlisted
  have hechoed : Echoed gates gates' :=
    ⟨[⟨"feature.b", true⟩, ⟨"feature.a", false⟩], by decide +kernel, by decide +kernel⟩
  have hforces : (finding gates' .succeeds false).Forces gates' := ⟨rfl, by decide +kernel, rfl⟩
  obtain ⟨-, -, hquiet⟩ := echo_is_quiet (by decide +kernel) hknown
  exact (hquiet [] (List.forall_mem_nil _)).2.2 _ gates' (.single hechoed) hforces

end Sync.Site

end ControlPlane
