import ControlPlane.Proofs.Sync.Site

/-!
# How far the synchronizer can be trusted

Where failed calls take no effect, what the synchronizer knows is what the local configuration holds
(`Site.known_is_exact`). Where they may take effect, a cycle that ends well leaves the local
configuration as the gates want it except for the keys that were in doubt and that the gates want as
they are known, since such a key is not called for (`Site.settled_iff`).
-/

namespace ControlPlane

namespace Sync

open LocalConfig

namespace Site

variable {site : Site}

/-- What is known of a sound site without doubts is what the local configuration holds. -/
theorem Sound.known_eq_config (h : site.Sound)
    (hdoubt : ∀ key, ¬ Attempt.InDoubt key site.history) : site.known = site.config := by
  refine Std.ExtTreeMap.ext_getElem? fun key => ?_
  by_contra hne
  exact hdoubt key ((h key).1 (Ne.symm hne))

/-- Where failed calls take no effect, attempts come to the calls among them that succeeded. -/
theorem foldl_apply_of_forall_not_landed {attempts : List Attempt}
    (h : ∀ a ∈ attempts, a.landed = false) (config : Snapshot) :
    attempts.foldl Attempt.apply config =
      ((attempts.filter (·.succeeded)).map (·.call)).foldl Call.apply config := by
  induction attempts generalizing config with
  | nil => rfl
  | cons attempt attempts ih =>
    have hrest := ih fun a ha => h a (List.mem_cons_of_mem _ ha)
    rw [List.foldl_cons, hrest, Attempt.apply, Attempt.tookEffect, h attempt List.mem_cons_self]
    cases hs : attempt.succeeded <;> simp [hs]

/--
Where failed calls take no effect, what the synchronizer knows is at all times what the local
configuration holds. A cycle that writes adds to it exactly the calls that succeeded, so that a key
whose call failed is known as before, and every other cycle leaves it as it was.
-/
theorem known_is_exact (timing : Timing) (view : ClusterView) (db : Database)
    (occasions : List Occasion) (next : Occasion)
    (ho : ∀ o ∈ next :: occasions, ∀ call, o.lands call = false) :
    let site := (initial timing view db).after occasions
    let result := (site.cycle next).1
    let site' := (site.cycle next).2
    site.known = site.config ∧ site'.known = site'.config ∧
    (∀ report, result = .ok (.applied report) →
      site'.known = (((site.attempts next).filter (·.succeeded)).map (·.call)).foldl Call.apply
        site.known ∧
      report = .ofResults ((site.attempts next).map Attempt.result) ∧
      ∀ key ∈ report.failed, site'.known[key]? = site.known[key]?) ∧
    ((∀ report, result ≠ .ok (.applied report)) →
      site'.known = site.known ∧ site'.config = site.config) := by
  intro site result site'
  have hsound : site.Sound := (sound_initial timing view db).after occasions
  have hdoubt : ∀ key, ¬ Attempt.InDoubt key site.history := fun key =>
    not_inDoubt_after (fun o h => ho o (List.mem_cons_of_mem _ h)) not_false
  have hdoubt' : ∀ key, ¬ Attempt.InDoubt key (site.after [next]).history := fun key =>
    not_inDoubt_after (fun o h => ho o (List.mem_singleton.1 h ▸ List.mem_cons_self)) (hdoubt key)
  have hexact := hsound.known_eq_config hdoubt
  have hexact' : site'.known = site'.config := (hsound.cycle next).known_eq_config hdoubt'
  refine ⟨hexact, hexact', ?_, ?_⟩
  · intro report hreport
    cases site.course next with
    | idle hresult _ _ _ => exact absurd hreport (hresult report)
    | writing gates _ hresult _ _ =>
      have hlanded : ∀ a ∈ site.attempts next, a.landed = false := by
        intro a ha
        obtain ⟨call, -, rfl⟩ := List.mem_map.1 ha
        exact ho next List.mem_cons_self call
      have hof : report = .ofResults ((site.attempts next).map Attempt.result) := by
        injection hresult.symm.trans hreport with h
        injection h with h
        exact h.symm
      refine ⟨?_, hof, ?_⟩
      · rw [hexact', hexact]
        exact foldl_apply_of_forall_not_landed hlanded site.config
      · intro key hkey
        rw [hof] at hkey
        obtain ⟨a, ha, rfl, hfailed⟩ := Attempt.mem_failedKeys.1 hkey
        exact (known_of_mem ha).2.trans (if_neg (by simp [hfailed]))
  · intro hresult
    cases site.course next with
    | idle _ _ hattempts hknown =>
      refine ⟨hknown, ?_⟩
      show (site.attempts next).foldl Attempt.apply site.config = site.config
      rw [hattempts]
      rfl
    | writing gates _ hresult' _ _ => exact absurd hresult' (hresult _)

/--
An occasion for a forced cycle that finds gates, while calls for `feature.a` behave in a manner.
-/
def finding (gates : List Gate) (manner : Manner) (lands : Bool) : Occasion where
  forced := true
  moment := 0
  db := .empty
  view := ⟨true, .fixed gates, .unreachable⟩
  manners := [("feature.a", manner)]
  lands := fun _ => lands

/--
A call fails beside one that succeeds, and only the gate of the other one is known afterwards.
-/
theorem known_is_exact_failing :
    let site' := ((initial .standard .standard .empty).cycle
      (finding [⟨"a", true⟩, ⟨"b", true⟩] .fails false)).2
    site'.known = site'.config ∧ site'.known["feature.a"]? = none ∧
      site'.known["feature.b"]? = some true := by
  have hexact := known_is_exact .standard .standard .empty []
    (finding [⟨"a", true⟩, ⟨"b", true⟩] .fails false) (by simp [finding])
  refine ⟨hexact.2.1, ?_, ?_⟩
  · decide +kernel
  · decide +kernel

/-! ## Failed calls that take effect -/

/-- The keys of the calls of a cycle. -/
theorem mem_keys_callsMade {occasion : Occasion} {key : String} :
    key ∈ (site.callsMade occasion).map Call.key ↔
      ∃ a ∈ site.attempts occasion, a.call.key = key := by
  simp [attempts]

/--
After a cycle that found nothing to change, or whose calls all succeeded, what is wanted is known.
-/
theorem wanted_of_settled {occasion : Occasion}
    (h : (site.cycle occasion).1 = .ok .unchanged ∨
      ∃ report, (site.cycle occasion).1 = .ok (.applied report) ∧ report.failed = []) :
    ∃ gates, occasion.view.listGates occasion.db = .ok gates ∧
      (site.cycle occasion).2.known = .ofGates gates ∧
      ∀ a ∈ site.attempts occasion, a.succeeded = true := by
  cases site.course occasion with
  | idle hresult hlisted hattempts hknown =>
    rcases h with h | ⟨report, h, -⟩
    · obtain ⟨gates, hgates, hwanted⟩ := hlisted h
      exact ⟨gates, hgates, hknown.trans hwanted, by simp [hattempts]⟩
    · exact absurd h (hresult report)
  | writing gates hlisted hresult _ hknown =>
    rcases h with h | ⟨report, h, hfailed⟩
    · rw [hresult] at h
      cases h
    · have hnone : ((site.attempts occasion).map Attempt.result).filterMap (·.failedKey?) = [] := by
        rw [hresult] at h
        cases h
        exact hfailed
      refine ⟨gates, hlisted, ?_, ?_⟩
      · rw [hknown, knownAfter, hnone]
        rfl
      · intro a ha
        by_contra hs
        have hmem := Attempt.mem_failedKeys.2 ⟨a, ha, rfl, Bool.eq_false_iff.2 hs⟩
        rw [hnone] at hmem
        cases hmem

/--
After a cycle that found nothing to change, or whose calls all succeeded, a key is as the gates want
it unless it was in doubt before and was known as the gates want it. So the local configuration is
as the gates want it if and only if the cycle called for every key in doubt.
-/
theorem settled_iff (timing : Timing) (view : ClusterView) (db : Database)
    (occasions : List Occasion) (next : Occasion) :
    let site := (initial timing view db).after occasions
    let result := (site.cycle next).1
    let site' := (site.cycle next).2
    (result = .ok .unchanged ∨ ∃ report, result = .ok (.applied report) ∧ report.failed = []) →
    ∃ gates, next.view.listGates next.db = .ok gates ∧
      (∀ key, site'.config[key]? = (Snapshot.ofGates gates)[key]? ↔
        ¬ (Attempt.InDoubt key site.history ∧
          site.known[key]? = (Snapshot.ofGates gates)[key]?)) ∧
      (site'.config = .ofGates gates ↔
        ∀ key, Attempt.InDoubt key site.history → key ∈ (site.callsMade next).map Call.key) := by
  intro site result site' hend
  have hsound : site'.Sound := ((sound_initial timing view db).after occasions).cycle next
  obtain ⟨gates, hlisted, hwanted, hall⟩ := wanted_of_settled hend
  have hkey : ∀ key, (Attempt.InDoubt key site'.history ↔ Attempt.InDoubt key site.history ∧
      key ∉ (site.callsMade next).map Call.key) ∧
      (site.known[key]? = (Snapshot.ofGates gates)[key]? ↔
        key ∉ (site.callsMade next).map Call.key) := by
    intro key
    rw [mem_keys_callsMade]
    -- a call that succeeds settles its key, and a key without call is in doubt just as before
    cases site.keyCourse next key with
    | untouched hattempts hknown _ hdoubt =>
      have hnone : ¬ ∃ a ∈ site.attempts next, a.call.key = key :=
        fun ⟨a, ha, hk⟩ => hattempts a ha hk
      rw [← hwanted]
      exact ⟨hdoubt.trans (and_iff_left hnone).symm, iff_of_true hknown.symm hnone⟩
    | attempted attempt hmem hk hdiffers hknown _ hdoubt =>
      have hsome : ∃ a ∈ site.attempts next, a.call.key = key := ⟨attempt, hmem, hk⟩
      rw [hall attempt hmem, if_pos rfl] at hknown
      rw [hall attempt hmem] at hdoubt
      rw [← hwanted, hknown]
      exact ⟨iff_of_false (fun h => nomatch (hdoubt.1 h).1) fun h => h.2 hsome,
        iff_of_false (Ne.symm hdiffers) fun h => h hsome⟩
  have hiff : ∀ key, site'.config[key]? = (Snapshot.ofGates gates)[key]? ↔
      ¬ Attempt.InDoubt key site'.history := by
    intro key
    rw [← hsound key, ← hwanted, Decidable.not_not]
  refine ⟨gates, hlisted, ?_, ?_⟩
  · intro key
    rw [hiff, (hkey key).1, (hkey key).2]
  · constructor
    · intro heq key hd
      by_contra hnot
      refine (hiff key).1 ?_ ((hkey key).1.2 ⟨hd, hnot⟩)
      rw [heq]
    · intro hcalled
      refine Std.ExtTreeMap.ext_getElem? fun key => (hiff key).2 fun hd => ?_
      obtain ⟨hd, hnot⟩ := (hkey key).1.1 hd
      exact hnot (hcalled key hd)

/-- The call for a gate hangs and takes effect, and the gate is switched before the next cycle. -/
theorem settled_iff_switched :
    (((initial .standard .standard .empty).after [finding [⟨"a", true⟩] .hangs true]).cycle
      (finding [⟨"a", false⟩] .succeeds false)).2.config["feature.a"]? = some false := by
  obtain ⟨gates, hlisted, hkey, -⟩ := settled_iff .standard .standard .empty
    [finding [⟨"a", true⟩] .hangs true] (finding [⟨"a", false⟩] .succeeds false)
    (Or.inr ⟨⟨["feature.a"], [], []⟩, by decide +kernel⟩)
  injection hlisted with hgates
  rw [← hgates] at hkey
  have hknown : ¬ ((initial .standard .standard .empty).after
      [finding [⟨"a", true⟩] .hangs true]).known["feature.a"]? =
      (Snapshot.ofGates [⟨"a", false⟩])["feature.a"]? := by decide +kernel
  exact ((hkey "feature.a").2 fun h => hknown h.2).trans (by decide +kernel)

/--
The call for a gate hangs and takes effect, and the gate is gone before the next cycle. Nothing
differs from what is known then, no call is made, and the local configuration keeps a value that no
gate stands for.
-/
theorem landed_call_stays_unnoticed :
    let site := (initial .standard .standard .empty).after [finding [⟨"a", true⟩] .hangs true]
    let next := finding [] .succeeds false
    next.view.listGates next.db = .ok [] ∧ (site.cycle next).1 = .ok .unchanged ∧
      site.callsMade next = [] ∧ (site.cycle next).2.config["feature.a"]? = some true ∧
      (site.cycle next).2.config ≠ .ofGates [] := by
  intro site next
  have hkept : (site.cycle next).2.config["feature.a"]? = some true := by decide +kernel
  refine ⟨rfl, by decide +kernel, by decide +kernel, hkept, ?_⟩
  intro heq
  rw [heq] at hkept
  exact absurd hkept (by decide +kernel)

end Site

end Sync

end ControlPlane
