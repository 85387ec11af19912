import ControlPlane.Proofs.Service.OperationEffect
import ControlPlane.Proofs.Sync.OneKey

/-!
# Removing one of two gates with a local key

Of two gates that share a local key one can be removed without removing the key from the local
configuration: the key then stands for the other gate (`Site.alias_removal`). Whatever other gates there
are, and whatever other names their names look like, no other key is touched.
-/

namespace ControlPlane

open LocalConfig

namespace Database.Intact

variable {db : Database} {name key : String} {gate : Gate}

theorem commit_delete (h : db.Intact) (hheld : db.record? .gate name = some gate) :
    db.commit (GateRegistry.delete name) = (.ok (), db.drop .gate name) := by
  rw [Database.commit, GateRegistry.delete, h.delete_run .gate name, hheld]

/-- A gate that is removed leaves other local keys as they are. -/
theorem getElem?_ofGates_drop (h : db.Intact) (hne : localKey name ≠ key) :
    (Snapshot.ofGates ((db.drop .gate name).records .gate))[key]? =
      (Snapshot.ofGates (db.records .gate))[key]? := by
  have hdrop := h.drop .gate name
  refine Snapshot.getElem?_ofGates_congr hdrop.nodup_keys_gates h.nodup_keys_gates ?_
  intro name' hname'
  have hother : name ≠ name' := by
    rintro rfl
    exact hne hname'
  rw [hdrop.switch?_gates, h.switch?_gates, Database.record?_drop_same, if_neg hother]

/-- Under the local key of a name that is none itself stands the gate named by the key, or else the gate
with the name. -/
theorem getElem?_ofGates_records (h : db.Intact) (hname : isLocalKey name = false) :
    (Snapshot.ofGates (db.records .gate))[featureHead ++ name]? =
      ((db.record? .gate (featureHead ++ name)).map Gate.enabled).or
        ((db.record? .gate name).map Gate.enabled) := by
  rw [Snapshot.getElem?_ofGates h.nodup_keys_gates, h.switch?_gates, h.switch?_gates, hname,
    if_neg Bool.false_ne_true]

end Database.Intact

/-- Whether two gates have the names with a local key, in either order: the key itself, and what follows
its head. -/
def Gate.SharesKey (gate gate' : Gate) : Prop :=
  (isLocalKey gate.key = false ∧ gate'.key = featureHead ++ gate.key) ∨
    (isLocalKey gate'.key = false ∧ gate.key = featureHead ++ gate'.key)

namespace Gate.SharesKey

variable {db : Database} {first second : Gate}

theorem ne (h : first.SharesKey second) : first.key ≠ second.key := by
  intro heq
  rcases h with ⟨hbare, hkey⟩ | ⟨hbare, hkey⟩
  · rw [heq, hkey, isLocalKey_featureHead] at hbare
    cases hbare
  · rw [← heq, hkey, isLocalKey_featureHead] at hbare
    cases hbare

theorem localKey_eq (h : first.SharesKey second) : localKey second.key = localKey first.key := by
  rcases h with ⟨hbare, hkey⟩ | ⟨hbare, hkey⟩
  · rw [hkey, localKey_of_isLocalKey (isLocalKey_featureHead _), localKey_of_bare hbare]
  · rw [hkey, localKey_of_isLocalKey (isLocalKey_featureHead _), localKey_of_bare hbare]

/-- Where one of the two gates is not there, the other one counts. -/
theorem getElem?_ofGates (h : first.SharesKey second) (hdb : db.Intact)
    (hfirst : db.record? .gate first.key = none) :
    (Snapshot.ofGates (db.records .gate))[localKey first.key]? =
      (db.record? .gate second.key).map Gate.enabled := by
  rcases h with ⟨hbare, hkey⟩ | ⟨hbare, hkey⟩
  · rw [localKey_of_bare hbare, hdb.getElem?_ofGates_records hbare, ← hkey, hfirst]
    cases db.record? .gate second.key <;> rfl
  · rw [hkey, localKey_of_isLocalKey (isLocalKey_featureHead _),
      hdb.getElem?_ofGates_records hbare, ← hkey, hfirst]
    rfl

/-- As long as one of the two gates is there, the key stands for a gate. -/
theorem getElem?_ofGates_ne_none (h : first.SharesKey second) (hdb : db.Intact)
    (hfirst : db.record? .gate first.key = some first) :
    (Snapshot.ofGates (db.records .gate))[localKey first.key]? ≠ none := by
  rcases h with ⟨hbare, hkey⟩ | ⟨hbare, hkey⟩
  · rw [localKey_of_bare hbare, hdb.getElem?_ofGates_records hbare, hfirst]
    cases db.record? .gate (featureHead ++ first.key) <;> simp
  · rw [hkey, localKey_of_isLocalKey (isLocalKey_featureHead _),
      hdb.getElem?_ofGates_records hbare, ← hkey, hfirst]
    simp

end Gate.SharesKey

namespace Sync.Site

variable {db : Database} {first second : Gate} {site : Site}

/-- When one of the two gates is removed, the key at most has to be set to what the other one says. -/
theorem lacksAtMost_set (hshares : first.SharesKey second) (h : db.Intact)
    (hsecond : db.record? .gate second.key = some second)
    (hsite : site.known = .ofGates (db.records .gate)) :
    site.LacksAtMost (.set (localKey first.key) second.enabled)
      ((db.drop .gate first.key).records .gate) where
  others := by
    intro key hne
    rw [hsite, h.getElem?_ofGates_drop hne.symm]
  wanted := by
    have hgone : (db.drop .gate first.key).record? .gate first.key = none := by
      rw [Database.record?_drop_same, if_pos rfl]
    have hkept : (db.drop .gate first.key).record? .gate second.key = some second := by
      rw [Database.record?_drop_same, if_neg hshares.ne, hsecond]
    have hwanted := hshares.getElem?_ofGates (h.drop .gate first.key) hgone
    rwa [hkept] at hwanted

/-- When the other gate is removed too, the key at most has to be removed. -/
theorem lacksAtMost_unset {enabled : Bool} (hshares : first.SharesKey second) (h : db.Intact)
    (hfirst : db.record? .gate first.key = none)
    (hsite : site.LacksAtMost (.set (localKey first.key) enabled) (db.records .gate)) :
    site.LacksAtMost (.unset (localKey first.key)) ((db.drop .gate second.key).records .gate) where
  others := by
    intro key hne
    have hother : localKey second.key ≠ key := by
      rw [hshares.localKey_eq]
      exact hne.symm
    rw [h.getElem?_ofGates_drop hother]
    exact hsite.others key hne
  wanted := by
    have hgone : (db.drop .gate second.key).record? .gate first.key = none := by
      rw [Database.record?_drop_same, if_neg hshares.ne.symm, hfirst]
    have hunwanted := hshares.getElem?_ofGates (h.drop .gate second.key) hgone
    rwa [Database.record?_drop_same, if_pos rfl] at hunwanted

/--
A store holds two gates that share a local key, beside any others, and the local configuration is known to
be as the gates want it. Once one of the two has been removed, cycles change nothing but the key, and only
if it did not stand for the other gate already: they set it to what the other gate says. Once the other
gate has been removed too, they unset the key, and no more once that has succeeded.
-/
theorem alias_removal (h : db.Intact) (hshares : first.SharesKey second)
    (hfirst : db.query (GateRegistry.get first.key) = .ok first)
    (hsecond : db.query (GateRegistry.get second.key) = .ok second)
    {gates : List Gate} (hgates : db.query GateRegistry.list = .ok gates)
    (hsite : site.known = .ofGates gates) :
    ∃ db' db'' gates' gates'',
      db.commit (GateRegistry.delete first.key) = (.ok (), db') ∧
      db'.commit (GateRegistry.delete second.key) = (.ok (), db'') ∧
      db'.query GateRegistry.list = .ok gates' ∧ db''.query GateRegistry.list = .ok gates'' ∧
      ∀ occasions, (∀ occasion ∈ occasions, occasion.Lists gates') →
        let key := localKey first.key
        let set : Call := .set key second.enabled
        let site' := site.after occasions
        site.Tries set occasions ∧
        (∀ next : Occasion, next.Forces gates' → site'.callsMade next =
          if site.known[key]? = some second.enabled ∨
            ∃ attempt ∈ site.attemptsOn occasions, attempt.succeeded = true then [] else [set]) ∧
        ∀ occasions', (∀ occasion ∈ occasions', occasion.Lists gates'') →
          site'.Tries (.unset key) occasions' ∧
          ∀ next : Occasion, next.Forces gates'' → (site'.after occasions').callsMade next =
            if ∃ attempt ∈ site'.attemptsOn occasions', attempt.succeeded = true then []
            else [.unset key] := by
  have hrecords : gates = db.records .gate := Except.ok.inj (hgates.symm.trans (h.query_list .gate))
  rw [hrecords] at hsite
  have hheld : db.record? .gate first.key = some first := Query.get_eq_ok_iff.mp hfirst
  have hother : db.record? .gate second.key = some second := Query.get_eq_ok_iff.mp hsecond
  have h' := h.drop .gate first.key
  have hgone : (db.drop .gate first.key).record? .gate first.key = none := by
    rw [Database.record?_drop_same, if_pos rfl]
  have hkept : (db.drop .gate first.key).record? .gate second.key = some second := by
    rw [Database.record?_drop_same, if_neg hshares.ne, hother]
  have hset := lacksAtMost_set hshares h hother hsite
  refine ⟨_, _, _, _, h.commit_delete hheld, h'.commit_delete hkept, h'.query_list .gate,
    (h'.drop .gate second.key).query_list .gate, ?_⟩
  intro occasions hlists key set site'
  have htries := hset.tries hlists
  have hheldBefore : site.known[key]? ≠ none := by
    rw [hsite]
    exact hshares.getElem?_ofGates_ne_none h hheld
  have hknown : site'.known[key]? ≠ none :=
    htries.known_ne_none (Option.some_ne_none second.enabled) hheldBefore
  have hunset : site'.LacksAtMost (.unset key) _ := lacksAtMost_unset hshares h' hgone (hset.after hlists)
  refine ⟨htries, fun next hnext => hset.callsMade hlists hnext, ?_⟩
  intro occasions' hlists'
  refine ⟨hunset.tries hlists', ?_⟩
  intro next hnext
  rw [hunset.callsMade hlists' hnext]
  simp only [Call.key, Call.value?, hknown, false_or]

/-- The gate named by the key is removed first, and it says something else than the gate that stays. The
key is set to what that one says, and is removed with it. Other gates have names that look alike. -/
theorem alias_removal_differing :
    let on (db : Database) : Occasion := ⟨true, 0, db, .standard, [], fun _ => false⟩
    let db := (Operation.runAll [.createGate "x" false, .createGate "feature.x" true,
      .createGate "feature.feature.x" false, .createGate "y" true] Schema.fresh).2
    let db' := (db.commit (GateRegistry.delete "feature.x")).2
    let db'' := (db'.commit (GateRegistry.delete "x")).2
    let site := (initial .standard .standard db).after [on db]
    site.callsMade (on db') = [.set "feature.x" false] ∧
      (site.after [on db']).callsMade (on db'') = [.unset "feature.x"] := by
  intro on db db' db'' site
  have hintact : db.Intact := by
    refine Operation.runAll_intact ?_ Schema.fresh_intact
    simp [Operation.Fits, RecordKind.Fits, RowForm.lengthLimit]
    decide
  have hresult : ((initial .standard .standard db).cycle (on db)).1 =
      .ok (.applied ⟨["feature.feature.x", "feature.x", "feature.y"], [], []⟩) := by
    decide +kernel
  obtain ⟨gates, hlisted, hknown, -⟩ := wanted_of_settled (Or.inr ⟨_, hresult, rfl⟩)
  have hshares : Gate.SharesKey ⟨"feature.x", true⟩ ⟨"x", false⟩ := by
    right
    decide
  obtain ⟨_, _, gates', gates'', hdelete, hdelete', hlisted', hlisted'', hall⟩ :=
    alias_removal hintact hshares (by decide +kernel) (by decide +kernel) hlisted hknown
  obtain rfl := congrArg Prod.snd hdelete
  obtain rfl := congrArg Prod.snd hdelete'
  have hforces : (on db').Forces gates' := ⟨rfl, by decide +kernel, hlisted'⟩
  have hforces' : (on db'').Forces gates'' := ⟨rfl, by decide +kernel, hlisted''⟩
  have hlists : ∀ occasion ∈ [on db'], occasion.Lists gates' := by
    rw [List.forall_mem_singleton]
    exact fun listed hlisted => Except.ok.inj (hlisted.symm.trans hlisted')
  constructor
  · obtain ⟨-, hcalls, -⟩ := hall [] (List.forall_mem_nil _)
    refine (hcalls (on db') hforces).trans ?_
    decide +kernel
  · obtain ⟨-, -, hlater⟩ := hall [on db'] hlists
    refine ((hlater [] (List.forall_mem_nil _)).2 (on db'') hforces').trans ?_
    decide +kernel

end Sync.Site

end ControlPlane
