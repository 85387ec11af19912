import ControlPlane.Proofs.Http.WireRoundTrip
import ControlPlane.Proofs.LocalConfig.Assignment
import ControlPlane.Proofs.LocalConfig.GateSnapshot
import ControlPlane.Proofs.Sync.Convergence

/-!
# What the commands of a synchronizer say

Each call of a cycle is a command for the configuration program, which reads it in its own way
(`Call.readOrder?`). A call that sets a key is for a gate that was listed, and one that removes a key is for
a key that an earlier call has set (`Site.exists_gate_of_set`, `Site.exists_setting_of_unset`). While no
gate with an equals sign in its name is listed, every command is read as it was meant, and what the program
keeps is what the local configuration holds. Such a gate gets into the registry only by a request that
names it so, and then its command is read as one for another gate.
-/

namespace ControlPlane

namespace Sync

open LocalConfig

/-! ## Attempts -/

namespace Attempt

/-- What the program keeps after an attempt. -/
def obeyed (texts : Texts) (attempt : Attempt) : Texts :=
  if attempt.tookEffect then attempt.call.obeyed texts else texts

/-- As long as no key has an equals sign, the program keeps the texts of what the local configuration
holds. -/
theorem getElem?_foldl_obeyed {attempts : List Attempt}
    (hplain : ∀ attempt ∈ attempts, '=' ∉ attempt.call.key.toList) {texts : Texts} {config : Snapshot}
    (h : ∀ key : String, texts[key]? = config[key]?.map localValue) (key : String) :
    (attempts.foldl obeyed texts)[key]? = (attempts.foldl apply config)[key]?.map localValue := by
  induction attempts generalizing texts config with
  | nil => exact h key
  | cons attempt attempts ih =>
    rw [List.foldl_cons, List.foldl_cons]
    refine ih (fun a ha => hplain a (List.mem_cons_of_mem attempt ha)) fun key' => ?_
    unfold obeyed apply
    split
    · rw [Call.getElem?_obeyed (hplain attempt List.mem_cons_self), Call.getElem?_apply, h key']
      split <;> rfl
    · exact h key'

end Attempt

/-- Whether no gate with an equals sign in its name is listed on an occasion. -/
def Occasion.ListsPlain (occasion : Occasion) : Prop :=
  ∀ gates, occasion.view.listGates occasion.db = .ok gates → ∀ gate ∈ gates, '=' ∉ gate.key.toList

namespace Site

variable {site : Site} {occasion : Occasion} {occasions : List Occasion} {attempt : Attempt}

/-! ## The history of a site -/

/-- What the history of a site accounts for. -/
structure Accounted (site : Site) : Prop where
  /-- What is known of a key was given to it by a call that succeeded. -/
  known : ∀ key enabled, site.known[key]? = some enabled →
    ∃ setting ∈ site.history, setting.call = .set key enabled ∧ setting.succeeded = true
  /-- The local configuration is what the attempts have made of it. -/
  config : site.config = site.history.foldl Attempt.apply ∅

namespace Accounted

theorem initial (timing : Timing) (view : ClusterView) (db : Database) :
    (Site.initial timing view db).Accounted where
  known := by
    intro key enabled hknown
    rw [show (Site.initial timing view db).known[key]? = none from Std.ExtTreeMap.getElem?_empty]
      at hknown
    cases hknown
  config := rfl

theorem cycle (h : site.Accounted) (occasion : Occasion) : (site.cycle occasion).2.Accounted where
  known := by
    intro key enabled hknown
    have hearlier : site.known[key]? = some enabled →
        ∃ setting ∈ (site.cycle occasion).2.history,
          setting.call = .set key enabled ∧ setting.succeeded = true := fun hknown =>
      let ⟨setting, hmem, hsetting⟩ := h.known key enabled hknown
      ⟨setting, List.mem_append_left _ hmem, hsetting⟩
    cases site.keyCourse occasion key with
    | untouched _ hsame => exact hearlier (hsame ▸ hknown)
    | attempted attempt hmem hkey _ hnow =>
      rw [hnow] at hknown
      cases hsucceeded : attempt.succeeded with
      | false =>
        rw [hsucceeded, if_neg Bool.false_ne_true] at hknown
        exact hearlier hknown
      | true =>
        rw [hsucceeded, if_pos rfl] at hknown
        refine ⟨attempt, List.mem_append_right _ hmem, ?_, hsucceeded⟩
        cases hcall : attempt.call with
        | set key' enabled' =>
          rw [hcall] at hkey hknown
          cases hkey
          cases hknown
          rfl
        | unset key' =>
          rw [hcall] at hknown
          cases hknown
  config := by
    have hconfig : (site.cycle occasion).2.config =
        (site.attempts occasion).foldl Attempt.apply site.config := rfl
    have hhistory : (site.cycle occasion).2.history = site.history ++ site.attempts occasion := rfl
    rw [hconfig, hhistory, List.foldl_append, h.config]

theorem after (h : site.Accounted) (occasions : List Occasion) : (site.after occasions).Accounted := by
  induction occasions generalizing site with
  | nil => exact h
  | cons occasion occasions ih => exact ih (h.cycle occasion)

end Accounted

/-! ## The calls of a cycle -/

/-- A call that sets a key is for a gate that is listed. -/
theorem exists_gate_of_set {key : String} {enabled : Bool} (hmem : attempt ∈ site.attempts occasion)
    (hcall : attempt.call = .set key enabled) :
    ∃ gates, occasion.view.listGates occasion.db = .ok gates ∧
      ∃ gate ∈ gates, localKey gate.key = key ∧ gate.enabled = enabled := by
  cases site.course occasion with
  | idle _ _ hattempts _ =>
    rw [hattempts] at hmem
    cases hmem
  | writing gates hlisted _ hattempts _ =>
    have hin : attempt.call ∈ (Patch.between site.known (.ofGates gates)).calls := by
      rw [← hattempts]
      exact List.mem_map_of_mem hmem
    have htoward := (Patch.mem_calls_between.mp hin).2
    rw [hcall] at htoward
    refine ⟨gates, hlisted, Snapshot.exists_gate_of_ofGates ?_⟩
    rw [← Call.value?_toward]
    exact congrArg Call.value? htoward.symm

/-- A call that removes a key is for a key that a call has set before. -/
theorem exists_setting_of_unset {key : String} (h : site.Accounted)
    (hmem : attempt ∈ site.attempts occasion) (hcall : attempt.call = .unset key) :
    ∃ setting ∈ site.history, ∃ enabled,
      setting.call = .set key enabled ∧ setting.succeeded = true := by
  have hdiffers := (known_of_mem hmem).1
  rw [hcall] at hdiffers
  obtain ⟨enabled, hknown⟩ := Option.ne_none_iff_exists'.mp hdiffers.symm
  obtain ⟨setting, hin, hsetting⟩ := h.known key enabled hknown
  exact ⟨setting, hin, enabled, hsetting⟩

/-- Where only plain names were listed, all calls are for plain keys. -/
theorem plain_attempts (h : site.Accounted)
    (hhistory : ∀ attempt ∈ site.history, '=' ∉ attempt.call.key.toList) (hlists : occasion.ListsPlain)
    (hmem : attempt ∈ site.attempts occasion) : '=' ∉ attempt.call.key.toList := by
  cases hcall : attempt.call with
  | set key enabled =>
    obtain ⟨gates, hlisted, gate, hgate, rfl, -⟩ := exists_gate_of_set hmem hcall
    intro hequals
    exact hlists gates hlisted gate hgate (mem_localKey_iff.mp hequals)
  | unset key =>
    obtain ⟨setting, hin, enabled, hset, -⟩ := exists_setting_of_unset h hmem hcall
    have hkey := hhistory setting hin
    rw [hset] at hkey
    exact hkey

theorem plain_history (h : site.Accounted)
    (hhistory : ∀ attempt ∈ site.history, '=' ∉ attempt.call.key.toList)
    (hlists : ∀ occasion ∈ occasions, occasion.ListsPlain) :
    ∀ attempt ∈ (site.after occasions).history, '=' ∉ attempt.call.key.toList := by
  induction occasions generalizing site with
  | nil => exact hhistory
  | cons occasion occasions ih =>
    refine ih (h.cycle occasion) ?_ fun o ho => hlists o (List.mem_cons_of_mem occasion ho)
    intro attempt hmem
    rcases List.mem_append.mp hmem with hearlier | hnow
    · exact hhistory attempt hearlier
    · exact plain_attempts h hhistory (hlists occasion List.mem_cons_self) hnow

/-! ## What requests let in -/

/-- A registry that no request has added a gate with an equals sign to lists none. -/
theorem listsPlain_of_requests {peers : PeerList} {history : List Http.Request}
    (harrive : ∀ request ∈ history, request.Arrives)
    (hadds : ∀ request ∈ history, ∀ key enabled,
      request.decode peers = .ok (.createGate key enabled) → '=' ∉ key.toList)
    (hview : occasion.view = .standard)
    (hdb : occasion.db = (Http.Request.answerAll peers history Schema.fresh).2) :
    occasion.ListsPlain := by
  intro gates hlisted gate hgate hequals
  have hserved : Http.Served occasion.db := hdb ▸ Http.Served.fresh.answerAll peers harrive
  rw [hview] at hlisted
  have hrecords : gates = occasion.db.records .gate :=
    Except.ok.inj (hlisted.symm.trans (hserved.intact.query_list .gate))
  have hnone : occasion.db.record? .gate gate.key = none := by
    rw [hdb]
    refine Http.record?_unadded_answerAll harrive ?_ Http.Served.fresh
      (Schema.record?_fresh .gate gate.key)
    intro request hr enabled hdecode
    exact hadds request hr gate.key enabled hdecode hequals
  have hsome := hserved.intact.mem_records.mp (hrecords ▸ hgate)
  rw [show RecordKind.gate.key gate = gate.key from rfl, hnone] at hsome
  cases hsome

/-! ## Every run -/

/--
The command that sets the local key of a gate is read as it was meant just if the name of the gate has no
equals sign. If it has one, the command sets the local key of the gate that is named by what stands before
the first one, to the rest of the name with the value.

In every run each call that sets a key is for a gate that was listed in this cycle, and each call that
removes a key is read as it was meant and removes a key that a call has set before. As long as no gate with
an equals sign in its name has been listed, all commands are read as they were meant, and what the program
keeps is at any time what the calls say. No such gate is listed unless a request has added one.
-/
theorem commands_address_gates (timing : Timing) (view : ClusterView) (db : Database)
    (occasions : List Occasion) :
    let site := (initial timing view db).after occasions
    (∀ name enabled, (Call.set (localKey name) enabled).readOrder? =
      some (.set (localKey name) (localValue enabled)) ↔ '=' ∉ name.toList) ∧
    (∀ before after enabled, '=' ∉ before.toList →
      (Call.set (localKey (before ++ "=" ++ after)) enabled).readOrder? =
        some (.set (localKey before) (after ++ "=" ++ localValue enabled))) ∧
    (∀ occasion, ∀ attempt ∈ site.attempts occasion,
      (∀ key enabled, attempt.call = .set key enabled →
        ∃ gates, occasion.view.listGates occasion.db = .ok gates ∧
          ∃ gate ∈ gates, localKey gate.key = key ∧ gate.enabled = enabled) ∧
      (∀ key, attempt.call = .unset key → attempt.call.readOrder? = some (.unset key) ∧
        ∃ setting ∈ site.history, ∃ enabled,
          setting.call = .set key enabled ∧ setting.succeeded = true)) ∧
    ((∀ occasion ∈ occasions, Occasion.ListsPlain occasion) →
      (∀ attempt ∈ site.history, attempt.call.readOrder? = some attempt.call.order) ∧
      ∀ key : String, (site.history.foldl Attempt.obeyed ∅)[key]? = site.config[key]?.map localValue) ∧
    ∀ peers history, (∀ request ∈ history, Http.Request.Arrives request) →
      (∀ request ∈ history, ∀ key enabled,
        request.decode peers = .ok (.createGate key enabled) → '=' ∉ key.toList) →
      ∀ occasion : Occasion, occasion.view = .standard →
        occasion.db = (Http.Request.answerAll peers history Schema.fresh).2 → occasion.ListsPlain := by
  intro site
  have hinitial := Accounted.initial timing view db
  refine ⟨?_, ?_, ?_, ?_, ?_⟩
  · intro name enabled
    rw [readOrder?_set_eq_some, mem_localKey_iff]
  · exact fun before after enabled => readOrder?_set_of_equals
  · intro occasion attempt hmem
    refine ⟨fun key enabled hcall => exists_gate_of_set hmem hcall, ?_⟩
    intro key hcall
    refine ⟨?_, exists_setting_of_unset (hinitial.after occasions) hmem hcall⟩
    rw [hcall]
    exact readOrder?_unset key
  · intro hlists
    have hplain : ∀ attempt ∈ site.history, '=' ∉ attempt.call.key.toList :=
      plain_history hinitial (fun _ hmem => nomatch hmem) hlists
    refine ⟨fun attempt hmem => Call.readOrder?_of_plain (hplain attempt hmem), fun key => ?_⟩
    rw [(hinitial.after occasions).config]
    refine Attempt.getElem?_foldl_obeyed hplain (fun key => ?_) key
    rw [Std.ExtTreeMap.getElem?_empty, Std.ExtTreeMap.getElem?_empty]
    rfl
  · intro peers history harrive hadds occasion hview hdb
    exact listsPlain_of_requests harrive hadds hview hdb

theorem listsPlain_finding {gates : List Gate} {manner : Manner} {lands : Bool}
    (h : ∀ gate ∈ gates, '=' ∉ gate.key.toList) : (finding gates manner lands).ListsPlain := by
  intro listed hlisted
  cases hlisted
  exact h

/-- A gate is set and removed again, while a call for another gate fails; and a registry with one gate. -/
theorem commands_address_gates_removed :
    let site := (initial .standard .standard .empty).after
      [finding [⟨"a", true⟩, ⟨"b", true⟩] .fails false, finding [⟨"feature.b", false⟩] .succeeds false,
        finding [] .succeeds false]
    let db := (Http.Request.answerAll ⟨[]⟩
      [Http.fromSocket .post "/1.0/feature-gates" (Http.gateJson ⟨"a", false⟩).print] Schema.fresh).2
    (∀ attempt ∈ site.history, attempt.call.readOrder? = some attempt.call.order) ∧
      (site.history.foldl Attempt.obeyed ∅)["feature.b"]? = none ∧
      (Call.set (localKey "a=b") true).readOrder? = some (.set "feature.a" "b=true") ∧
      Occasion.ListsPlain ⟨true, 0, db, .standard, [], fun _ => false⟩ := by
  intro site db
  have hlists : ∀ occasion ∈ [finding [⟨"a", true⟩, ⟨"b", true⟩] .fails false,
      finding [⟨"feature.b", false⟩] .succeeds false, finding [] .succeeds false],
      Occasion.ListsPlain occasion := by
    simp only [List.forall_mem_cons, List.not_mem_nil, false_implies, implies_true, and_true]
    exact ⟨listsPlain_finding (by decide), listsPlain_finding (by decide),
      listsPlain_finding (by decide)⟩
  have harrives : (Http.fromSocket .post "/1.0/feature-gates"
      (Http.gateJson ⟨"a", false⟩).print).Arrives := ⟨"/1.0/feature-gates", by decide +kernel⟩
  have hdecode : (Http.fromSocket .post "/1.0/feature-gates"
      (Http.gateJson ⟨"a", false⟩).print).decode ⟨[]⟩ = .ok (.createGate "a" false) := by
    decide +kernel
  obtain ⟨-, hdiverted, -, hplain, hrequests⟩ := commands_address_gates .standard .standard .empty _
  obtain ⟨hread, hkept⟩ := hplain hlists
  refine ⟨hread, (hkept "feature.b").trans (by decide +kernel), hdiverted "a" "b" true (by decide), ?_⟩
  refine hrequests ⟨[]⟩ _ (List.forall_mem_singleton.mpr harrives) ?_ _ rfl rfl
  rw [List.forall_mem_singleton]
  intro key enabled hadds
  rw [hdecode] at hadds
  cases hadds
  decide

/--
Two gates are added, `a` and `a=b`. Their commands both set the local key of the first one: what the program
keeps under it in the end is no switch, and it keeps nothing for the second one.
-/
theorem equals_sign_diverts_command :
    let answered := Http.Request.answerAll ⟨[]⟩
      [Http.fromSocket .post "/1.0/feature-gates" (Http.gateJson ⟨"a", false⟩).print,
        Http.fromSocket .post "/1.0/feature-gates" (Http.gateJson ⟨"a=b", true⟩).print] Schema.fresh
    let site := (initial .standard .standard answered.2).after
      [⟨true, 0, answered.2, .standard, [], fun _ => false⟩]
    answered.1 = [.success .null, .success .null] ∧
      site.history.map Attempt.call = [.set "feature.a" false, .set "feature.a=b" true] ∧
      (Call.set (localKey "a=b") true).readOrder? = some (.set (localKey "a") "b=true") ∧
      (site.history.foldl Attempt.obeyed ∅)["feature.a"]? = some "b=true" ∧
      (site.history.foldl Attempt.obeyed ∅)["feature.a=b"]? = none := by
  intro answered site
  refine ⟨?_, ?_, ?_, ?_, ?_⟩
  · decide +kernel
  · decide +kernel
  · decide +kernel
  · decide +kernel
  · decide +kernel

end Site

end Sync

end ControlPlane
