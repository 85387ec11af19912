import ControlPlane.LocalConfig.Command
import ControlPlane.Proofs.LocalConfig.GateKeys
import ControlPlane.Proofs.Sync.Convergence
import ControlPlane.Proofs.Text.Utf8Order

/-!
# The plan of a cycle and its report

A cycle that compares what is known with what the gates want (`Site.Compares`) has its calls laid down
before the first of them is made: they are those of the patch, so no call depends on what became of
another one. Its report sorts the keys of the calls into three lists (`Report.Sorts`), each key by what
became of its own call (`Site.Planned`).
-/

namespace ControlPlane

namespace Sync

open LocalConfig

/-! ## Calls that fail -/

/-- Whether a call that behaves in a manner fails, or takes longer than a limit. -/
def Manner.Fails (limit : Nat) : Manner → Prop
  | .succeeds => False
  | .fails | .hangs | .failsAfter _ => True
  | .succeedsAfter delay => limit < delay

theorem Manner.course_eq_false_iff {limit : Nat} {manner : Manner} :
    (manner.course limit).1 = false ↔ manner.Fails limit := by
  cases manner with
  | succeedsAfter delay =>
    by_cases hdelay : delay ≤ limit
    · have hin : ¬ limit < delay := by omega
      simp [course, Fails, hdelay, hin]
    · have hout : limit < delay := by omega
      simp [course, Fails, hdelay, hout]
  | succeeds | fails | hangs | failsAfter => simp [course, Fails]

/-! ## Reports -/

namespace CallResult

variable {result : CallResult} {key : String}

theorem setKey?_eq_some : result.setKey? = some key ↔
    result.succeeded = true ∧ ∃ enabled, result.call = .set key enabled := by
  rcases result with ⟨_ | _, _ | _⟩ <;> simp [setKey?]

theorem unsetKey?_eq_some : result.unsetKey? = some key ↔
    result.succeeded = true ∧ result.call = .unset key := by
  rcases result with ⟨_ | _, _ | _⟩ <;> simp [unsetKey?]

theorem failedKey?_eq_some : result.failedKey? = some key ↔
    result.succeeded = false ∧ result.call.key = key := by
  rcases result with ⟨call, _ | _⟩ <;> simp [failedKey?]

theorem key_of_setKey? (h : result.setKey? = some key) : result.call.key = key := by
  obtain ⟨-, enabled, hcall⟩ := setKey?_eq_some.mp h
  rw [hcall, Call.key]

theorem key_of_unsetKey? (h : result.unsetKey? = some key) : result.call.key = key := by
  rw [(unsetKey?_eq_some.mp h).2, Call.key]

theorem key_of_failedKey? (h : result.failedKey? = some key) : result.call.key = key :=
  (failedKey?_eq_some.mp h).2

end CallResult

namespace Report

/-- A report without what it says of a key. -/
def without (report : Report) (key : String) : Report where
  set := report.set.filter (· ≠ key)
  unset := report.unset.filter (· ≠ key)
  failed := report.failed.filter (· ≠ key)

/-- Whether a report sorts the keys of calls, given which of them fail. -/
structure Sorts (report : Report) (calls : List Call) (fails : String → Prop) : Prop where
  /-- Each key is in one of the lists. -/
  partition : (report.set ++ report.unset ++ report.failed).Perm (calls.map Call.key)
  /-- The lists keep the order of the calls. -/
  ordered : ∀ keys ∈ [report.set, report.unset, report.failed], keys.Sublist (calls.map Call.key)
  /-- A key has failed if its own call has. -/
  failed : ∀ key, key ∈ report.failed ↔ key ∈ calls.map Call.key ∧ fails key
  /-- A key has been set if it was to be set and has not failed. -/
  set : ∀ key, key ∈ report.set ↔ (∃ enabled, .set key enabled ∈ calls) ∧ ¬ fails key
  /-- A key has been removed if it was to be removed and has not failed. -/
  unset : ∀ key, key ∈ report.unset ↔ .unset key ∈ calls ∧ ¬ fails key

/-! What is told of a result is its key, or nothing. -/

section Told

variable {told : CallResult → Option String}
  (htold : ∀ {result : CallResult} {key : String}, told result = some key → result.call.key = key)

include htold

theorem filter_filterMap_key (results : List CallResult) (key : String) :
    (results.filterMap told).filter (· ≠ key) =
      (results.filter fun result => result.call.key ≠ key).filterMap told := by
  induction results with
  | nil => rfl
  | cons result results ih =>
    by_cases hkey : result.call.key = key
    · have hleft : (result :: results).filter (fun result => result.call.key ≠ key) =
          results.filter fun result => result.call.key ≠ key := by simp [hkey]
      rw [hleft, ← ih, List.filterMap_cons]
      cases hsome : told result with
      | none => rfl
      | some key' => simp [← htold hsome, hkey]
    · have hkept : (result :: results).filter (fun result => result.call.key ≠ key) =
          result :: results.filter fun result => result.call.key ≠ key := by simp [hkey]
      rw [hkept, List.filterMap_cons, List.filterMap_cons, ← ih]
      cases hsome : told result with
      | none => rfl
      | some key' =>
        have hne : key' ≠ key := by rwa [← htold hsome]
        simp [hne]

theorem sublist_filterMap_key (results : List CallResult) :
    (results.filterMap told).Sublist (results.map fun result => result.call.key) := by
  induction results with
  | nil => exact .slnil
  | cons result results ih =>
    rw [List.filterMap_cons, List.map_cons]
    cases hsome : told result with
    | none => exact ih.cons _
    | some key =>
      rw [htold hsome]
      exact ih.cons_cons _

end Told

theorem without_ofResults (results : List CallResult) (key : String) :
    (ofResults results).without key =
      ofResults (results.filter fun result => result.call.key ≠ key) := by
  have hset := filter_filterMap_key CallResult.key_of_setKey? results key
  have hunset := filter_filterMap_key CallResult.key_of_unsetKey? results key
  have hfailed := filter_filterMap_key CallResult.key_of_failedKey? results key
  unfold without ofResults
  simp only [hset, hunset, hfailed]

theorem partition_ofResults (results : List CallResult) :
    ((ofResults results).set ++ (ofResults results).unset ++ (ofResults results).failed).Perm
      (results.map fun result => result.call.key) := by
  induction results with
  | nil => exact .nil
  | cons result results ih =>
    rw [List.map_cons]
    refine List.Perm.trans ?_ (ih.cons result.call.key)
    rcases result with ⟨⟨key, enabled⟩ | ⟨key⟩, _ | _⟩
    · exact List.perm_middle
    · exact .refl _
    · exact List.perm_middle
    · exact List.perm_middle.append_right _

/-- The report of calls sorts their keys by what became of each. -/
theorem sorts_ofResults {calls : List Call} {succeeds : Call → Bool} {fails : String → Prop}
    (h : ∀ call, succeeds call = false ↔ fails call.key) :
    (ofResults (calls.map fun call => ⟨call, succeeds call⟩)).Sorts calls fails := by
  have hkeys : (calls.map fun call => (⟨call, succeeds call⟩ : CallResult)).map
      (fun result => result.call.key) = calls.map Call.key := by
    rw [List.map_map]
    rfl
  have hnot : ∀ call, succeeds call = true ↔ ¬ fails call.key := by
    intro call
    rw [← h, Bool.not_eq_false]
  constructor
  case partition =>
    rw [← hkeys]
    exact partition_ofResults _
  case ordered =>
    rw [← hkeys]
    simp only [List.forall_mem_cons, List.not_mem_nil, false_implies, implies_true, and_true]
    exact ⟨sublist_filterMap_key CallResult.key_of_setKey? _,
      sublist_filterMap_key CallResult.key_of_unsetKey? _,
      sublist_filterMap_key CallResult.key_of_failedKey? _⟩
  case failed =>
    intro key
    rw [List.mem_map]
    constructor
    · intro hmem
      obtain ⟨result, hresult, hkey⟩ := List.mem_filterMap.mp hmem
      obtain ⟨call, hcall, rfl⟩ := List.mem_map.mp hresult
      obtain ⟨hfailed, rfl⟩ := CallResult.failedKey?_eq_some.mp hkey
      exact ⟨⟨call, hcall, rfl⟩, (h call).mp hfailed⟩
    · rintro ⟨⟨call, hcall, rfl⟩, hfails⟩
      refine List.mem_filterMap.mpr ⟨_, List.mem_map_of_mem hcall, ?_⟩
      exact CallResult.failedKey?_eq_some.mpr ⟨(h call).mpr hfails, rfl⟩
  case set =>
    intro key
    constructor
    · intro hmem
      obtain ⟨result, hresult, hkey⟩ := List.mem_filterMap.mp hmem
      obtain ⟨call, hcall, rfl⟩ := List.mem_map.mp hresult
      obtain ⟨hok, enabled, rfl⟩ := CallResult.setKey?_eq_some.mp hkey
      exact ⟨⟨enabled, hcall⟩, (hnot _).mp hok⟩
    · rintro ⟨⟨enabled, hcall⟩, hfine⟩
      refine List.mem_filterMap.mpr ⟨_, List.mem_map_of_mem hcall, ?_⟩
      exact CallResult.setKey?_eq_some.mpr ⟨(hnot _).mpr hfine, enabled, rfl⟩
  case unset =>
    intro key
    constructor
    · intro hmem
      obtain ⟨result, hresult, hkey⟩ := List.mem_filterMap.mp hmem
      obtain ⟨call, hcall, rfl⟩ := List.mem_map.mp hresult
      obtain ⟨hok, rfl⟩ := CallResult.unsetKey?_eq_some.mp hkey
      exact ⟨hcall, (hnot _).mp hok⟩
    · rintro ⟨hcall, hfine⟩
      refine List.mem_filterMap.mpr ⟨_, List.mem_map_of_mem hcall, ?_⟩
      exact CallResult.unsetKey?_eq_some.mpr ⟨(hnot _).mpr hfine, rfl⟩

end Report

/-! ## Cycles that compare -/

theorem Node.timing_runCycle (node : Node) (forced : Bool) :
    (node.runCycle forced).2.timing = node.timing := by
  have hrun := node.runCycle_course forced
  generalize node.runCycle forced = ending at hrun
  cases hrun <;> rfl

/-- How calls for a key behave on an occasion. -/
def Occasion.manner (occasion : Occasion) (key : String) : Manner :=
  (occasion.manners.lookup key).getD .succeeds

/-- An occasion on which calls for one key behave in another manner. -/
def Occasion.switched (occasion : Occasion) (key : String) (manner : Manner) : Occasion :=
  { occasion with manners := (key, manner) :: occasion.manners }

theorem Occasion.manner_switched (occasion : Occasion) {key key' : String} (manner : Manner)
    (hkey : key' ≠ key) : (occasion.switched key manner).manner key' = occasion.manner key' := by
  unfold Occasion.manner switched
  rw [List.lookup_cons]
  have hne : (key' == key) = false := beq_eq_false_iff_ne.mpr hkey
  rw [hne]

namespace Site

variable {site : Site} {next : Occasion} {gates : List Gate}

/-- Whether a cycle goes as far as to compare what is known with what gates want. -/
structure Compares (site : Site) (next : Occasion) (gates : List Gate) : Prop where
  /-- No cycle has written too recently, or the cycle is forced. -/
  due : ¬ ((site.start next).opening next.forced).isRecent (site.start next).timing
    (site.start next).now
  /-- The node does not manage its configuration itself. -/
  managed : ¬ isSelfManaged (next.view.mode next.db)
  /-- These gates are listed. -/
  listed : next.view.listGates next.db = .ok gates

/-- The calls of a cycle that compares, and what it comes to. -/
theorem cycle_of_compares (h : site.Compares next gates) :
    site.callsMade next = (Patch.between site.known (.ofGates gates)).calls ∧
    (site.cycle next).1 = if site.callsMade next = [] then .ok .unchanged
      else .ok (.applied (.ofResults ((site.callsMade next).map (site.start next).resultOf))) := by
  have hrun := (site.start next).runCycle_course next.forced
  have hresult : (site.cycle next).1 = ((site.start next).runCycle next.forced).1 := rfl
  have hmade : site.callsMade next =
      (((site.start next).runCycle next.forced).2.calls.drop (site.start next).calls.length).map
        TimedCall.call := rfl
  generalize (site.start next).runCycle next.forced = ending at hrun hresult hmade
  cases hrun with
  | debounced hrecent => exact absurd hrecent h.due
  | unmanaged hmode => exact absurd hmode h.managed
  | unlisted e hlisted => cases h.listed.symm.trans hlisted
  | unchanged gates' hlisted hcalls =>
    cases h.listed.symm.trans hlisted
    rw [List.drop_length, List.map_nil] at hmade
    rw [hresult, hmade, if_pos rfl]
    exact ⟨hcalls.symm, rfl⟩
  | applied gates' hlisted made hcalls hsome =>
    cases h.listed.symm.trans hlisted
    rw [List.drop_left] at hmade
    have hne : made.map TimedCall.call ≠ [] := fun hnil => hsome (List.map_eq_nil_iff.mp hnil)
    rw [hresult, hmade, if_neg hne]
    exact ⟨hcalls, rfl⟩

/-- Only local keys are ever known. -/
theorem isLocalKey_of_known {occasions : List Occasion}
    (h : ∀ key, site.known[key]? ≠ none → isLocalKey key = true) :
    ∀ key, (site.after occasions).known[key]? ≠ none → isLocalKey key = true := by
  induction occasions generalizing site with
  | nil => exact h
  | cons occasion occasions ih =>
    refine ih fun key hknown => ?_
    cases site.course occasion with
    | idle _ _ _ hsame =>
      rw [hsame] at hknown
      exact h key hknown
    | writing gates _ _ _ hafter =>
      rw [hafter, getElem?_knownAfter] at hknown
      split at hknown
      · exact h key hknown
      · exact Snapshot.isLocalKey_of_ofGates hknown

theorem timing_after {occasions : List Occasion} :
    (site.after occasions).node.timing = site.node.timing := by
  induction occasions generalizing site with
  | nil => rfl
  | cons occasion occasions ih =>
    refine ih.trans ?_
    exact (site.start occasion).timing_runCycle occasion.forced

/-- What a cycle that compares what is known with what gates want does and reports. -/
structure Planned (site : Site) (limit : Nat) (next : Occasion) (gates : List Gate) : Prop where
  /-- There is one call for each key that differs, and none for any other key. -/
  once : ∀ key, ((site.callsMade next).map Call.key).count key =
    if site.known[key]? = (Snapshot.ofGates gates)[key]? then 0 else 1
  /-- First the keys that are new or have changed are set as listed, then those that are gone are removed,
  each in ascending order. -/
  arranged : ∃ (sets : List (String × Bool)) (unsets : List String),
    (site.callsMade next).map Call.order =
      sets.map (fun entry => .set entry.1 (if entry.2 then "true" else "false")) ++
        unsets.map Order.unset ∧
    sets.Pairwise (fun a b => Utf8.bytes a.1 < Utf8.bytes b.1) ∧
    unsets.Pairwise (fun a b => Utf8.bytes a < Utf8.bytes b) ∧
    (∀ key enabled, (key, enabled) ∈ sets ↔
      site.known[key]? ≠ some enabled ∧ (Snapshot.ofGates gates)[key]? = some enabled) ∧
    ∀ key, key ∈ unsets ↔ site.known[key]? ≠ none ∧ (Snapshot.ofGates gates)[key]? = none
  /-- Every key called for begins with the head of local keys. -/
  headed : ∀ call ∈ site.callsMade next, ∃ rest, call.key = featureHead ++ rest
  /-- Nothing has changed exactly if no key differs. -/
  unchanged : (site.cycle next).1 = .ok .unchanged ↔
    ∀ key : String, site.known[key]? = (Snapshot.ofGates gates)[key]?
  /-- Then no call is made. -/
  silent : (site.cycle next).1 = .ok .unchanged → site.callsMade next = []
  /-- Otherwise the report sorts the keys by what became of their own calls. -/
  reported : (site.cycle next).1 ≠ .ok .unchanged → ∃ report,
    (site.cycle next).1 = .ok (.applied report) ∧
    report.Sorts (site.callsMade next) fun key => (next.manner key).Fails limit
  /-- What becomes of the call for one key changes no call and nothing that is reported of other keys. -/
  isolated : ∀ key manner, site.callsMade (next.switched key manner) = site.callsMade next ∧
    ∀ report, (site.cycle next).1 = .ok (.applied report) → ∃ report',
      (site.cycle (next.switched key manner)).1 = .ok (.applied report') ∧
      report'.without key = report.without key

theorem Compares.switched (h : site.Compares next gates) (key : String) (manner : Manner) :
    site.Compares (next.switched key manner) gates :=
  ⟨h.due, h.managed, h.listed⟩

theorem resultOf_switched {call : Call} {key : String} (manner : Manner) (hne : call.key ≠ key) :
    (site.start (next.switched key manner)).resultOf call = (site.start next).resultOf call := by
  have hmanner : (site.start (next.switched key manner)).manner call.key =
      (site.start next).manner call.key := next.manner_switched manner hne
  unfold Node.resultOf Node.succeeds
  rw [hmanner]
  rfl

theorem planned_of_compares (h : site.Compares next gates)
    (hlocal : ∀ key : String, site.known[key]? ≠ none → isLocalKey key = true) :
    site.Planned site.node.timing.callTimeout next gates := by
  obtain ⟨hcalls, hresult⟩ := cycle_of_compares h
  have hunchanged : (site.cycle next).1 = .ok .unchanged ↔ site.callsMade next = [] := by
    rw [hresult]
    split
    · next hnil => exact iff_of_true rfl hnil
    · next hsome => exact iff_of_false nofun hsome
  have hreport : site.callsMade next ≠ [] → (site.cycle next).1 =
      .ok (.applied (.ofResults ((site.callsMade next).map (site.start next).resultOf))) := by
    intro hsome
    rw [hresult, if_neg hsome]
  have hfails : ∀ call, (site.start next).succeeds call = false ↔
      (next.manner call.key).Fails site.node.timing.callTimeout :=
    fun call => Manner.course_eq_false_iff
  constructor
  case once =>
    intro key
    rw [hcalls]
    exact Patch.count_keys_calls_between _ _ key
  case arranged =>
    refine ⟨(Patch.between site.known (.ofGates gates)).set,
      (Patch.between site.known (.ofGates gates)).unset, ?_, ?_, ?_, ?_, ?_⟩
    · rw [hcalls, Patch.calls, List.map_append, List.map_map, List.map_map]
      rfl
    · exact (Patch.ascending_set_between _ _).imp Utf8.bytes_lt
    · exact (Patch.ascending_unset_between _ _).imp Utf8.bytes_lt
    · exact fun key enabled => Patch.mem_set_between
    · exact fun key => Patch.mem_unset_between
  case headed =>
    intro call hcall
    rw [hcalls] at hcall
    have hdiffers := (Patch.mem_calls_between.mp hcall).1
    refine isLocalKey_iff.mp ?_
    by_cases hknown : site.known[call.key]? = none
    · rw [hknown] at hdiffers
      exact Snapshot.isLocalKey_of_ofGates hdiffers.symm
    · exact hlocal call.key hknown
  case unchanged =>
    rw [hunchanged, hcalls, Patch.calls_between_eq_nil_iff]
    exact ⟨fun heq key => by rw [heq], Std.ExtTreeMap.ext_getElem?⟩
  case silent => exact hunchanged.mp
  case reported =>
    intro hchanged
    refine ⟨_, hreport fun hnil => hchanged (hunchanged.mpr hnil), ?_⟩
    exact Report.sorts_ofResults hfails
  case isolated =>
    intro key manner
    obtain ⟨hcalls', hresult'⟩ := cycle_of_compares (h.switched key manner)
    have hsame : site.callsMade (next.switched key manner) = site.callsMade next :=
      hcalls'.trans hcalls.symm
    refine ⟨hsame, ?_⟩
    intro report happlied
    have hsome : site.callsMade next ≠ [] := by
      intro hnil
      rw [hunchanged.mpr hnil] at happlied
      cases happlied
    rw [hreport hsome] at happlied
    cases happlied
    rw [hsame, if_neg hsome] at hresult'
    refine ⟨_, hresult', ?_⟩
    rw [Report.without_ofResults, Report.without_ofResults, List.filter_map, List.filter_map]
    congr 1
    refine List.map_congr_left fun call hcall => ?_
    exact resultOf_switched manner (of_decide_eq_true (List.mem_filter.mp hcall).2)

/--
In every state that a synchronizer can come to, whatever is listed and whatever becomes of each call, a
cycle that compares what is known with what the gates want makes one call for each key that differs, in
an order that is laid down by these two alone, and reports of each key what became of its own call.
-/
theorem exact_plan (timing : Timing) (view : ClusterView) (db : Database)
    (occasions : List Occasion) (next : Occasion) (gates : List Gate)
    (h : ((initial timing view db).after occasions).Compares next gates) :
    ((initial timing view db).after occasions).Planned timing.callTimeout next gates := by
  have hlocal : ∀ key : String, ((initial timing view db).after occasions).known[key]? ≠ none →
      isLocalKey key = true :=
    isLocalKey_of_known fun key hknown => absurd Std.ExtTreeMap.getElem?_empty hknown
  have hplanned := planned_of_compares h hlocal
  rwa [timing_after] at hplanned

/-- Of four calls one fails and one hangs, and the two between them are reported as they went. -/
theorem exact_plan_mixed :
    let site := (initial .standard .standard .empty).after
      [finding [⟨"a", true⟩, ⟨"b", true⟩, ⟨"c", true⟩] .succeeds false]
    let next := (finding [⟨"a", false⟩, ⟨"feature.d", true⟩] .fails false).switched "feature.c" .hangs
    ((site.callsMade next).map Call.key).count "feature.b" = 1 ∧
    ∃ report, (site.cycle next).1 = .ok (.applied report) ∧ "feature.a" ∈ report.failed ∧
      "feature.d" ∈ report.set ∧ "feature.b" ∈ report.unset ∧ "feature.c" ∈ report.failed := by
  intro site next
  have hplanned := exact_plan .standard .standard .empty
    [finding [⟨"a", true⟩, ⟨"b", true⟩, ⟨"c", true⟩] .succeeds false] next
    [⟨"a", false⟩, ⟨"feature.d", true⟩] ⟨by decide +kernel, by decide +kernel, rfl⟩
  obtain ⟨report, hresult, hsorts⟩ := hplanned.reported (by decide +kernel)
  refine ⟨(hplanned.once "feature.b").trans (by decide +kernel), report, hresult, ?_, ?_, ?_, ?_⟩
  · exact (hsorts.failed _).mpr ⟨by decide +kernel, trivial⟩
  · exact (hsorts.set _).mpr ⟨⟨true, by decide +kernel⟩, not_false⟩
  · exact (hsorts.unset _).mpr ⟨by decide +kernel, not_false⟩
  · exact (hsorts.failed _).mpr ⟨by decide +kernel, trivial⟩

end Site

end Sync

end ControlPlane
