import ControlPlane.Proofs.Sync.Turns
import Mathlib.Data.List.Basic
import Mathlib.Data.List.Nodup

/-!
# One write for each key

From the moment on which the gates that are listed stay the same, a key is written at most once, and
it is not called for again after that, however many tasks ask for cycles and in whatever order they get
their turns. A key is `Pending` while it is not known as wanted. A cycle that compares what is known with
what is wanted calls once for every pending key, and for no other one (`Retried`); a failed call leaves
its key pending.
-/

namespace ControlPlane

namespace Sync

open LocalConfig

/-- Whether the gates, where they can be listed, come to one snapshot. -/
def ClusterView.Steady (view : ClusterView) (db : Database) (wanted : Snapshot) : Prop :=
  ∀ gates, view.listGates db = .ok gates → Snapshot.ofGates gates = wanted

theorem steady_fixed (gates : List Gate) (db : Database) :
    ClusterView.Steady ⟨true, .fixed gates, .unreachable⟩ db (.ofGates gates) := by
  rintro _ ⟨⟩
  rfl

/-- The keys of calls. -/
def calledKeys (results : List CallResult) : List String := results.map fun result => result.call.key

/-! ## Pending keys -/

/-- Whether a key still has to be written after calls, given what was known before them: it was not
known as wanted, and no call for it has succeeded. -/
def Pending (known wanted : Snapshot) (calls : List CallResult) (key : String) : Prop :=
  known[key]? ≠ wanted[key]? ∧ ∀ result ∈ calls, result.call.key = key → result.succeeded = false

section Pending

variable {known wanted : Snapshot} {calls made : List CallResult} {key : String}

theorem pending_append : Pending known wanted (calls ++ made) key ↔
    Pending known wanted calls key ∧
      ∀ result ∈ made, result.call.key = key → result.succeeded = false := by
  simp only [Pending, List.mem_append, or_imp, forall_and, and_assoc]

theorem calledKeys_of_between (hmade : made.map CallResult.call = (Patch.between known wanted).calls) :
    calledKeys made = (Patch.between known wanted).calls.map Call.key := by
  rw [← hmade, List.map_map]
  rfl

/-- After the calls of a patch a key is not known as wanted exactly if it differed and its call
failed. -/
theorem knownAfter_ne_iff (hmade : made.map CallResult.call = (Patch.between known wanted).calls) :
    (knownAfter known wanted made)[key]? ≠ wanted[key]? ↔ Pending known wanted made key := by
  have hkeys := calledKeys_of_between hmade
  rw [getElem?_knownAfter]
  by_cases hfailed : key ∈ made.filterMap (·.failedKey?)
  · rw [if_pos hfailed]
    refine (and_iff_left ?_).symm
    obtain ⟨failed, hmem, hkey, hfail⟩ := mem_failedKeys.mp hfailed
    intro result hresult hkey'
    have hnodup := Patch.nodup_calls_between known wanted
    rw [← hkeys] at hnodup
    have hsame := List.inj_on_of_nodup_map hnodup hresult hmem (hkey'.trans hkey.symm)
    rwa [hsame]
  · rw [if_neg hfailed]
    refine iff_of_false (fun hne => hne rfl) ?_
    rintro ⟨hne, hall⟩
    rw [← Patch.mem_keys_calls_between, ← hkeys] at hne
    obtain ⟨result, hmem, hkey⟩ := List.mem_map.mp hne
    exact hfailed (mem_failedKeys.mpr ⟨result, hmem, hkey, hall result hmem hkey⟩)

/-- Whether a call leaves room for a later one: one for the same key only if it failed. -/
def MakesRoom (earlier later : CallResult) : Prop :=
  earlier.call.key = later.call.key → earlier.succeeded = false

theorem pairwise_makesRoom_append (hcalls : calls.Pairwise MakesRoom) (honce : (calledKeys made).Nodup)
    (hpending : ∀ result ∈ made, Pending known wanted calls result.call.key) :
    (calls ++ made).Pairwise MakesRoom := by
  rw [List.pairwise_append]
  refine ⟨hcalls, ?_, ?_⟩
  · refine (List.pairwise_map.mp honce).imp ?_
    intro earlier later hne heq
    exact absurd heq hne
  · intro earlier hearlier later hlater hkey
    exact (hpending later hlater).2 earlier hearlier hkey

end Pending

/-! ## What a cycle calls for -/

/-- Whether a cycle has compared what is known with what is wanted: it was not held back, the node does
not manage its configuration itself, and the gates could be listed. -/
def Ended.Reconciled (ended : Ended) : Prop := ended.result = .ok .unchanged ∨ ended.Applied

/-- What a cycle calls for, given what was known at some time and the cycles since then. -/
structure Retried (known wanted : Snapshot) (before : List Ended) (cycle : Ended) : Prop where
  /-- A cycle that does not compare makes no call. -/
  idle : ¬ cycle.Reconciled → cycle.made = []
  /-- A cycle that compares calls for the pending keys. -/
  pending : cycle.Reconciled → ∀ key, key ∈ calledKeys cycle.made ↔
    Pending known wanted (before.flatMap Ended.made) key
  /-- No key is called for twice. -/
  once : (calledKeys cycle.made).Nodup
  /-- A cycle that has applied something has made calls. -/
  busy : cycle.Applied → cycle.made ≠ []

namespace Retried

variable {known wanted : Snapshot} {before : List Ended} {cycle : Ended}

theorem pending_of_mem (h : Retried known wanted before cycle) {result : CallResult}
    (hmem : result ∈ cycle.made) :
    Pending known wanted (before.flatMap Ended.made) result.call.key := by
  by_cases hreconciled : cycle.Reconciled
  · exact (h.pending hreconciled _).mp (List.mem_map_of_mem hmem)
  · rw [h.idle hreconciled] at hmem
    cases hmem

theorem pairwise_makesRoom {cycles : List Ended} (h : InTurn (Retried known wanted) cycles) :
    (cycles.flatMap Ended.made).Pairwise MakesRoom := by
  induction cycles using List.reverseRecOn with
  | nil => exact List.Pairwise.nil
  | append_singleton cycles last ih =>
    rw [List.flatMap_append, List.flatMap_singleton]
    exact pairwise_makesRoom_append (ih h.left) h.final.once fun _ hmem => h.final.pending_of_mem hmem

/-- Every call has been for a key that was not known as wanted. -/
theorem ne_of_mem {cycles : List Ended} (h : InTurn (Retried known wanted) cycles)
    {result : CallResult} (hmem : result ∈ cycles.flatMap Ended.made) :
    known[result.call.key]? ≠ wanted[result.call.key]? := by
  obtain ⟨cycle, hcycle, hmem⟩ := List.mem_flatMap.mp hmem
  obtain ⟨before, after, hsplit⟩ := List.append_of_mem hcycle
  exact ((h before cycle after hsplit).pending_of_mem hmem).1

end Retried

/-! ## Every run -/

namespace Shared

/-- The calls that the cycle under way has made. -/
def issued (shared : Shared) : List CallResult := (shared.turn.map Turn.issued).getD []

/-- What holds of a shared synchronizer when cycles have ended since the gates stopped changing. -/
structure Settling (start : Shared) (wanted : Snapshot) (cycles : List Ended) (shared : Shared) :
    Prop where
  /-- These cycles have ended. -/
  past : shared.past = start.past ++ cycles
  /-- The gates do not change. -/
  steady : shared.node.view.Steady shared.node.db wanted
  /-- All their calls and those of the cycle under way have been written down. -/
  calls : shared.node.calls.map TimedCall.call = start.node.calls.map TimedCall.call ++
    (cycles.flatMap Ended.made ++ shared.issued).map CallResult.call
  /-- The pending keys are those that are not known as wanted. -/
  knows : ∀ key, shared.known[key]? ≠ wanted[key]? ↔
    Pending start.known wanted (cycles.flatMap Ended.made) key
  /-- Each cycle has called for the keys that were pending. -/
  retried : InTurn (Retried start.known wanted) cycles
  /-- The cycle under way calls for the keys that are pending. -/
  turn : ∀ turn, shared.turn = some turn → turn.cycle.applying.wanted = wanted ∧
    turn.issued.map CallResult.call ++ turn.cycle.applying.waiting =
      (Patch.between shared.known wanted).calls

namespace Settling

variable {start shared shared' : Shared} {wanted : Snapshot} {cycles : List Ended} {event : Event}

theorem refl (hfree : start.turn = none) (hsteady : start.node.view.Steady start.node.db wanted) :
    Settling start wanted [] start where
  past := (List.append_nil _).symm
  steady := hsteady
  calls := by simp [issued, hfree]
  knows := fun key => by simp [Pending]
  retried := .nil
  turn := fun turn hturn => by simp [hfree] at hturn

theorem retried_of_passed (h : Settling start wanted cycles shared) (trigger : Trigger)
    {result : Result} (hidle : ∀ report, result ≠ .ok (.applied report))
    (hunchanged : result = .ok .unchanged → ∃ gates,
      shared.node.view.listGates shared.node.db = .ok gates ∧ shared.known = .ofGates gates) :
    Retried start.known wanted cycles ⟨trigger, shared.node.now, shared.node.now, result, []⟩ := by
  have hquiet : ¬ Ended.Applied ⟨trigger, shared.node.now, shared.node.now, result, []⟩ := by
    rintro ⟨report, hreport⟩
    exact hidle report hreport
  refine ⟨fun _ => rfl, ?_, List.nodup_nil, fun happlied => absurd happlied hquiet⟩
  intro hreconciled key
  obtain ⟨gates, hgates, hknown⟩ := hunchanged (hreconciled.resolve_right hquiet)
  refine iff_of_false (List.not_mem_nil) ?_
  rw [← h.knows, hknown, h.steady gates hgates]
  exact fun hne => hne rfl

/-- The calls of a cycle that has no more to make are all those that it was to make. -/
theorem issued_of_finished (h : Settling start wanted cycles shared) {turn : Turn}
    (hturn : shared.turn = some turn) (hwaiting : turn.cycle.applying.waiting = []) :
    turn.issued.map CallResult.call = (Patch.between shared.known wanted).calls := by
  have hcalls := (h.turn turn hturn).2
  rwa [hwaiting, List.append_nil] at hcalls

theorem retried_of_finished (h : Settling start wanted cycles shared) {turn : Turn}
    (hturn : shared.turn = some turn) (hwaiting : turn.cycle.applying.waiting = []) (ended : Nat) :
    Retried start.known wanted cycles ⟨turn.trigger, turn.began, ended,
      .ok (.applied (.ofResults turn.issued)), turn.issued⟩ := by
  have hkeys := calledKeys_of_between (h.issued_of_finished hturn hwaiting)
  refine ⟨fun hnot => absurd (Or.inr ⟨_, rfl⟩) hnot, ?_, ?_, fun _ => by simp [Turn.issued]⟩
  · intro _ key
    rw [hkeys, Patch.mem_keys_calls_between]
    exact h.knows key
  · rw [hkeys]
    exact Patch.nodup_calls_between _ _

theorem took (h : Settling start wanted cycles shared)
    (hsteady : ∀ surroundings, event = .change surroundings →
      surroundings.view.Steady surroundings.db wanted)
    (htook : shared.Took event shared') :
    ∃ ended, Settling start wanted (cycles ++ ended) shared' := by
  cases htook with
  | asked trigger =>
    refine ⟨[], ?_⟩
    rw [List.append_nil]
    exact ⟨h.past, h.steady, h.calls, h.knows, h.retried, h.turn⟩
  | changed surroundings =>
    refine ⟨[], ?_⟩
    rw [List.append_nil]
    exact ⟨h.past, hsteady surroundings rfl, h.calls, h.knows, h.retried, h.turn⟩
  | passed trigger hfree result hidle _ hunchanged =>
    have hretried := h.retried_of_passed trigger hidle hunchanged
    refine ⟨[_], ?_, h.steady, ?_, ?_, h.retried.append hretried, fun turn hturn => nomatch hturn⟩
    · rw [← List.append_assoc, ← h.past]
    · have hcalls := h.calls
      rw [issued, hfree] at hcalls
      simpa [issued] using hcalls
    · intro key
      rw [known, Node.known_opening, List.flatMap_append, List.flatMap_singleton, List.append_nil]
      exact h.knows key
  | called trigger hfree hrecent gates hlisted call waiting hcalls succeeds ending =>
    have hwanted := h.steady gates hlisted
    refine ⟨[], ?_⟩
    rw [List.append_nil]
    refine ⟨h.past, h.steady, ?_, ?_, h.retried, ?_⟩
    · have hbefore := h.calls
      rw [issued, hfree] at hbefore
      simp [issued, Turn.issued, hbefore]
    · intro key
      rw [known, Node.known_opening]
      exact h.knows key
    · rintro turn ⟨⟩
      refine ⟨hwanted, ?_⟩
      rw [known, Node.known_opening, ← hwanted]
      exact hcalls.symm
  | proceeded turn hturn next waiting hwaiting succeeds ending =>
    obtain ⟨hwanted, hcalls⟩ := h.turn turn hturn
    refine ⟨[], ?_⟩
    rw [List.append_nil]
    refine ⟨h.past, h.steady, ?_, h.knows, h.retried, ?_⟩
    · have hbefore := h.calls
      rw [issued, hturn] at hbefore
      simp only [Option.map_some, Option.getD_some] at hbefore
      simp [issued, Turn.issued, hbefore]
    · rintro turn' ⟨⟩
      refine ⟨hwanted, ?_⟩
      rw [hwaiting] at hcalls
      simpa [Turn.issued, Shared.known] using hcalls
  | finished turn hturn hwaiting =>
    have hretried := h.retried_of_finished hturn hwaiting (max shared.node.now turn.cycle.ending)
    refine ⟨[_], ?_, h.steady, ?_, ?_, h.retried.append hretried, fun turn hturn => nomatch hturn⟩
    · rw [← List.append_assoc, ← h.past]
    · have hbefore := h.calls
      rw [issued, hturn] at hbefore
      simpa [issued] using hbefore
    · intro key
      rw [List.flatMap_append, List.flatMap_singleton, pending_append, ← h.knows key]
      show (knownAfter shared.known turn.cycle.applying.wanted turn.issued)[key]? ≠ wanted[key]? ↔ _
      rw [(h.turn turn hturn).1]
      exact knownAfter_ne_iff (h.issued_of_finished hturn hwaiting)

theorem run {events : List Event} :
    ∀ {shared : Shared} {cycles : List Ended}, Settling start wanted cycles shared →
      (∀ surroundings, .change surroundings ∈ events →
        surroundings.view.Steady surroundings.db wanted) →
      run? events shared = some shared' → ∃ cycles', Settling start wanted cycles' shared' := by
  induction events with
  | nil =>
    intro shared cycles h _ hrun
    cases hrun
    exact ⟨cycles, h⟩
  | cons event events ih =>
    intro shared cycles h hsteady hrun
    obtain ⟨between, hstep, hrest⟩ := Option.bind_eq_some_iff.mp hrun
    obtain ⟨ended, hbetween⟩ := h.took (fun surroundings heq => hsteady surroundings (by simp [heq]))
      (took_of_step? hstep)
    exact ih hbetween (fun surroundings hmem => hsteady surroundings (by simp [hmem])) hrest

/-- The calls of the cycle under way are for pending keys too. -/
theorem pairwise_makesRoom (h : Settling start wanted cycles shared) :
    (cycles.flatMap Ended.made ++ shared.issued).Pairwise MakesRoom := by
  have hended := Retried.pairwise_makesRoom h.retried
  cases hturn : shared.turn with
  | none => simpa [issued, hturn] using hended
  | some turn =>
    obtain ⟨-, hcalls⟩ := h.turn turn hturn
    have hkeys : calledKeys turn.issued ++ turn.cycle.applying.waiting.map Call.key =
        (Patch.between shared.known wanted).calls.map Call.key := by
      rw [← hcalls, List.map_append, List.map_map]
      rfl
    have hnodup := Patch.nodup_calls_between shared.known wanted
    rw [← hkeys] at hnodup
    have hpending : ∀ result ∈ turn.issued,
        Pending start.known wanted (cycles.flatMap Ended.made) result.call.key := by
      intro result hmem
      rw [← h.knows, ← Patch.mem_keys_calls_between, ← hkeys]
      exact List.mem_append_left _ (List.mem_map_of_mem hmem)
    have hissued : shared.issued = turn.issued := by simp [issued, hturn]
    rw [hissued]
    exact pairwise_makesRoom_append hended hnodup.of_append_left hpending

end Settling

/--
From any moment between two cycles on, as long as the gates that are listed stay the same, in every
run: a call is made for a key that was called for before only if all earlier calls for it have failed. A
cycle that compares what is known with what is wanted makes exactly one call for a key that has been
called for in vain, and it makes no call and finds nothing to change when no key is pending. Other cycles
make no call.
-/
theorem one_write_for_each_key (start shared : Shared) (events : List Event) (wanted : Snapshot)
    (hfree : start.turn = none) (hsteady : start.node.view.Steady start.node.db wanted)
    (hevents : ∀ surroundings, .change surroundings ∈ events →
      surroundings.view.Steady surroundings.db wanted)
    (hrun : run? events start = some shared) :
    ∃ cycles, shared.past = start.past ++ cycles ∧
      (let calls := cycles.flatMap Ended.made ++ shared.issued
      shared.node.calls.map TimedCall.call =
        start.node.calls.map TimedCall.call ++ calls.map CallResult.call ∧
      calls.Pairwise fun earlier later =>
        earlier.call.key = later.call.key → earlier.succeeded = false) ∧
      ∀ before cycle after, cycles = before ++ cycle :: after →
        let calls := before.flatMap Ended.made
        (¬ cycle.Reconciled → cycle.made = []) ∧
        (cycle.Reconciled → ∀ failed ∈ calls, (∀ result ∈ calls,
            result.call.key = failed.call.key → result.succeeded = false) →
          (calledKeys cycle.made).count failed.call.key = 1) ∧
        (cycle.Reconciled → (∀ key, ¬ Pending start.known wanted calls key) →
          cycle.result = .ok .unchanged ∧ cycle.made = []) := by
  obtain ⟨cycles, hsettling⟩ := (Settling.refl hfree hsteady).run hevents hrun
  refine ⟨cycles, hsettling.past, ⟨hsettling.calls, hsettling.pairwise_makesRoom⟩, ?_⟩
  intro before cycle after hsplit
  have hcycle := hsettling.retried before cycle after hsplit
  have hbefore : InTurn (Retried start.known wanted) before := by
    have hretried := hsettling.retried
    rw [hsplit] at hretried
    exact hretried.left
  refine ⟨hcycle.idle, ?_, ?_⟩
  · intro hreconciled failed hmem hvain
    have hpending : Pending start.known wanted (before.flatMap Ended.made) failed.call.key :=
      ⟨Retried.ne_of_mem hbefore hmem, hvain⟩
    exact List.count_eq_one_of_mem hcycle.once ((hcycle.pending hreconciled _).mpr hpending)
  · intro hreconciled hnone
    have hmade : cycle.made = [] := by
      rw [List.eq_nil_iff_forall_not_mem]
      intro result hmem
      exact hnone _ (hcycle.pending_of_mem hmem)
    refine ⟨hreconciled.resolve_right ?_, hmade⟩
    intro happlied
    exact hcycle.busy happlied hmade

/-- Two tasks ask for cycles. The call of the first cycle fails, the second cycle makes it again, and
the third one finds nothing to change. -/
theorem one_write_for_each_key_retried :
    ∃ shared first second third,
      run? [.change (showing 0 [⟨"a", true⟩] [("feature.a", .fails)]), .ask ⟨0, true⟩, .ask ⟨1, true⟩,
          .begin ⟨1, true⟩, .close, .change (showing 0 [⟨"a", true⟩] []), .begin ⟨0, true⟩, .close,
          .ask ⟨1, true⟩, .begin ⟨1, true⟩]
        (initial .standard ⟨true, .fixed [⟨"a", true⟩], .unreachable⟩ .empty) = some shared ∧
      shared.past = [first, second, third] ∧ (calledKeys second.made).count "feature.a" = 1 ∧
      third.result = .ok .unchanged ∧ third.made = [] := by
  let events : List Event := [.change (showing 0 [⟨"a", true⟩] [("feature.a", .fails)]),
    .ask ⟨0, true⟩, .ask ⟨1, true⟩, .begin ⟨1, true⟩, .close, .change (showing 0 [⟨"a", true⟩] []),
    .begin ⟨0, true⟩, .close, .ask ⟨1, true⟩, .begin ⟨1, true⟩]
  let start : Shared := initial .standard ⟨true, .fixed [⟨"a", true⟩], .unreachable⟩ .empty
  have hcourse : ((run? events start).map fun shared =>
      shared.past.map fun cycle => (cycle.result, cycle.made)) =
      some [(.ok (.applied ⟨[], [], ["feature.a"]⟩), [⟨.set "feature.a" true, false⟩]),
        (.ok (.applied ⟨["feature.a"], [], []⟩), [⟨.set "feature.a" true, true⟩]),
        (.ok .unchanged, [])] := by
    decide +kernel
  obtain ⟨shared, hrun, hcourse⟩ := Option.map_eq_some_iff.mp hcourse
  obtain ⟨first, second, third, hpast⟩ := List.length_eq_three.mp
    ((List.length_map _).symm.trans (congrArg List.length hcourse))
  simp only [hpast, List.map_cons, List.map_nil, Prod.mk.injEq, List.cons.injEq] at hcourse
  obtain ⟨⟨hfirst, hfirstMade⟩, ⟨hsecond, hsecondMade⟩, ⟨hthird, -⟩, -⟩ := hcourse
  obtain ⟨cycles, hcycles, -, hall⟩ := one_write_for_each_key start shared events
    (.ofGates [⟨"a", true⟩]) rfl (steady_fixed _ _) (by simp [events, showing, steady_fixed]) hrun
  have hcycles : cycles = [first, second, third] := hcycles.symm.trans hpast
  refine ⟨shared, first, second, third, hrun, hpast, ?_, ?_⟩
  · refine (hall [first] second [third] hcycles).2.1 (Or.inr ⟨_, hsecond⟩)
      ⟨.set "feature.a" true, false⟩ (by simp [hfirstMade]) ?_
    simp [hfirstMade]
  · refine (hall [first, second] third [] hcycles).2.2 (Or.inl hthird) ?_
    rintro key ⟨hne, hfailed⟩
    have hkey : "feature.a" ≠ key := by
      intro heq
      have hsucceeded := hfailed ⟨.set "feature.a" true, true⟩ (by simp [hsecondMade]) heq
      cases hsucceeded
    have hlocal : isLocalKey "a" = false := by decide
    have hname : localKey "a" = "feature.a" := by decide
    simp [start, known, initial, Node.initial, Memory.initial, Snapshot.ofGates, Snapshot.addGate,
      hlocal, hname, hkey] at hne

end Shared

end Sync

end ControlPlane
