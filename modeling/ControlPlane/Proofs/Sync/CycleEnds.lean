import ControlPlane.Proofs.Sync.ModeGating

/-!
# What a cycle has done when it ends

A cycle keeps an account of its calls, and of what became of those that have ended (`Cycle.Recorded`). So
it ends in one of two ways, whatever happens between its stages (`Finished.Completed`): it had nothing to
call for and leaves what is remembered as it was, or it has made every call that the gates ask for, and
what is remembered is what became of these calls and when the last of them ended.

An event lets the cycles go on, or it ends the one that has its turn (`Staged.Went`).
-/

namespace ControlPlane

namespace Sync

open LocalConfig

/-- Whether a cycle keeps account of its calls at a stage. -/
inductive Cycle.Recorded (cycle : Cycle) : Stage → Prop
  /-- It has made no call. -/
  | opened : Recorded cycle .opened
  /-- It has made no call. -/
  | managed : Recorded cycle .managed
  /-- All its calls have ended. -/
  | ready (applying : Applying) (gates : List Gate) (hlists : cycle.Lists gates)
    (hwanted : applying.wanted = .ofGates gates)
    (hmade : applying.made.map CallResult.call = cycle.calls) :
    Recorded cycle (.ready applying)
  /-- All its calls but the one under way have ended. -/
  | calling (underWay : Node.UnderWay) (gates : List Gate) (hlists : cycle.Lists gates)
    (hwanted : underWay.applying.wanted = .ofGates gates)
    (hmade : underWay.applying.made.map CallResult.call ++ [underWay.applying.call] = cycle.calls) :
    Recorded cycle (.calling underWay)

/-- What a cycle that ended at a moment has come to. -/
inductive Finished.Completed (finished : Finished) (ended : Nat) : Prop
  /-- It had nothing to call for. -/
  | quiet (hnothing : ∀ gates, finished.Lists gates → finished.wants gates = [])
    (hcalls : finished.calls = []) (hresult : ∀ report, finished.result ≠ .ok (.applied report))
    (hfinish : finished.finish = finished.opening)
  /-- It has made all calls that the gates ask for. -/
  | wrote (gates : List Gate) (results : List CallResult) (hlists : finished.Lists gates)
    (hsome : finished.calls ≠ []) (hcalls : finished.calls = finished.wants gates)
    (hresults : results.map CallResult.call = finished.calls)
    (hresult : finished.result = .ok (.applied (.ofResults results)))
    (hfinish : finished.finish =
      ⟨knownAfter finished.start.known (.ofGates gates) results, some ended⟩)

namespace Staged

variable {view : ClusterView} {staged staged' : Staged} {event : Event}

/-- Whether the running cycle keeps account of its calls. -/
def Recorded (staged : Staged) : Prop :=
  ∀ running, staged.running = some running → running.Recorded running.stage

/-- What an event does to cycles. -/
inductive Went (staged staged' : Staged) : Prop
  /-- They go on, and keep account. -/
  | on (hrecorded : staged'.Recorded) (hpast : staged'.past = staged.past)
    (hknown : staged'.node.memory.known = staged.node.memory.known)
  /-- The one that has its turn ends, and what it leaves is remembered. -/
  | ended (finished : Finished) (hpast : staged'.past = staged.past ++ [finished])
    (hfree : staged'.running = none) (hcompleted : finished.Completed staged'.node.now)
    (hmemory : staged'.node.memory = finished.finish)

theorem Went.recorded (h : staged.Went staged') : staged'.Recorded := by
  cases h with
  | on hrecorded _ _ => exact hrecorded
  | ended _ _ hfree =>
    intro running hrunning
    rw [hfree] at hrunning
    cases hrunning

theorem went_takeTurn (staged : Staged) (trigger : Trigger) : staged.Went (staged.takeTurn trigger) := by
  let memory := staged.node.opening trigger.forced
  let cycle : Cycle := ⟨trigger, staged.node.memory, staged.earlier.length, none, none, none, []⟩
  by_cases hrecent : memory.isRecent staged.node.timing staged.node.now
  · have hquiet : Finished.Completed ⟨cycle, .ok .debounced, memory⟩ staged.node.now := by
      refine .quiet ?_ rfl (fun _ => nofun) rfl
      rintro gates ⟨look, hlook, -⟩
      cases hlook
    rw [takeTurn, if_pos hrecent]
    exact .ended _ rfl rfl hquiet rfl
  · rw [takeTurn, if_neg hrecent]
    refine .on ?_ rfl (staged.node.known_opening trigger.forced)
    rintro running ⟨⟩
    exact .opened

theorem Sound.went_sawMode (h : staged.Sound view) {cycle : Cycle}
    (hrunning : staged.running = some ⟨cycle, .opened⟩) (look : Look String) :
    staged.Went (staged.sawMode cycle look) := by
  cases h.stage _ hrunning with | opened hmode hgates hcall =>
  have hsilent : cycle.calls = [] := (h.traced cycle (mem_cycles hrunning)).silent hcall
  by_cases hself : isSelfManaged look.found
  · have hquiet : Finished.Completed
        ⟨{ cycle with mode := some look }, .ok .unmanaged, staged.node.memory⟩ staged.node.now := by
      refine .quiet ?_ hsilent (fun _ => nofun) (h.current _ hrunning).2
      rintro gates ⟨look', hlook', -⟩
      rw [hgates] at hlook'
      cases hlook'
    rw [Staged.sawMode, if_pos hself]
    exact .ended _ rfl rfl hquiet rfl
  · rw [Staged.sawMode, if_neg hself]
    refine .on ?_ rfl rfl
    rintro running ⟨⟩
    exact .managed

theorem Sound.went_sawGates (h : staged.Sound view) {cycle : Cycle}
    (hrunning : staged.running = some ⟨cycle, .managed⟩) (look : Look (List Gate)) :
    staged.Went (staged.sawGates cycle look) := by
  cases h.stage _ hrunning with | managed seen hmode hfound hgates hcall =>
  let told : Cycle := { cycle with gates := some look }
  have hsilent : told.calls = [] := (h.traced cycle (mem_cycles hrunning)).silent hcall
  have hopening : staged.node.memory = told.opening := (h.current _ hrunning).2
  have hquiet (result : Result) (hresult : ∀ report, result ≠ .ok (.applied report))
      (hnothing : ∀ gates, told.Lists gates → told.wants gates = []) :
      Finished.Completed ⟨told, result, staged.node.memory⟩ staged.node.now :=
    .quiet hnothing hsilent hresult hopening
  have hlisted {gates : List Gate} (h : told.Lists gates) : look.found = .ok gates := by
    obtain ⟨look', hlook', hfound'⟩ := h
    cases hlook'
    exact hfound'
  have hwants (gates : List Gate) :
      (Patch.between staged.node.memory.known (.ofGates gates)).calls = told.wants gates := by
    rw [hopening, told.known_opening]
    rfl
  unfold Staged.sawGates Memory.gatesListed
  cases hfinds : look.found with
  | error e =>
    refine .ended _ rfl rfl (hquiet (.error e) (fun _ => nofun) fun gates hlists => ?_) rfl
    rw [hfinds] at hlisted
    cases hlisted hlists
  | ok gates =>
    dsimp only
    rw [hwants]
    cases hcalls : told.wants gates with
    | nil =>
      refine .ended _ rfl rfl (hquiet (.ok .unchanged) (fun _ => nofun) fun gates' hlists => ?_) rfl
      rw [hfinds] at hlisted
      cases hlisted hlists
      exact hcalls
    | cons call waiting =>
      refine .on ?_ rfl rfl
      rintro running ⟨⟩
      exact .ready _ gates ⟨look, rfl, hfinds⟩ rfl hsilent.symm

theorem Recorded.went_call (h : staged.Recorded) {cycle : Cycle} {applying : Applying}
    (hrunning : staged.running = some ⟨cycle, .ready applying⟩) :
    staged.Went (staged.call cycle applying) := by
  cases h _ hrunning with | ready _ gates hlists hwanted hmade =>
  refine .on ?_ rfl rfl
  rintro running ⟨⟩
  refine .calling _ gates hlists hwanted ?_
  exact congrArg (· ++ [applying.call]) hmade

theorem Sound.went_callEnded (h : staged.Sound view) (hrecorded : staged.Recorded) {cycle : Cycle}
    {underWay : Node.UnderWay} (hrunning : staged.running = some ⟨cycle, .calling underWay⟩) :
    staged.Went (staged.callEnded cycle underWay) := by
  cases hrecorded _ hrunning with | calling _ gates hlists hwanted hmade =>
  cases h.stage _ hrunning with | calling _ look gates' hgates hfound hcalls =>
  have hsame : gates' = gates := by
    obtain ⟨look', hlook', hfound'⟩ := hlists
    cases hgates.symm.trans hlook'
    cases hfound.symm.trans hfound'
    rfl
  have hknown : staged.node.memory.known = cycle.start.known := by
    rw [(h.current _ hrunning).2]
    exact cycle.known_opening
  let results := underWay.applying.made ++ [⟨underWay.applying.call, underWay.succeeds⟩]
  have hresults : results.map CallResult.call = cycle.calls := by
    rw [List.map_append]
    exact hmade
  unfold Staged.callEnded Memory.callEnded
  dsimp only
  cases hwaiting : underWay.applying.waiting with
  | nil =>
    refine .ended _ rfl rfl (.wrote gates results hlists ?_ ?_ hresults rfl ?_) rfl
    · rw [← hmade]
      exact List.append_ne_nil_of_right_ne_nil _ (List.cons_ne_nil _ _)
    · rw [hwaiting, List.append_nil, hsame] at hcalls
      exact hcalls
    · rw [← hwanted, ← hknown]
      rfl
  | cons next waiting =>
    refine .on ?_ rfl rfl
    rintro running ⟨⟩
    exact .ready _ gates hlists hwanted hresults

/-- What every event does to cycles. -/
theorem Sound.went (h : staged.Sound view) (hrecorded : staged.Recorded)
    (hstep : staged.step? event = some staged') : staged.Went staged' := by
  cases took_of_step? hstep with
  | asked trigger => exact .on hrecorded rfl rfl
  | waited moment => exact .on hrecorded rfl rfl
  | behaved key manner => exact .on hrecorded rfl rfl
  | committed change => exact .on hrecorded rfl rfl
  | begun trigger _ _ => exact staged.went_takeTurn trigger
  | sawMode failure cycle hrunning => exact h.went_sawMode hrunning _
  | sawGates failure cycle hrunning => exact h.went_sawGates hrunning _
  | launched cycle applying hrunning => exact hrecorded.went_call hrunning
  | closed cycle underWay hrunning => exact h.went_callEnded hrecorded hrunning

/-! ## What cycles leave behind -/

/-- What is known after cycles. -/
def knownBy (past : List Finished) : Snapshot := past.getLast?.elim ∅ (·.finish.known)

theorem Went.prefix_past (h : staged.Went staged') : staged.past <+: staged'.past := by
  cases h with
  | on _ hpast _ => exact hpast ▸ List.prefix_rfl
  | ended finished hpast => exact hpast ▸ List.prefix_append _ _

theorem Went.known (h : staged.Went staged')
    (hknown : staged.node.memory.known = knownBy staged.past) :
    staged'.node.memory.known = knownBy staged'.past := by
  cases h with
  | on _ hpast hsame => rw [hsame, hknown, hpast]
  | ended finished hpast _ _ hmemory =>
    rw [hmemory, hpast, knownBy, List.getLast?_concat]
    rfl

/-- What holds of a synchronizer whose cycles keep account. -/
structure Thorough (view : ClusterView) (staged : Staged) : Prop extends staged.Sound view where
  /-- The running cycle keeps account. -/
  recorded : staged.Recorded
  /-- The cycles that have ended are complete. -/
  completed : ∀ finished ∈ staged.past, ∃ ended, finished.Completed ended
  /-- What is known is what the last cycle has left. -/
  known : staged.node.memory.known = knownBy staged.past

namespace Thorough

theorem start (timing : Timing) (view : ClusterView) (db : Database) :
    (initial timing view db).Thorough view where
  toSound := .start timing view db
  recorded := fun _ hrunning => nomatch hrunning
  completed := fun _ hfinished => nomatch hfinished
  known := rfl

theorem step (h : staged.Thorough view) (hstep : staged.step? event = some staged') :
    staged'.Thorough view where
  toSound := h.toSound.step hstep
  recorded := (h.toSound.went h.recorded hstep).recorded
  completed := by
    cases h.toSound.went h.recorded hstep with
    | on _ hpast _ =>
      rw [hpast]
      exact h.completed
    | ended finished hpast _ hcompleted =>
      rw [hpast]
      intro other hother
      rcases List.mem_append.mp hother with hearlier | hlast
      · exact h.completed other hearlier
      · rw [List.mem_singleton] at hlast
        subst hlast
        exact ⟨staged'.node.now, hcompleted⟩
  known := (h.toSound.went h.recorded hstep).known h.known

theorem run {events : List Event} (h : staged.Thorough view)
    (hrun : run? events staged = some staged') : staged'.Thorough view :=
  run?_keeps (fun h hstep => step h hstep) h hrun

end Thorough

/-! ## Cycles that have ended and cycles that have not -/

/-- Who asked for the cycles that have not ended. -/
def pending (staged : Staged) : List Trigger :=
  staged.running.toList.map (·.trigger) ++ staged.waiting

/-- Who asked for cycles. -/
def triggers (staged : Staged) : List Trigger := staged.past.map (·.trigger) ++ staged.pending

/-- A cycle that goes on is still pending, and one that ends has been asked for by the same. -/
theorem triggers_pass (staged : Staged) (cycle : Cycle) (step : Step) :
    (staged.pass cycle step).triggers =
      staged.past.map (·.trigger) ++ cycle.trigger :: staged.waiting := by
  cases step with
  | ends result memory => simp [pass, triggers, pending]
  | calls applying => simp [pass, triggers, pending]

theorem triggers_running {cycle : Cycle} {stage : Stage} (hrunning : staged.running = some ⟨cycle, stage⟩) :
    staged.triggers = staged.past.map (·.trigger) ++ cycle.trigger :: staged.waiting := by
  simp [triggers, pending, hrunning]

theorem triggers_takeTurn {trigger : Trigger} (hfree : staged.running = none)
    (hwaiting : trigger ∈ staged.waiting) : (staged.takeTurn trigger).triggers.Perm staged.triggers := by
  have hturn : (staged.takeTurn trigger).triggers =
      staged.past.map (·.trigger) ++ trigger :: staged.waiting.erase trigger := by
    unfold takeTurn
    dsimp only
    split
    · exact triggers_pass _ _ _
    · simp [triggers, pending]
  have hbefore : staged.triggers = staged.past.map (·.trigger) ++ staged.waiting := by
    simp [triggers, pending, hfree]
  rw [hturn, hbefore]
  exact (List.perm_cons_erase hwaiting).symm.append_left _

/-- Who asks for a cycle by an event. -/
def Event.asked : Event → List Trigger
  | .ask trigger => [trigger]
  | _ => []

/-- Whatever happens, there is a cycle for each time that one was asked for. -/
theorem Took.triggers (h : staged.Took event staged') :
    staged'.triggers.Perm (staged.triggers ++ event.asked) := by
  cases h with
  | asked trigger => simp [Staged.triggers, pending, Event.asked]
  | waited | behaved | committed => simp [Staged.triggers, pending, Event.asked]
  | begun trigger hfree hwaiting =>
    simp only [Event.asked, List.append_nil]
    exact triggers_takeTurn hfree hwaiting
  | sawMode failure cycle hrunning =>
    simp only [Event.asked, List.append_nil]
    rw [triggers_running hrunning, Staged.sawMode]
    split
    · rw [triggers_pass]
    · simp [Staged.triggers, pending]
  | sawGates failure cycle hrunning =>
    simp only [Event.asked, List.append_nil]
    rw [triggers_running hrunning, Staged.sawGates, triggers_pass]
  | launched cycle applying hrunning =>
    simp only [Event.asked, List.append_nil]
    rw [triggers_running hrunning]
    simp [Staged.call, Staged.triggers, pending, Cycle.note]
  | closed cycle underWay hrunning =>
    simp only [Event.asked, List.append_nil]
    rw [triggers_running hrunning, Staged.callEnded, triggers_pass]

/-- A cycle that nobody asks for does not become pending. -/
theorem Thorough.count_pending_le (h : staged.Thorough view) (hstep : staged.step? event = some staged')
    {trigger : Trigger} (hasked : trigger ∉ event.asked) :
    staged'.pending.count trigger ≤ staged.pending.count trigger := by
  have hcount := (took_of_step? hstep).triggers.count_eq trigger
  have hpast := ((h.toSound.went h.recorded hstep).prefix_past.map (·.trigger)).sublist.count_le trigger
  rw [Staged.triggers, Staged.triggers, List.count_append, List.count_append, List.count_append,
    List.count_eq_zero.mpr hasked] at hcount
  omega

end Staged

end Sync

end ControlPlane
