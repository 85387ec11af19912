import ControlPlane.Proofs.Sync.Pace
import ControlPlane.Proofs.Sync.Stages

/-!
# Cycles that go on by themselves

A cycle that has its turn can go on from stage to stage whatever happens around it (`Staged.Proceeds`). If
nothing does, it goes as the cycles of a node go: from where its call is under way to where the node would
be after this call, after the calls that end before a moment, or after all of them, and from its turn on as
`Node.runCycle` goes (`Staged.exists_proceeds_runCycle`).
-/

namespace ControlPlane

namespace Sync

open LocalConfig

theorem Node.openCycle_eq (node : Node) (forced : Bool) :
    node.openCycle forced = ({ node with memory := node.opening forced } : Node).take
      ((node.opening forced).openCycle node.timing node.now (node.view.mode node.db)
        (node.view.listGates node.db)) := by
  cases forced <;> rfl

namespace Staged

/-- Whether an event is a stage of the cycle that has its turn. -/
def Event.isStage : Event → Bool
  | .readMode _ | .listGates _ | .launch | .close => true
  | .ask _ | .wait _ | .behave _ _ | .commit _ | .begin _ => false

/-- Whether the cycle that has its turn can come by its stages alone from one state to another. -/
def Proceeds (staged staged' : Staged) : Prop :=
  ∃ events, (∀ event ∈ events, event.isStage = true) ∧ run? events staged = some staged'

namespace Proceeds

variable {staged between staged' : Staged} {event : Event}

theorem refl (staged : Staged) : staged.Proceeds staged := ⟨[], nofun, rfl⟩

theorem step (hstage : event.isStage = true) (hstep : staged.step? event = some between)
    (h : between.Proceeds staged') : staged.Proceeds staged' := by
  obtain ⟨events, hstages, hrun⟩ := h
  refine ⟨event :: events, ?_, (run?_cons hstep).trans hrun⟩
  rintro other (_ | ⟨_, hother⟩)
  · exact hstage
  · exact hstages other hother

theorem trans (h : staged.Proceeds between) (h' : between.Proceeds staged') : staged.Proceeds staged' := by
  obtain ⟨events, hstages, hrun⟩ := h
  induction events generalizing staged with
  | nil =>
    cases hrun
    exact h'
  | cons event events ih =>
    obtain ⟨next, hstep, hrest⟩ := Option.bind_eq_some_iff.mp hrun
    exact .step (hstages event List.mem_cons_self) hstep
      (ih (fun other hother => hstages other (List.mem_cons_of_mem event hother)) hrest)

end Proceeds

/-- What is left when a cycle has ended. -/
def after (staged : Staged) (node : Node) (finished : Finished) : Staged :=
  { staged with node := node, running := none, past := staged.past ++ [finished] }

/-- What is left when a call of a cycle is under way. -/
def during (staged : Staged) (node : Node) (cycle : Cycle) (underWay : Node.UnderWay) : Staged :=
  { staged with node := node, running := some ⟨cycle, .calling underWay⟩ }

/-- What has become of a staged synchronizer when a cycle on its node has come to a pace. -/
inductive Follows (staged : Staged) (trigger : Trigger) : Node.Pace × Node → Staged → Prop
  /-- The cycle has ended. -/
  | ended (finished : Finished) (htrigger : finished.trigger = trigger) (node : Node) :
    Follows staged trigger (.ended finished.result, node) (staged.after node finished)
  /-- A call of the cycle is under way. -/
  | underWay (cycle : Cycle) (htrigger : cycle.trigger = trigger) (underWay : Node.UnderWay)
    (node : Node) :
    Follows staged trigger (.underWay underWay, node) (staged.during node cycle underWay)

variable {staged staged' : Staged} {trigger : Trigger} {outcome : Node.Pace × Node}

/-- What has become of a synchronizer does not depend on the node and the cycle of before. -/
theorem Follows.congr {node : Node} {running : Option Running}
    (h : ({ staged with node := node, running := running } : Staged).Follows trigger outcome staged') :
    staged.Follows trigger outcome staged' := by
  cases h with
  | ended finished htrigger node => exact .ended finished htrigger node
  | underWay cycle htrigger underWay node => exact .underWay cycle htrigger underWay node

theorem Follows.eq_after {result : Result} {node : Node}
    (h : staged.Follows trigger (.ended result, node) staged') :
    ∃ finished, finished.trigger = trigger ∧ finished.result = result ∧
      staged' = staged.after node finished := by
  cases h with
  | ended finished htrigger => exact ⟨finished, htrigger, rfl, rfl⟩

/-- A cycle goes on from a step as one of the node does. -/
theorem exists_proceeds_take (staged : Staged) (cycle : Cycle) (step : Step) :
    ∃ staged', (staged.pass cycle step).Proceeds staged' ∧
      staged.Follows cycle.trigger (staged.node.take step) staged' := by
  cases step with
  | ends result memory =>
    exact ⟨_, .refl _, .ended ⟨cycle, result, memory⟩ rfl { staged.node with memory := memory }⟩
  | calls applying =>
    exact ⟨_, .step (rfl : Event.launch.isStage = true) rfl (.refl _),
      .underWay (cycle.note staged.earlier.length applying.call) rfl _ _⟩

/-- A cycle goes on from a call under way to the next one or to its end. -/
theorem exists_proceeds_closeCall (staged : Staged) (node : Node) (cycle : Cycle)
    (underWay : Node.UnderWay) :
    ∃ staged', (staged.during node cycle underWay).Proceeds staged' ∧
      staged.Follows cycle.trigger (node.closeCall underWay) staged' := by
  let closed : Staged := staged.during (node.wait underWay.ending) cycle underWay
  obtain ⟨staged', hproceeds, hfollows⟩ := closed.exists_proceeds_take cycle
    (closed.node.memory.callEnded closed.node.now underWay.applying underWay.succeeds)
  exact ⟨staged', .step (rfl : Event.close.isStage = true) rfl hproceeds, hfollows.congr⟩

/-- A cycle goes on through the calls that end before a moment. The induction is that of the node's own
going on. -/
theorem exists_proceeds_pursue (staged : Staged) (node : Node) (moment : Nat) (cycle : Cycle)
    (underWay : Node.UnderWay) :
    ∃ staged', (staged.during node cycle underWay).Proceeds staged' ∧
      staged.Follows cycle.trigger (node.pursue moment underWay) staged' := by
  induction node, underWay using Node.pursue.induct moment generalizing cycle with
  | case1 node underWay hlasts =>
    rw [Node.pursue_of_le hlasts]
    exact ⟨_, .refl _, .underWay cycle rfl underWay node⟩
  | case2 node underWay hends result node' hclose =>
    obtain ⟨staged', hproceeds, hfollows⟩ := staged.exists_proceeds_closeCall node cycle underWay
    rw [Node.pursue_of_ended hends hclose]
    exact ⟨staged', hproceeds, hclose ▸ hfollows⟩
  | case3 node underWay hends underWay' node' hclose ih =>
    obtain ⟨between, hproceeds, hfollows⟩ := staged.exists_proceeds_closeCall node cycle underWay
    rw [Node.pursue_of_underWay hends hclose]
    rw [hclose] at hfollows
    cases hfollows with | underWay cycle' htrigger =>
    obtain ⟨staged', hproceeds', hfollows'⟩ := ih cycle'
    exact ⟨staged', hproceeds.trans hproceeds', htrigger ▸ hfollows'⟩

/-- A cycle goes on through all its calls. -/
theorem exists_proceeds_finish (staged : Staged) (node : Node) (cycle : Cycle)
    (underWay : Node.UnderWay) :
    ∃ staged', (staged.during node cycle underWay).Proceeds staged' ∧
      staged.Follows cycle.trigger (.ended (node.finish underWay).1, (node.finish underWay).2) staged' := by
  induction node, underWay using Node.finish.induct generalizing cycle with
  | case1 node underWay result node' hclose =>
    obtain ⟨staged', hproceeds, hfollows⟩ := staged.exists_proceeds_closeCall node cycle underWay
    rw [Node.finish_of_ended hclose]
    exact ⟨staged', hproceeds, hclose ▸ hfollows⟩
  | case2 node underWay underWay' node' hclose ih =>
    obtain ⟨between, hproceeds, hfollows⟩ := staged.exists_proceeds_closeCall node cycle underWay
    rw [Node.finish_of_underWay hclose]
    rw [hclose] at hfollows
    cases hfollows with | underWay cycle' htrigger =>
    obtain ⟨staged', hproceeds', hfollows'⟩ := ih cycle'
    exact ⟨staged', hproceeds.trans hproceeds', htrigger ▸ hfollows'⟩

theorem step?_begin (hfree : staged.running = none) (hwaiting : trigger ∈ staged.waiting) :
    staged.step? (.begin trigger) = some (staged.takeTurn trigger) := by
  rw [step?, hfree]
  exact if_pos hwaiting

theorem waiting_takeTurn (staged : Staged) (trigger : Trigger) :
    (staged.takeTurn trigger).waiting = staged.waiting.erase trigger := by
  unfold takeTurn
  dsimp only
  split <;> rfl

/-- A cycle that has got its turn goes on to its first call or to its end. -/
theorem exists_proceeds_openCycle (staged : Staged) (trigger : Trigger) :
    let rest : Staged := { staged with waiting := staged.waiting.erase trigger }
    ∃ staged', (staged.takeTurn trigger).Proceeds staged' ∧
      rest.Follows trigger (staged.node.openCycle trigger.forced) staged' := by
  intro rest
  let memory := staged.node.opening trigger.forced
  let turned : Staged := { rest with node := { staged.node with memory := memory } }
  -- nothing is committed in between, so both looks see the store of this moment
  let mode := staged.look staged.node.view.mode none
  let listing := staged.look staged.node.view.listGates none
  let cycle : Cycle := ⟨trigger, staged.node.memory, staged.earlier.length, none, none, none, []⟩
  have houtcome : staged.node.openCycle trigger.forced = turned.node.take (memory.openCycle
      staged.node.timing staged.node.now mode.found listing.found) := Node.openCycle_eq _ _
  rw [houtcome, Memory.openCycle]
  by_cases hrecent : memory.isRecent staged.node.timing staged.node.now
  · have hturn : staged.takeTurn trigger = turned.pass cycle (.ends (.ok .debounced) memory) :=
      if_pos hrecent
    rw [if_pos hrecent, hturn]
    obtain ⟨staged', hproceeds, hfollows⟩ :=
      turned.exists_proceeds_take cycle (.ends (.ok .debounced) memory)
    exact ⟨staged', hproceeds, hfollows.congr⟩
  · let opened : Staged := { turned with running := some ⟨cycle, .opened⟩ }
    let told : Cycle := { cycle with mode := some mode }
    have hturn : staged.takeTurn trigger = opened := if_neg hrecent
    have hread : opened.step? (.readMode none) = some (opened.sawMode cycle mode) := rfl
    rw [if_neg hrecent, hturn]
    by_cases hself : isSelfManaged mode.found
    · have hmode : opened.sawMode cycle mode = turned.pass told (.ends (.ok .unmanaged) memory) :=
        if_pos hself
      obtain ⟨staged', hproceeds, hfollows⟩ :=
        turned.exists_proceeds_take told (.ends (.ok .unmanaged) memory)
      rw [hmode] at hread
      rw [if_pos hself]
      exact ⟨staged', .step rfl hread hproceeds, hfollows.congr⟩
    · let managed : Staged := { rest with node := turned.node, running := some ⟨told, .managed⟩ }
      have hmode : opened.sawMode cycle mode = managed := if_neg hself
      have hlist : managed.step? (.listGates none) = some (managed.sawGates told listing) := rfl
      obtain ⟨staged', hproceeds, hfollows⟩ := managed.exists_proceeds_take
        { told with gates := some listing } (memory.gatesListed listing.found)
      rw [hmode] at hread
      rw [if_neg hself]
      exact ⟨staged', .step rfl hread (.step rfl hlist hproceeds), hfollows.congr⟩

/-- A cycle that has got its turn can go as `Node.runCycle` does. -/
theorem exists_proceeds_runCycle (staged : Staged) (trigger : Trigger) :
    let rest : Staged := { staged with waiting := staged.waiting.erase trigger }
    let outcome := staged.node.runCycle trigger.forced
    ∃ staged', (staged.takeTurn trigger).Proceeds staged' ∧
      rest.Follows trigger (.ended outcome.1, outcome.2) staged' := by
  intro rest outcome
  obtain ⟨between, hproceeds, hfollows⟩ := staged.exists_proceeds_openCycle trigger
  unfold outcome Node.runCycle
  cases hopen : staged.node.openCycle trigger.forced with | mk pace node =>
  rw [hopen] at hfollows
  cases pace with
  | ended result => exact ⟨between, hproceeds, hfollows⟩
  | underWay underWay =>
    cases hfollows with | underWay cycle htrigger =>
    obtain ⟨staged', hproceeds', hfollows'⟩ := rest.exists_proceeds_finish node cycle underWay
    exact ⟨staged', hproceeds.trans hproceeds', htrigger ▸ hfollows'⟩

/-! ## Every cycle can end -/

/-- A cycle can go on from a step to its end. -/
theorem exists_proceeds_pass (staged : Staged) (cycle : Cycle) (step : Step) :
    ∃ staged', (staged.pass cycle step).Proceeds staged' ∧ staged'.running = none ∧
      staged'.waiting = staged.waiting := by
  obtain ⟨between, hproceeds, hfollows⟩ := staged.exists_proceeds_take cycle step
  generalize staged.node.take step = outcome at hfollows
  cases hfollows with
  | ended => exact ⟨_, hproceeds, rfl, rfl⟩
  | underWay cycle' _ underWay node =>
    obtain ⟨staged', hproceeds', hfollows'⟩ := staged.exists_proceeds_finish node cycle' underWay
    obtain ⟨finished, -, -, rfl⟩ := hfollows'.eq_after
    exact ⟨_, hproceeds.trans hproceeds', rfl, rfl⟩

/-- A cycle that has its turn can go on to its end. -/
theorem exists_proceeds_free (staged : Staged) :
    ∃ staged', staged.Proceeds staged' ∧ staged'.running = none ∧ staged'.waiting = staged.waiting := by
  have hmanaged (cycle : Cycle) : ∃ staged',
      ({ staged with running := some ⟨cycle, .managed⟩ } : Staged).Proceeds staged' ∧
        staged'.running = none ∧ staged'.waiting = staged.waiting := by
    let managed : Staged := { staged with running := some ⟨cycle, .managed⟩ }
    let listing := managed.look managed.node.view.listGates none
    obtain ⟨staged', hproceeds, hfree⟩ := managed.exists_proceeds_pass
      { cycle with gates := some listing } (managed.node.memory.gatesListed listing.found)
    exact ⟨staged', .step (rfl : (Event.listGates none).isStage = true) rfl hproceeds, hfree⟩
  obtain ⟨node, earlier, waiting, running, past⟩ := staged
  rcases running with - | ⟨cycle, stage⟩
  · exact ⟨_, .refl _, rfl, rfl⟩
  · cases stage with
    | opened =>
      let opened : Staged := ⟨node, earlier, waiting, some ⟨cycle, .opened⟩, past⟩
      let mode := opened.look opened.node.view.mode none
      have hread : opened.step? (.readMode none) = some (opened.sawMode cycle mode) := rfl
      by_cases hself : isSelfManaged mode.found
      · obtain ⟨staged', hproceeds, hfree⟩ := opened.exists_proceeds_pass
          { cycle with mode := some mode } (.ends (.ok .unmanaged) node.memory)
        rw [sawMode, if_pos hself] at hread
        exact ⟨staged', .step rfl hread hproceeds, hfree⟩
      · obtain ⟨staged', hproceeds, hfree⟩ := hmanaged { cycle with mode := some mode }
        rw [sawMode, if_neg hself] at hread
        exact ⟨staged', .step rfl hread hproceeds, hfree⟩
    | managed => exact hmanaged cycle
    | ready applying =>
      let ready : Staged := ⟨node, earlier, waiting, none, past⟩
      exact ready.exists_proceeds_pass cycle (.calls applying)
    | calling underWay =>
      let calling : Staged := ⟨node, earlier, waiting, none, past⟩
      obtain ⟨staged', hproceeds, hfollows⟩ := calling.exists_proceeds_finish node cycle underWay
      obtain ⟨finished, -, -, rfl⟩ := hfollows.eq_after
      exact ⟨_, hproceeds, rfl, rfl⟩

end Staged

end Sync

end ControlPlane
