import ControlPlane.Sync.Node

/-!
# The pace of a node's cycles

A cycle with a call under way goes on until a moment (`Node.pursue`) or to its end (`Node.finish`). However
it is interrupted, it comes to the same end at the same time. Going on until a moment does not let time
pass beyond it, so a cycle that lasts longer has a call under way then (`Node.exists_pursue`).
-/

namespace ControlPlane

namespace Sync

namespace Node

variable {node node' : Node} {moment : Nat} {cycle cycle' : UnderWay} {result : Result}

theorem pursue_of_le (h : moment ≤ cycle.ending) : node.pursue moment cycle = (.underWay cycle, node) := by
  rw [pursue, if_pos h]

theorem pursue_of_ended (h : ¬ moment ≤ cycle.ending)
    (hclose : node.closeCall cycle = (.ended result, node')) :
    node.pursue moment cycle = (.ended result, node') := by
  rw [pursue, if_neg h, hclose]

theorem pursue_of_underWay (h : ¬ moment ≤ cycle.ending)
    (hclose : node.closeCall cycle = (.underWay cycle', node')) :
    node.pursue moment cycle = node'.pursue moment cycle' := by
  rw [pursue, if_neg h, hclose]

theorem finish_of_ended (hclose : node.closeCall cycle = (.ended result, node')) :
    node.finish cycle = (result, node') := by
  rw [finish, hclose]

theorem finish_of_underWay (hclose : node.closeCall cycle = (.underWay cycle', node')) :
    node.finish cycle = node'.finish cycle' := by
  rw [finish, hclose]

theorem now_take (node : Node) (step : Step) : (node.take step).2.now = node.now := by
  cases step <;> rfl

theorem timing_take (node : Node) (step : Step) : (node.take step).2.timing = node.timing := by
  cases step <;> rfl

theorem now_openCycle (node : Node) (forced : Bool) : (node.openCycle forced).2.now = node.now := by
  cases forced
  · exact now_take _ _
  · exact now_take _ _

theorem now_closeCall (node : Node) (cycle : UnderWay) :
    (node.closeCall cycle).2.now = max node.now cycle.ending := now_take _ _

theorem timing_closeCall (node : Node) (cycle : UnderWay) :
    (node.closeCall cycle).2.timing = node.timing := timing_take _ _

/-- A cycle that goes on until a moment does not let time pass beyond it. -/
theorem now_pursue_le (node : Node) (moment : Nat) (cycle : UnderWay) :
    (node.pursue moment cycle).2.now ≤ max node.now moment := by
  induction node, cycle using pursue.induct moment with
  | case1 node cycle hlasts =>
    rw [pursue_of_le hlasts]
    exact Nat.le_max_left _ _
  | case2 node cycle hends result node' hclose =>
    have hnow := node.now_closeCall cycle
    rw [hclose] at hnow
    rw [pursue_of_ended hends hclose, hnow]
    omega
  | case3 node cycle hends cycle' node' hclose ih =>
    have hnow := node.now_closeCall cycle
    rw [hclose] at hnow
    rw [pursue_of_underWay hends hclose]
    dsimp only at hnow
    omega

theorem timing_finish (node : Node) (cycle : UnderWay) :
    (node.finish cycle).2.timing = node.timing := by
  induction node, cycle using finish.induct with
  | case1 node cycle result node' hclose =>
    have htiming := node.timing_closeCall cycle
    rw [hclose] at htiming
    rw [finish_of_ended hclose, htiming]
  | case2 node cycle cycle' node' hclose ih =>
    have htiming := node.timing_closeCall cycle
    rw [hclose] at htiming
    rw [finish_of_underWay hclose, ih, htiming]

/-- It makes no difference whether time has passed until a moment before the call ends. -/
theorem closeCall_wait (h : moment ≤ cycle.ending) :
    (node.wait moment).closeCall cycle = node.closeCall cycle := by
  have hwait : (node.wait moment).wait cycle.ending = node.wait cycle.ending := by
    simp [wait, Nat.max_assoc, Nat.max_eq_right h]
  unfold closeCall
  rw [hwait]

theorem finish_wait (h : moment ≤ cycle.ending) :
    (node.wait moment).finish cycle = node.finish cycle := by
  cases hclose : node.closeCall cycle with | mk pace node' =>
  have hwaited := hclose
  rw [← closeCall_wait h] at hwaited
  cases pace with
  | ended result => rw [finish_of_ended hclose, finish_of_ended hwaited]
  | underWay cycle' => rw [finish_of_underWay hclose, finish_of_underWay hwaited]

/-- A cycle that went on until a moment is finished as it would have been before. -/
theorem finish_of_pursue (h : node.pursue moment cycle = (.underWay cycle', node')) :
    node.finish cycle = node'.finish cycle' := by
  induction node, cycle using pursue.induct moment with
  | case1 node cycle hlasts =>
    rw [pursue_of_le hlasts] at h
    cases h
    rfl
  | case2 node cycle hends result node₁ hclose =>
    rw [pursue_of_ended hends hclose] at h
    cases h
  | case3 node cycle hends cycle₁ node₁ hclose ih =>
    rw [pursue_of_underWay hends hclose] at h
    rw [finish_of_underWay hclose, ih h]

theorem finish_of_pursue_ended (h : node.pursue moment cycle = (.ended result, node')) :
    node.finish cycle = (result, node') := by
  induction node, cycle using pursue.induct moment with
  | case1 node cycle hlasts =>
    rw [pursue_of_le hlasts] at h
    cases h
  | case2 node cycle hends result₁ node₁ hclose =>
    rw [pursue_of_ended hends hclose] at h
    cases h
    exact finish_of_ended hclose
  | case3 node cycle hends cycle₁ node₁ hclose ih =>
    rw [pursue_of_underWay hends hclose] at h
    rw [finish_of_underWay hclose, ih h]

theorem le_of_pursue (h : node.pursue moment cycle = (.underWay cycle', node')) :
    moment ≤ cycle'.ending := by
  induction node, cycle using pursue.induct moment with
  | case1 node cycle hlasts =>
    rw [pursue_of_le hlasts] at h
    cases h
    exact hlasts
  | case2 node cycle hends result node₁ hclose =>
    rw [pursue_of_ended hends hclose] at h
    cases h
  | case3 node cycle hends cycle₁ node₁ hclose ih =>
    rw [pursue_of_underWay hends hclose] at h
    exact ih h

/-- A cycle that lasts beyond a moment has a call under way then. -/
theorem exists_pursue {forced : Bool} (hcome : node.now ≤ moment)
    (hlasts : moment < (node.runCycle forced).2.now) :
    ∃ opened between cycle cycle', node.openCycle forced = (.underWay cycle, opened) ∧
      opened.pursue moment cycle = (.underWay cycle', between) ∧ between.now ≤ moment ∧
      (between.wait moment).finish cycle' = node.runCycle forced := by
  have hnow := node.now_openCycle forced
  unfold runCycle at hlasts ⊢
  cases hopen : node.openCycle forced with | mk pace opened =>
  rw [hopen] at hnow hlasts
  cases pace with
  | ended result =>
    dsimp only at hnow hlasts
    omega
  | underWay cycle =>
    dsimp only at hnow hlasts
    have hpursued := opened.now_pursue_le moment cycle
    cases hpursue : opened.pursue moment cycle with | mk pace' between =>
    rw [hpursue] at hpursued
    dsimp only at hpursued
    cases pace' with
    | ended result =>
      rw [finish_of_pursue_ended hpursue] at hlasts
      dsimp only at hlasts
      omega
    | underWay cycle' =>
      refine ⟨opened, between, cycle, cycle', rfl, hpursue, by omega, ?_⟩
      rw [finish_wait (le_of_pursue hpursue), ← finish_of_pursue hpursue]

end Node

end Sync

end ControlPlane
