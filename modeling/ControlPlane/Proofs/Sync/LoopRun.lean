import ControlPlane.Proofs.Sync.LoopProgress

/-!
# The loop in virtual time

`Node.runLoop` runs the loop beside a list of events, each at its time. It is one of the ways in which the
loop can go among other tasks (`Background.exists_reaches_runLoop`): a tick fires as soon as it is due, the
loop goes on as soon as its cycle has ended, and a forced cycle is that of another task.

While the events are played, a `Background` shows where the loop and the node are (`Background.Shows`). What
has become of a cycle on the node is also what becomes of it by its stages.
-/

namespace ControlPlane

namespace Sync

open LocalConfig

/-! ## What the loop does next -/

namespace Loop

variable {loop : Loop} {node node' : Node} {moment : Nat} {cycle : Node.UnderWay}

theorem settle_of_idle (h : loop.activity = .idle)
    (hnext : (loop.stopping || decide (moment ≤ max loop.due node.now)) = true) :
    loop.settle moment node = (loop, node) := by
  rw [settle]
  split
  · rw [if_pos (by simpa using hnext)]
  all_goals simp_all

theorem settle_of_tick (h : loop.activity = .idle)
    (hnext : ¬ (loop.stopping || decide (moment ≤ max loop.due node.now)) = true) :
    loop.settle moment node = (loop.fire node.timing.interval (max loop.due node.now)).settle moment
      (node.wait (max loop.due node.now)) := by
  rw [settle]
  split
  · rw [if_neg (by simpa using hnext)]
  all_goals simp_all

theorem settle_of_late (h : loop.activity = .queued) (hnext : moment ≤ node.now) :
    loop.settle moment node = (loop, node) := by
  rw [settle]
  split
  case h_2 => rw [if_pos hnext]
  all_goals simp_all

theorem settle_of_ended {result : Result} (h : loop.activity = .queued) (hnext : ¬ moment ≤ node.now)
    (hopen : node.openCycle false = (.ended result, node')) :
    loop.settle moment node = (loop.turnTo .idle).settle moment node' := by
  rw [settle]
  split
  case h_2 => rw [if_neg hnext, hopen]
  all_goals simp_all

theorem settle_of_underWay (h : loop.activity = .queued) (hnext : ¬ moment ≤ node.now)
    (hopen : node.openCycle false = (.underWay cycle, node')) :
    loop.settle moment node = (loop.turnTo (.busy cycle)).settle moment node' := by
  rw [settle]
  split
  case h_2 => rw [if_neg hnext, hopen]
  all_goals simp_all

theorem settle_of_pursued {result : Result} (h : loop.activity = .busy cycle)
    (hpursue : node.pursue moment cycle = (.ended result, node')) :
    loop.settle moment node = (loop.turnTo .idle).settle moment node' := by
  rw [settle]
  split
  case h_3 cycle' hcycle =>
    cases h.symm.trans hcycle
    rw [hpursue]
  all_goals simp_all

theorem settle_of_lasting {cycle' : Node.UnderWay} (h : loop.activity = .busy cycle)
    (hpursue : node.pursue moment cycle = (.underWay cycle', node')) :
    loop.settle moment node = (loop.turnTo (.busy cycle'), node') := by
  rw [settle]
  split
  case h_3 cycle₁ hcycle =>
    cases h.symm.trans hcycle
    rw [hpursue]
  all_goals simp_all

theorem activity_complete (loop : Loop) (node : Node) : (loop.complete node).1.activity = .idle := by
  unfold complete
  cases hactivity : loop.activity with
  | idle => exact hactivity
  | queued | busy _ => rfl

theorem stopping_complete (loop : Loop) (node : Node) :
    (loop.complete node).1.stopping = loop.stopping := by
  unfold complete
  cases loop.activity <;> rfl

end Loop

/-! ## The loop among other tasks -/

/-- How a synchronizer and the loop among other tasks stand while the loop in virtual time is active. -/
inductive Activity.Shown (staged : Staged) : Activity → Phase → Prop
  /-- Nobody asks for anything. -/
  | idle (hfree : staged.running = none) (hwaiting : staged.waiting = []) :
    Shown staged .idle .selecting
  /-- The loop waits for its turn. -/
  | queued (hfree : staged.running = none) (hwaiting : staged.waiting = [loopTrigger]) :
    Shown staged .queued .cycling
  /-- The loop has its turn. -/
  | busy (cycle : Cycle) (underWay : Node.UnderWay) (htrigger : cycle.trigger = loopTrigger)
    (hrunning : staged.running = some ⟨cycle, .calling underWay⟩) (hwaiting : staged.waiting = []) :
    Shown staged (.busy underWay) .cycling

theorem Activity.Shown.congr {staged staged' : Staged} {activity : Activity} {phase : Phase}
    (h : activity.Shown staged phase) (hrunning : staged'.running = staged.running)
    (hwaiting : staged'.waiting = staged.waiting) : activity.Shown staged' phase := by
  cases h with
  | idle hfree hnobody => exact .idle (hrunning.trans hfree) (hwaiting.trans hnobody)
  | queued hfree hloop => exact .queued (hrunning.trans hfree) (hwaiting.trans hloop)
  | busy cycle underWay htrigger hcalling hnobody =>
    exact .busy cycle underWay htrigger (hrunning.trans hcalling) (hwaiting.trans hnobody)

namespace Background

/-- Whether the loop among other tasks shows where the loop in virtual time and its node are. -/
structure Shows (background : Background) (loop : Loop) (node : Node) : Prop where
  /-- The nodes are the same. -/
  node : background.staged.node = node
  /-- The next tick is due at the same time. -/
  due : background.due = loop.due
  /-- The loops are active in the same way. -/
  activity : loop.activity.Shown background.staged background.phase

variable {background : Background} {loop loop' : Loop} {node node' : Node}

/-- A loop that waits for a tick looks at what was sent, and goes on waiting. -/
theorem exists_reaches_calm (hphase : background.phase = .selecting)
    (hquiet : background.channel.stop = false) :
    ∃ background', background.Reaches background' ∧ background'.staged = background.staged ∧
      background'.due = background.due ∧ background'.phase = background.phase ∧
      background'.channel = { background.channel with changed := false } := by
  cases hchanged : background.channel.changed with
  | false =>
    refine ⟨background, .refl background, rfl, rfl, rfl, ?_⟩
    rw [← hchanged]
  | true =>
    let noticing : Background :=
      { background with phase := .noticing, channel := { background.channel with changed := false } }
    have hnotice : background.step? .notice = some noticing := by
      simp [step?, hphase, hchanged, noticing]
    refine ⟨_, .step hnotice (.step (step?_look rfl) (.refl _)), rfl, rfl, ?_, rfl⟩
    rw [sees, show noticing.channel.stop = false from hquiet, hphase]
    rfl

theorem Shows.selecting (h : background.Shows loop node) (hactivity : loop.activity = .idle) :
    background.phase = .selecting ∧ background.staged.running = none ∧
      background.staged.waiting = [] := by
  have hshown := h.activity
  rw [hactivity] at hshown
  generalize background.phase = phase at hshown
  cases hshown with
  | idle hfree hwaiting => exact ⟨rfl, hfree, hwaiting⟩

theorem Shows.queued (h : background.Shows loop node) (hactivity : loop.activity = .queued) :
    background.phase = .cycling ∧ background.staged.running = none ∧
      background.staged.waiting = [loopTrigger] := by
  have hshown := h.activity
  rw [hactivity] at hshown
  generalize background.phase = phase at hshown
  cases hshown with
  | queued hfree hwaiting => exact ⟨rfl, hfree, hwaiting⟩

theorem Shows.busy (h : background.Shows loop node) {underWay : Node.UnderWay}
    (hactivity : loop.activity = .busy underWay) :
    background.phase = .cycling ∧ background.staged.waiting = [] ∧ ∃ cycle : Cycle,
      cycle.trigger = loopTrigger ∧ background.staged = background.staged.during node cycle underWay := by
  have hshown := h.activity
  rw [hactivity] at hshown
  generalize background.phase = phase at hshown
  cases hshown with
  | busy cycle _ htrigger hrunning hwaiting =>
    refine ⟨rfl, hwaiting, cycle, htrigger, ?_⟩
    rw [Staged.during, ← h.node, ← hrunning]

/-- Whether the loop among other tasks can get to where the loop in virtual time and a node are, while
nothing becomes of the channel. -/
def Attains (background : Background) (loop : Loop) (node : Node) : Prop :=
  ∃ background', background.Reaches background' ∧ background'.Shows loop node ∧
    background'.channel = background.channel

theorem Attains.refl (h : background.Shows loop node) : background.Attains loop node :=
  ⟨background, .refl background, h, rfl⟩

/-- When the loop's cycle has come to a pace, the loops are still the same. -/
theorem Shows.follow (h : background.Shows loop node) (hphase : background.phase = .cycling)
    {rest staged : Staged} (hwaiting : rest.waiting = []) {outcome : Node.Pace × Node}
    (hreaches : background.Reaches { background with staged := staged })
    (hfollows : rest.Follows loopTrigger outcome staged) :
    background.Attains (loop.follow outcome.1) outcome.2 := by
  cases hfollows with
  | ended finished htrigger node' =>
    have hresume : ({ background with staged := rest.after node' finished } : Background).step? .resume =
        some { background with staged := rest.after node' finished, phase := .selecting } := by
      refine if_pos ⟨hphase, ?_⟩
      rw [Staged.pending_of_free rfl]
      exact hwaiting ▸ List.not_mem_nil
    exact ⟨_, hreaches.trans (.step hresume (.refl _)), ⟨rfl, h.due, .idle rfl hwaiting⟩, rfl⟩
  | underWay cycle htrigger underWay node' =>
    refine ⟨_, hreaches, ⟨rfl, h.due, ?_⟩, rfl⟩
    rw [hphase]
    exact .busy cycle underWay htrigger rfl hwaiting

theorem Shows.openCycle (h : background.Shows loop node) (hactivity : loop.activity = .queued) :
    background.Attains (loop.follow (node.openCycle false).1) (node.openCycle false).2 := by
  obtain ⟨hphase, hfree, hwaiting⟩ := h.queued hactivity
  obtain ⟨staged, hproceeds, hfollows⟩ := background.staged.exists_proceeds_openCycle loopTrigger
  have hturn := Proceeds.takeTurn hfree (hwaiting ▸ List.mem_singleton_self loopTrigger)
  rw [h.node] at hfollows
  refine h.follow hphase ?_ (hturn.trans (.staged hproceeds)).reaches hfollows
  rw [hwaiting]
  rfl

theorem Shows.pursue (h : background.Shows loop node) {underWay : Node.UnderWay}
    (hactivity : loop.activity = .busy underWay) (moment : Nat) :
    background.Attains (loop.follow (node.pursue moment underWay).1)
      (node.pursue moment underWay).2 := by
  obtain ⟨hphase, hwaiting, cycle, htrigger, hstaged⟩ := h.busy hactivity
  obtain ⟨staged, hproceeds, hfollows⟩ :=
    background.staged.exists_proceeds_pursue node moment cycle underWay
  rw [← hstaged] at hproceeds
  exact h.follow hphase hwaiting (Proceeds.staged hproceeds).reaches (htrigger ▸ hfollows)

/-- The loop completes the cycle that it is in, or for which it waits. -/
theorem Shows.complete (h : background.Shows loop node) :
    background.Attains (loop.complete node).1 (loop.complete node).2 := by
  unfold Loop.complete
  cases hactivity : loop.activity with
  | idle => exact .refl h
  | queued =>
    obtain ⟨hphase, hfree, hwaiting⟩ := h.queued hactivity
    obtain ⟨staged, hproceeds, hfollows⟩ := background.staged.exists_proceeds_runCycle loopTrigger
    have hturn := Proceeds.takeTurn hfree (hwaiting ▸ List.mem_singleton_self loopTrigger)
    rw [h.node] at hfollows
    have hrest : background.staged.waiting.erase loopTrigger = [] := by
      rw [hwaiting]
      rfl
    exact h.follow hphase hrest (hturn.trans (.staged hproceeds)).reaches hfollows
  | busy underWay =>
    obtain ⟨hphase, hwaiting, cycle, htrigger, hstaged⟩ := h.busy hactivity
    obtain ⟨staged, hproceeds, hfollows⟩ :=
      background.staged.exists_proceeds_finish node cycle underWay
    rw [← hstaged] at hproceeds
    exact h.follow hphase hwaiting (Proceeds.staged hproceeds).reaches (htrigger ▸ hfollows)

/-- Something happens to the node, and cycles are as they were. -/
theorem Shows.around (h : background.Shows loop node) (event : Staged.Event) {staged : Staged}
    (hasked : event.asked = []) (hstep : background.staged.step? event = some staged)
    (hrunning : staged.running = background.staged.running)
    (hwaiting : staged.waiting = background.staged.waiting) : background.Attains loop staged.node := by
  have hstep' := step?_around (hasked ▸ List.not_mem_nil) hstep
  exact ⟨_, .step hstep' (.refl _), ⟨rfl, h.due, h.activity.congr hrunning hwaiting⟩, rfl⟩

theorem Shows.wait (h : background.Shows loop node) (moment : Nat) :
    background.Attains loop (node.wait moment) := by
  rw [← h.node]
  exact h.around (.wait moment) rfl rfl rfl rfl

/-- A tick fires. -/
theorem Shows.tick (h : background.Shows loop node) (hactivity : loop.activity = .idle)
    (hdue : loop.due ≤ node.now) :
    background.Attains (loop.fire node.timing.interval node.now) node := by
  obtain ⟨hphase, hfree, hwaiting⟩ := h.selecting hactivity
  have hready : background.due ≤ background.staged.node.now := by
    rw [h.due, h.node]
    exact hdue
  have hstep : background.step? .tick = some background.fire := if_pos ⟨hphase, hready⟩
  refine ⟨background.fire, .step hstep (.refl _), ⟨h.node, ?_, .queued hfree ?_⟩, rfl⟩
  · rw [fire, Loop.fire, h.due, h.node]
  · rw [fire, hwaiting]
    rfl

/-! ## Loops that are not told to stop -/

/-- Whether neither loop has been told to stop. -/
structure Unstopped (background : Background) (loop : Loop) : Prop where
  /-- The loop in virtual time goes on. -/
  going : loop.stopping = false
  /-- Nothing but what does not say stop was sent last. -/
  quiet : background.channel.stop = false
  /-- The channel is open. -/
  unclosed : background.channel.closed = false
  /-- An idle loop has looked at what was sent. -/
  calm : loop.activity = .idle → background.channel.changed = false

/-- Whether the loop among other tasks can get to where the loop in virtual time and a node are, and
neither is told to stop. -/
def Keeps (background : Background) (loop : Loop) (node : Node) : Prop :=
  ∃ background', background.Reaches background' ∧ background'.Shows loop node ∧
    background'.Unstopped loop

/-- A loop that has become idle looks at what was sent meanwhile. -/
theorem Shows.keeps (h : background.Shows loop node) (hgoing : loop.stopping = false)
    (hquiet : background.channel.stop = false) (hunclosed : background.channel.closed = false) :
    background.Keeps loop node := by
  by_cases hidle : loop.activity = .idle
  · obtain ⟨hphase, -⟩ := h.selecting hidle
    obtain ⟨calm, hreaches, hstaged, hdue, hphase', hchannel⟩ := exists_reaches_calm hphase hquiet
    refine ⟨calm, hreaches, ⟨?_, ?_, ?_⟩, ⟨hgoing, ?_, ?_, fun _ => ?_⟩⟩
    · rw [hstaged, h.node]
    · rw [hdue, h.due]
    · rw [hstaged, hphase']
      exact h.activity
    · rw [hchannel, ← hquiet]
    · rw [hchannel, ← hunclosed]
    · rw [hchannel]
  · exact ⟨background, .refl background, h, hgoing, hquiet, hunclosed, fun hidle' => absurd hidle' hidle⟩

theorem Unstopped.keeps (hun : background.Unstopped loop) (h : background.Attains loop' node')
    (hgoing : loop'.stopping = loop.stopping) : background.Keeps loop' node' := by
  obtain ⟨between, hreaches, hshows, hchannel⟩ := h
  obtain ⟨background', hreaches', hkept⟩ := hshows.keeps (hgoing.trans hun.going)
    (hchannel ▸ hun.quiet) (hchannel ▸ hun.unclosed)
  exact ⟨background', hreaches.trans hreaches', hkept⟩

theorem Keeps.trans (h : background.Keeps loop node)
    (hnext : ∀ {between : Background}, between.Shows loop node → between.Unstopped loop →
      between.Keeps loop' node') : background.Keeps loop' node' := by
  obtain ⟨between, hreaches, hshows, hun⟩ := h
  obtain ⟨background', hreaches', hkept⟩ := hnext hshows hun
  exact ⟨background', hreaches.trans hreaches', hkept⟩

/-- The loop runs until a moment. The induction is that of its own running. -/
theorem Shows.settle (h : background.Shows loop node) (hun : background.Unstopped loop) (moment : Nat) :
    background.Keeps (loop.settle moment node).1 (loop.settle moment node).2 := by
  induction loop, node using Loop.settle.induct moment generalizing background with
  | case1 loop node hactivity fired =>
    rename_i hnext
    rw [Loop.settle_of_idle hactivity hnext]
    exact ⟨background, .refl background, h, hun⟩
  | case2 loop node hactivity fired hnext =>
    rename_i ih
    rw [Loop.settle_of_tick hactivity hnext]
    refine (hun.keeps (h.wait fired) rfl).trans fun hwaited hun' => ?_
    have hnow : (node.wait fired).now = fired := Nat.max_eq_right (Nat.le_max_right _ _)
    have hdue : loop.due ≤ (node.wait fired).now := hnow.symm ▸ Nat.le_max_left _ _
    have hticked := hwaited.tick hactivity hdue
    rw [hnow] at hticked
    exact (hun'.keeps hticked rfl).trans ih
  | case3 loop node hactivity hnext =>
    rw [Loop.settle_of_late hactivity hnext]
    exact ⟨background, .refl background, h, hun⟩
  | case4 loop node hactivity hnext result node' hopen ih =>
    rw [Loop.settle_of_ended hactivity hnext hopen]
    have hopened := h.openCycle hactivity
    rw [hopen] at hopened
    exact (hun.keeps hopened rfl).trans ih
  | case5 loop node hactivity hnext underWay node' hopen ih =>
    rw [Loop.settle_of_underWay hactivity hnext hopen]
    have hopened := h.openCycle hactivity
    rw [hopen] at hopened
    exact (hun.keeps hopened rfl).trans ih
  | case6 loop node underWay hactivity result node' hpursue ih =>
    rw [Loop.settle_of_pursued hactivity hpursue]
    have hpursued := h.pursue hactivity moment
    rw [hpursue] at hpursued
    exact (hun.keeps hpursued rfl).trans ih
  | case7 loop node underWay hactivity underWay' node' hpursue =>
    rw [Loop.settle_of_lasting hactivity hpursue]
    have hpursued := h.pursue hactivity moment
    rw [hpursue] at hpursued
    exact hun.keeps hpursued rfl

/-! ## Forced cycles -/

/-- By whom and how a cycle is forced beside the loop. -/
def forcedTrigger : Trigger := ⟨1, true⟩

/-- Another task forces a cycle, which gets its turn. -/
def forcing (staged : Staged) : Staged :=
  ({ staged with waiting := staged.waiting ++ [forcedTrigger] } : Staged).takeTurn forcedTrigger

theorem reaches_forcing (hfree : background.staged.running = none) {staged : Staged}
    (hproceeds : (forcing background.staged).Proceeds staged) :
    background.Reaches { background with staged := staged } := by
  let asked : Staged :=
    { background.staged with waiting := background.staged.waiting ++ [forcedTrigger] }
  have hother : loopTrigger ∉ (Staged.Event.ask forcedTrigger).asked := by decide
  have hask : background.step? (.around (.ask forcedTrigger)) =
      some { background with staged := asked } := step?_around hother rfl
  have hturn : ({ background with staged := asked } : Background).Proceeds
      { background with staged := forcing background.staged } :=
    .takeTurn hfree (List.mem_append_right _ (List.mem_singleton_self _))
  exact .step hask (hturn.trans (.staged hproceeds)).reaches

/-- A cycle is forced, and no tick comes meanwhile. -/
theorem Shows.runForced (h : background.Shows loop node) (hactivity : loop.activity = .idle) :
    background.Attains loop (node.runCycle true).2 := by
  obtain ⟨hphase, hfree, hwaiting⟩ := h.selecting hactivity
  let asked : Staged :=
    { background.staged with waiting := background.staged.waiting ++ [forcedTrigger] }
  obtain ⟨staged, hproceeds, hfollows⟩ := asked.exists_proceeds_runCycle forcedTrigger
  obtain ⟨finished, -, -, rfl⟩ := hfollows.eq_after
  refine ⟨_, reaches_forcing hfree hproceeds, ⟨?_, h.due, ?_⟩, rfl⟩
  · rw [← h.node]
    rfl
  · rw [hactivity, hphase]
    refine .idle rfl ?_
    rw [Staged.after]
    unfold asked
    rw [hwaiting]
    rfl

/-- A cycle is forced, and goes on until a moment at which a call of it is under way. -/
theorem Shows.exists_reaches_forcing (h : background.Shows loop node) (hactivity : loop.activity = .idle)
    {moment : Nat} {opened between : Node} {underWay underWay' : Node.UnderWay}
    (hopen : node.openCycle true = (.underWay underWay, opened))
    (hpursue : opened.pursue moment underWay = (.underWay underWay', between)) :
    ∃ (rest : Staged) (cycle : Cycle), rest.waiting = [] ∧
      background.Reaches { background with staged := rest.during between cycle underWay' } := by
  obtain ⟨-, hfree, hwaiting⟩ := h.selecting hactivity
  let asked : Staged :=
    { background.staged with waiting := background.staged.waiting ++ [forcedTrigger] }
  let rest : Staged := { asked with waiting := asked.waiting.erase forcedTrigger }
  have hnobody : rest.waiting = [] := by
    unfold rest asked
    rw [hwaiting]
    rfl
  obtain ⟨staged, hproceeds, hfollows⟩ := asked.exists_proceeds_openCycle forcedTrigger
  have hnode : asked.node = node := h.node
  rw [hnode, show forcedTrigger.forced = true from rfl, hopen] at hfollows
  cases hfollows with | underWay cycle _ =>
  obtain ⟨staged, hproceeds', hfollows'⟩ := rest.exists_proceeds_pursue opened moment cycle underWay
  rw [hpursue] at hfollows'
  cases hfollows' with | underWay cycle' _ =>
  exact ⟨rest, cycle', hnobody, reaches_forcing hfree (hproceeds.trans hproceeds')⟩

/-- A cycle is forced, and a tick comes while a call of this cycle is under way. -/
theorem Shows.runForced_ticked (h : background.Shows loop node) (hactivity : loop.activity = .idle)
    {fired : Nat} (hdue : loop.due ≤ fired) (hcome : node.now ≤ fired)
    (hlasts : fired < (node.runCycle true).2.now) :
    background.Attains (loop.fire (node.runCycle true).2.timing.interval fired)
      (node.runCycle true).2 := by
  obtain ⟨hphase, -⟩ := h.selecting hactivity
  obtain ⟨opened, between, underWay, underWay', hopen, hpursue, hnow, hfinish⟩ :=
    Node.exists_pursue hcome hlasts
  obtain ⟨rest, cycle, hnobody, hreaches⟩ := h.exists_reaches_forcing hactivity hopen hpursue
  let waited : Background := { background with staged := rest.during (between.wait fired) cycle underWay' }
  have hwait : ({ background with staged := rest.during between cycle underWay' } : Background).step?
      (.around (.wait fired)) = some waited := step?_around List.not_mem_nil rfl
  have hthen : (between.wait fired).now = fired := Nat.max_eq_right hnow
  have htick : waited.step? .tick = some waited.fire := by
    refine if_pos ⟨hphase, ?_⟩
    show background.due ≤ (between.wait fired).now
    rw [hthen, h.due]
    exact hdue
  -- the forced cycle goes on to its end, and the loop waits for its turn
  let ticked : Staged := { rest with waiting := rest.waiting ++ [loopTrigger] }
  obtain ⟨last, hproceeds, hfollows⟩ :=
    ticked.exists_proceeds_finish (between.wait fired) cycle underWay'
  obtain ⟨finished, -, -, rfl⟩ := hfollows.eq_after
  have hends : waited.fire.Proceeds { waited.fire with staged := _ } := .staged hproceeds
  have htiming : ((between.wait fired).finish underWay').2.timing = (between.wait fired).timing :=
    Node.timing_finish _ _
  rw [hfinish] at htiming
  refine ⟨_, hreaches.trans (.step hwait (.step htick hends.reaches)), ⟨?_, ?_, ?_⟩, rfl⟩
  · show ((between.wait fired).finish underWay').2 = _
    rw [hfinish]
  · show nextDue (between.wait fired).timing.interval background.due (between.wait fired).now = _
    rw [hthen, ← htiming, h.due]
    rfl
  · refine .queued rfl ?_
    show rest.waiting ++ [loopTrigger] = [loopTrigger]
    rw [hnobody]
    rfl

/-- A forced cycle comes behind the one that the loop is in, and a tick that comes meanwhile waits. -/
theorem Shows.force (h : background.Shows loop node) (hun : background.Unstopped loop) :
    background.Keeps (loop.force node).2.1 (loop.force node).2.2 := by
  let idle := (loop.complete node).1
  let start := (loop.complete node).2
  let ending := (start.runCycle true).2
  have hidle : idle.activity = .idle := loop.activity_complete node
  refine (hun.keeps h.complete (loop.stopping_complete node)).trans fun hcompleted hun' => ?_
  show Keeps _ (idle.catchUp ending.timing.interval start.now ending.now) ending
  unfold Loop.catchUp
  dsimp only
  split
  · exact hun'.keeps (hcompleted.runForced hidle) rfl
  · next hlasts =>
    rw [hun'.going, Bool.false_or, decide_eq_true_eq, Nat.not_le] at hlasts
    exact hun'.keeps (hcompleted.runForced_ticked hidle (Nat.le_max_left _ _) (Nat.le_max_right _ _)
      hlasts) rfl

/-! ## Deeds beside the loop -/

/-- Whether a deed beside the loop does not tell it to stop, and changes nothing of the node but its store
and how its calls behave. -/
inductive Ordinary {α : Type} : Deed α → Prop
  /-- The store is changed. -/
  | commit (effect : Node → α × Node) (change : Node → Database)
    (heffect : ∀ node, (effect node).2 = { node with db := change node }) : Ordinary (.change effect)
  /-- Calls for a key come to behave in a manner. -/
  | behave (effect : Node → α × Node) (key : String) (manner : Manner)
    (heffect : ∀ node, (effect node).2 = node.setManner key manner) : Ordinary (.change effect)
  /-- A cycle is forced. -/
  | force : Ordinary .force
  /-- The loop is only woken. -/
  | wake : Ordinary (.signal false)

theorem Shows.happen {α : Type} {deed : Deed α} (hordinary : Ordinary deed)
    (h : background.Shows loop node) (hun : background.Unstopped loop) :
    background.Keeps (deed.happen loop node).2.1 (deed.happen loop node).2.2 := by
  cases hordinary with
  | commit effect change heffect =>
    have hattains := h.around (.commit fun _ => change node) rfl rfl rfl rfl
    rw [h.node] at hattains
    refine hun.keeps ?_ rfl
    show background.Attains loop (effect node).2
    rw [heffect]
    exact hattains
  | behave effect key manner heffect =>
    have hattains := h.around (.behave key manner) rfl rfl rfl rfl
    rw [h.node] at hattains
    refine hun.keeps ?_ rfl
    show background.Attains loop (effect node).2
    rw [heffect]
    exact hattains
  | force => exact h.force hun
  | wake =>
    let sent : Background := { background with channel := ⟨false, true, false⟩ }
    have hsend : background.step? (.send false) = some sent := by
      rw [step?, hun.unclosed]
      rfl
    have hwoken : loop.signal false = loop := by
      rw [Loop.signal, Bool.or_false]
    have hshows : sent.Shows loop node := ⟨h.node, h.due, h.activity⟩
    obtain ⟨background', hreaches, hkept⟩ := hshows.keeps hun.going rfl rfl
    refine ⟨background', .step hsend hreaches, ?_⟩
    show background'.Shows (loop.signal false) node ∧ background'.Unstopped (loop.signal false)
    rw [hwoken]
    exact hkept

theorem Shows.playEvents {α : Type} {events : List (Sync.Event α)}
    (hordinary : ∀ event ∈ events, Ordinary event.deed) (start : Nat)
    (h : background.Shows loop node) (hun : background.Unstopped loop) :
    background.Keeps (playEvents start events loop node).2.1
      (playEvents start events loop node).2.2 := by
  induction events generalizing background loop node with
  | nil => exact ⟨background, .refl background, h, hun⟩
  | cons event events ih =>
    refine (h.settle hun (start + event.time)).trans fun hsettled hun' => ?_
    refine (hun'.keeps (hsettled.wait (start + event.time)) rfl).trans fun hwaited hun'' => ?_
    refine (hwaited.happen (hordinary event List.mem_cons_self) hun'').trans ?_
    exact ih fun other hother => hordinary other (List.mem_cons_of_mem event hother)

/-- The loop in virtual time is one that can go so among other tasks, until it is told to stop and has
returned. -/
theorem exists_reaches_runLoop {α : Type} {staged : Staged} (hfree : staged.running = none)
    (hnobody : staged.waiting = []) (duration : Nat) {events : List (Sync.Event α)}
    (hordinary : ∀ event ∈ events, Ordinary event.deed) :
    ∃ background, (start staged).Reaches background ∧ background.phase = .returned ∧
      background.staged.node = (staged.node.runLoop duration events).2 := by
  have hshows : (start staged).Shows (.initial staged.node.now) staged.node :=
    ⟨rfl, rfl, .idle hfree hnobody⟩
  have hun : (start staged).Unstopped (.initial staged.node.now) := ⟨rfl, rfl, rfl, fun _ => rfl⟩
  let moment := staged.node.now + duration
  obtain ⟨played, hplays, hplayed, hun⟩ := hshows.playEvents hordinary staged.node.now hun
  obtain ⟨settled, hsettles, hsettled, hun⟩ := hplayed.settle hun moment
  obtain ⟨waited, hwaits, hwaited, hchannel⟩ := hsettled.wait moment
  -- the loop is told to stop, completes its cycle, and returns
  let told : Background := { waited with channel := ⟨true, true, false⟩ }
  have hsend : waited.step? (.send true) = some told := by
    rw [step?, hchannel, hun.unclosed]
    rfl
  have htold : told.Shows (Loop.signal _ true) _ := ⟨hwaited.node, hwaited.due, hwaited.activity⟩
  obtain ⟨completed, hcompletes, hcompleted, hchannel⟩ := htold.complete
  obtain ⟨hphase, -⟩ := hcompleted.selecting (Loop.activity_complete _ _)
  have hstop : completed.channel.changed = true ∧ completed.channel.stop = true := by
    rw [hchannel]
    exact ⟨rfl, rfl⟩
  obtain ⟨returned, hleaves, hreturned, hstaged, -⟩ := leaves_of_selecting hphase (.inr hstop)
  have hreaches := (hplays.trans hsettles).trans (hwaits.trans (.step hsend hcompletes))
  refine ⟨returned, hreaches.trans hleaves, hreturned, ?_⟩
  rw [hstaged, hcompleted.node]
  rfl

end Background

end Sync

end ControlPlane
