import ControlPlane.Proofs.Store.Intact
import ControlPlane.Proofs.Sync.Stages
import ControlPlane.Service.Operation
import Mathlib.Data.List.Chain

/-!
# Cycles and how the cluster was deployed

A cycle that sees that the node manages its configuration itself makes no call and learns nothing, so
what is known outlasts any number of such cycles, and the first cycle that lists gates again makes up
for all that has changed in between. Its calls come from one store, the one that it saw when it listed
the gates, whatever is committed before and after.

Of each cycle it is told where its looks and calls come from (`Cycle.Traced`), of a running one how far
it has come (`Cycle.At`), and of one that has ended what it came to (`Finished.Settled`).
-/

namespace ControlPlane

namespace Sync

open LocalConfig

/-! ## Looks -/

/-- Whether a look saw a store that was committed after others, and found nothing else there than what
is read of it. -/
def Look.Sees {α : Type} (look : Look α) (read : Database → Except ClusterError α) (begun : Nat)
    (stores : List Database) : Prop :=
  begun ≤ look.commits ∧ ∃ db, stores[look.commits]? = some db ∧
    ∀ value, look.found = .ok value → read db = .ok value

theorem Look.Sees.append {α : Type} {look : Look α} {read : Database → Except ClusterError α}
    {begun : Nat} {stores : List Database} (h : look.Sees read begun stores) (more : List Database) :
    look.Sees read begun (stores ++ more) := by
  obtain ⟨hbegun, db, hdb, hread⟩ := h
  obtain ⟨hlength, -⟩ := List.getElem?_eq_some_iff.mp hdb
  refine ⟨hbegun, db, ?_, hread⟩
  rw [List.getElem?_append_left hlength, hdb]

theorem isSelfManaged_iff {found : Except ClusterError String} :
    isSelfManaged found = true ↔ found = .ok ClusterConfig.selfManaged := by
  cases found <;> simp [isSelfManaged]

/-! ## What is told of a cycle -/

namespace Cycle

/-- Whether a cycle saw that the cluster was deployed in a way. -/
def Reads (cycle : Cycle) (mode : String) : Prop := ∃ look, cycle.mode = some look ∧ look.found = .ok mode

/-- Whether a cycle saw gates. -/
def Lists (cycle : Cycle) (gates : List Gate) : Prop :=
  ∃ look, cycle.gates = some look ∧ look.found = .ok gates

/-- The calls that bring what a cycle knew when its turn came in line with gates. -/
def wants (cycle : Cycle) (gates : List Gate) : List Call :=
  (Patch.between cycle.start.known (.ofGates gates)).calls

/-- What is remembered while a cycle has its turn. -/
def opening (cycle : Cycle) : Memory :=
  if cycle.trigger.forced then cycle.start.forced else cycle.start

theorem known_opening (cycle : Cycle) : cycle.opening.known = cycle.start.known := by
  unfold opening
  split <;> rfl

/-- Where the looks and the calls of a cycle come from. -/
structure Traced (view : ClusterView) (stores : List Database) (cycle : Cycle) : Prop where
  /-- It saw how the cluster was deployed in a store of its time. -/
  mode : ∀ look, cycle.mode = some look → look.Sees view.mode cycle.begun stores
  /-- It saw the gates in a store of its time. -/
  gates : ∀ look, cycle.gates = some look → look.Sees view.listGates cycle.begun stores
  /-- It looked at the gates only after it had not been told to leave the node alone. -/
  managed : cycle.gates ≠ none → ∃ look, cycle.mode = some look ∧
    look.found ≠ .ok ClusterConfig.selfManaged
  /-- It made calls only for the gates that it saw before the first of them. -/
  drawn : ∀ firstCall, cycle.firstCall = some firstCall → ∃ look gates, cycle.gates = some look ∧
    look.found = .ok gates ∧ look.commits ≤ firstCall ∧ cycle.calls <+: cycle.wants gates
  /-- It made no call before the first one. -/
  silent : cycle.firstCall = none → cycle.calls = []

theorem Traced.append {view : ClusterView} {stores : List Database} {cycle : Cycle}
    (h : cycle.Traced view stores) (more : List Database) : cycle.Traced view (stores ++ more) where
  mode look hlook := (h.mode look hlook).append more
  gates look hlook := (h.gates look hlook).append more
  managed := h.managed
  drawn := h.drawn
  silent := h.silent

/-- A cycle that looked at the gates was not told to leave the node alone. -/
theorem Traced.not_reads {view : ClusterView} {stores : List Database} {cycle : Cycle}
    (h : cycle.Traced view stores) (hgates : cycle.gates ≠ none) :
    ¬ cycle.Reads ClusterConfig.selfManaged := by
  rintro ⟨look, hlook, hfound⟩
  obtain ⟨look', hlook', hother⟩ := h.managed hgates
  rw [hlook] at hlook'
  cases hlook'
  exact hother hfound

/-- A cycle that made calls had seen gates before, and made them for these. -/
theorem Traced.drawn_of_calls {view : ClusterView} {stores : List Database} {cycle : Cycle}
    (h : cycle.Traced view stores) (hcalls : cycle.calls ≠ []) :
    ∃ firstCall look gates, cycle.firstCall = some firstCall ∧ cycle.gates = some look ∧
      look.found = .ok gates ∧ look.commits ≤ firstCall ∧ cycle.calls <+: cycle.wants gates := by
  cases hfirst : cycle.firstCall with
  | none => exact absurd (h.silent hfirst) hcalls
  | some firstCall =>
    obtain ⟨look, gates, hgates, hfound, hbefore, hprefix⟩ := h.drawn firstCall hfirst
    exact ⟨firstCall, look, gates, rfl, hgates, hfound, hbefore, hprefix⟩

/-- How far a cycle has come by a stage. -/
inductive At (cycle : Cycle) : Stage → Prop
  /-- It has not looked at anything. -/
  | opened (hmode : cycle.mode = none) (hgates : cycle.gates = none) (hcall : cycle.firstCall = none) :
    At cycle .opened
  /-- It has been told to go on. -/
  | managed (look : Look String) (hmode : cycle.mode = some look)
    (hfound : look.found ≠ .ok ClusterConfig.selfManaged) (hgates : cycle.gates = none)
    (hcall : cycle.firstCall = none) : At cycle .managed
  /-- It has made some of the calls that the gates ask for, and has others to make. -/
  | ready (applying : Applying) (look : Look (List Gate)) (gates : List Gate)
    (hgates : cycle.gates = some look) (hfound : look.found = .ok gates)
    (hcalls : cycle.calls ++ applying.call :: applying.waiting = cycle.wants gates) :
    At cycle (.ready applying)
  /-- It has made some of the calls that the gates ask for, and the others wait. -/
  | calling (underWay : Node.UnderWay) (look : Look (List Gate)) (gates : List Gate)
    (hgates : cycle.gates = some look) (hfound : look.found = .ok gates)
    (hcalls : cycle.calls ++ underWay.applying.waiting = cycle.wants gates) :
    At cycle (.calling underWay)

end Cycle

/-- What a cycle comes to. -/
structure Finished.Settled (finished : Finished) : Prop where
  /-- One that is told to leave the node alone does so. -/
  unmanaged : finished.Reads ClusterConfig.selfManaged →
    finished.result = .ok .unmanaged ∧ finished.gates = none
  /-- One that saw no gates made no call and learnt nothing. -/
  idle : (∀ gates, ¬ finished.Lists gates) →
    finished.calls = [] ∧ finished.finish = finished.opening
  /-- One that saw gates made all the calls that they ask for. -/
  listed : ∀ gates, finished.Lists gates → finished.calls = finished.wants gates

namespace Finished.Settled

variable {finished : Finished}

/-- A cycle that saw no gates learnt nothing. -/
theorem known_unchanged (h : finished.Settled) (hlists : ∀ gates, ¬ finished.Lists gates) :
    finished.finish.known = finished.start.known := by
  obtain ⟨-, hfinish⟩ := h.idle hlists
  rw [hfinish, Cycle.known_opening]

/-- A cycle that is told to leave the node alone sees no gates. -/
theorem not_lists (h : finished.Settled) (hreads : finished.Reads ClusterConfig.selfManaged)
    (gates : List Gate) : ¬ finished.Lists gates := by
  rintro ⟨look, hlook, -⟩
  rw [(h.unmanaged hreads).2] at hlook
  cases hlook

end Finished.Settled

namespace Staged

variable {view : ClusterView} {staged : Staged}

theorem stores_present (staged : Staged) :
    staged.stores[staged.earlier.length]? = some staged.node.db := by
  simp [stores]

theorem look_sees {α : Type} (staged : Staged) (read : Database → Except ClusterError α)
    (failure : Option ClusterError) {begun : Nat} (h : begun ≤ staged.earlier.length) :
    (staged.look read failure).Sees read begun staged.stores := by
  refine ⟨h, staged.node.db, staged.stores_present, ?_⟩
  intro value hfound
  cases failure with
  | none => exact hfound
  | some e => cases hfound

theorem mem_cycles {running : Running} (h : staged.running = some running) :
    running.toCycle ∈ staged.cycles := by
  simp [cycles, h]

/-! ## What holds at all times -/

/-- What holds of a synchronizer whose cycles go by stages, apart from the stage of the running one. -/
structure Gated (view : ClusterView) (staged : Staged) : Prop where
  /-- The cluster is seen in the same way all along. -/
  same : staged.node.view = view
  /-- All cycles are traced. -/
  traced : ∀ cycle ∈ staged.cycles, cycle.Traced view staged.stores
  /-- The cycles that have ended are settled. -/
  settled : ∀ finished ∈ staged.past, finished.Settled
  /-- The running cycle has begun, and its memory is the one of the node. -/
  current : ∀ running, staged.running = some running →
    running.begun ≤ staged.earlier.length ∧ staged.node.memory = running.opening
  /-- A cycle begins with what was known after the one before it. -/
  kept : staged.past.IsChain fun cycle next => next.start.known = cycle.finish.known
  /-- What is known is what was known after the last cycle. -/
  latest : ∀ last ∈ staged.past.getLast?, staged.node.memory.known = last.finish.known
  /-- All calls are calls of cycles. -/
  calls : staged.node.calls.map TimedCall.call = staged.cycles.flatMap (·.calls)

namespace Gated

theorem start (timing : Timing) (view : ClusterView) (db : Database) :
    (initial timing view db).Gated view where
  same := rfl
  traced := fun _ hcycle => nomatch hcycle
  settled := fun _ hfinished => nomatch hfinished
  current := fun _ hrunning => nomatch hrunning
  kept := .nil
  latest := fun _ hlast => nomatch hlast
  calls := rfl

/-- Nothing of this depends on the time and on how calls behave. -/
theorem of_node (h : staged.Gated view) {node : Node} (hview : node.view = staged.node.view)
    (hdb : node.db = staged.node.db) (hmemory : node.memory = staged.node.memory)
    (hcalls : node.calls = staged.node.calls) : ({ staged with node := node } : Staged).Gated view where
  same := hview.trans h.same
  traced := by
    intro cycle hcycle
    have htraced := h.traced cycle hcycle
    rw [stores, ← hdb] at htraced
    exact htraced
  settled := h.settled
  current := by
    intro running hrunning
    rw [hmemory]
    exact h.current running hrunning
  kept := h.kept
  latest := by
    intro last hlast
    rw [hmemory]
    exact h.latest last hlast
  calls := by
    rw [hcalls]
    exact h.calls

theorem commit (h : staged.Gated view) (db : Database) :
    ({ staged with
      node := { staged.node with db := db }
      earlier := staged.earlier ++ [staged.node.db] } : Staged).Gated view where
  same := h.same
  traced := fun cycle hcycle => (h.traced cycle hcycle).append [db]
  settled := h.settled
  current := by
    intro running hrunning
    obtain ⟨hbegun, hmemory⟩ := h.current running hrunning
    refine ⟨?_, hmemory⟩
    rw [List.length_append]
    exact Nat.le_add_right_of_le hbegun
  kept := h.kept
  latest := h.latest
  calls := h.calls

/-- A cycle gets its turn. -/
theorem turn (h : staged.Gated view) (hfree : staged.running = none) (trigger : Trigger)
    (waiting : List Trigger) :
    ({ staged with
      node := { staged.node with memory := staged.node.opening trigger.forced }
      waiting := waiting
      running := some ⟨⟨trigger, staged.node.memory, staged.earlier.length, none, none, none, []⟩,
        .opened⟩ } : Staged).Gated view where
  same := h.same
  traced := by
    intro cycle hcycle
    rcases List.mem_append.mp hcycle with hpast | hcurrent
    · refine h.traced cycle ?_
      rw [cycles, hfree]
      exact List.mem_append_left _ hpast
    · rw [Option.toList_some, List.map_singleton, List.mem_singleton] at hcurrent
      subst hcurrent
      exact ⟨(fun _ hlook => nomatch hlook), (fun _ hlook => nomatch hlook),
        (fun hlook => absurd rfl hlook), (fun _ hcall => nomatch hcall), fun _ => rfl⟩
  settled := h.settled
  current := by
    rintro running ⟨⟩
    exact ⟨Nat.le_refl _, rfl⟩
  kept := h.kept
  latest := by
    intro last hlast
    rw [Node.known_opening]
    exact h.latest last hlast
  calls := by
    rw [h.calls, cycles, hfree]
    simp [cycles]

/-- The running cycle goes on, with the calls that it makes. -/
theorem goesOn (h : staged.Gated view) {cycle cycle' : Cycle} {stage stage' : Stage} {node : Node}
    {made : List TimedCall} (hrunning : staged.running = some ⟨cycle, stage⟩)
    (hbegun : cycle'.begun = cycle.begun) (hopening : cycle'.opening = cycle.opening)
    (hcalls : cycle'.calls = cycle.calls ++ made.map TimedCall.call)
    (hnode : node = { staged.node with calls := staged.node.calls ++ made })
    (htraced : cycle'.Traced view staged.stores) :
    ({ staged with node := node, running := some ⟨cycle', stage'⟩ } : Staged).Gated view where
  same := by
    rw [hnode]
    exact h.same
  traced := by
    rw [stores, hnode]
    intro other hother
    rcases List.mem_append.mp hother with hpast | hcurrent
    · exact h.traced other (List.mem_append_left _ hpast)
    · rw [Option.toList_some, List.map_singleton, List.mem_singleton] at hcurrent
      subst hcurrent
      exact htraced
  settled := h.settled
  current := by
    rintro running ⟨⟩
    rw [hnode, hbegun, hopening]
    exact h.current _ hrunning
  kept := h.kept
  latest := by
    rw [hnode]
    exact h.latest
  calls := by
    have hbefore := h.calls
    rw [cycles, hrunning] at hbefore
    simp [cycles, hnode, hcalls, hbefore]

/-- The running cycle looks at something. -/
theorem looks (h : staged.Gated view) {cycle cycle' : Cycle} {stage stage' : Stage}
    (hrunning : staged.running = some ⟨cycle, stage⟩) (hbegun : cycle'.begun = cycle.begun)
    (hopening : cycle'.opening = cycle.opening) (hcalls : cycle'.calls = cycle.calls)
    (htraced : cycle'.Traced view staged.stores) :
    ({ staged with running := some ⟨cycle', stage'⟩ } : Staged).Gated view := by
  have hnone : cycle'.calls = cycle.calls ++ ([] : List TimedCall).map TimedCall.call := by
    rw [hcalls, List.map_nil, List.append_nil]
  refine h.goesOn hrunning hbegun hopening hnone ?_ htraced
  rw [List.append_nil]

/-- The running cycle ends. -/
theorem ends (h : staged.Gated view) {cycle : Cycle} {stage : Stage} {result : Result} {memory : Memory}
    (hrunning : staged.running = some ⟨cycle, stage⟩)
    (hsettled : Finished.Settled ⟨cycle, result, memory⟩) :
    (staged.pass cycle (.ends result memory)).Gated view := by
  have hcycles : (staged.pass cycle (.ends result memory)).cycles = staged.cycles := by
    simp [pass, cycles, hrunning]
  obtain ⟨-, hopening⟩ := h.current _ hrunning
  have hknown : staged.node.memory.known = cycle.start.known := by
    rw [hopening]
    exact cycle.known_opening
  refine ⟨h.same, ?_, ?_, (fun _ hnone => nomatch hnone), ?_, ?_, ?_⟩
  · rw [hcycles]
    exact h.traced
  · intro finished hfinished
    rcases List.mem_append.mp hfinished with hpast | hlast
    · exact h.settled finished hpast
    · rw [List.mem_singleton] at hlast
      subst hlast
      exact hsettled
  · refine List.isChain_append.mpr ⟨h.kept, .singleton _, ?_⟩
    rintro last hlast next ⟨⟩
    rw [← h.latest last hlast]
    exact hknown.symm
  · intro last hlast
    simp only [pass, List.getLast?_concat, Option.mem_def, Option.some.injEq] at hlast
    subst hlast
    rfl
  · rw [hcycles]
    exact h.calls

end Gated

/-- What holds of a synchronizer whose cycles go by stages. -/
structure Sound (view : ClusterView) (staged : Staged) : Prop extends staged.Gated view where
  /-- The running cycle has come as far as its stage. -/
  stage : ∀ running, staged.running = some running → running.At running.stage

namespace Sound

theorem start (timing : Timing) (view : ClusterView) (db : Database) :
    (initial timing view db).Sound view :=
  ⟨.start timing view db, fun _ hnone => nomatch hnone⟩

theorem ended {cycle : Cycle} {stage : Stage} {result : Result} {memory : Memory}
    (h : staged.Gated view) (hrunning : staged.running = some ⟨cycle, stage⟩)
    (hsettled : Finished.Settled ⟨cycle, result, memory⟩) :
    (staged.pass cycle (.ends result memory)).Sound view :=
  ⟨h.ends hrunning hsettled, fun _ hnone => nomatch hnone⟩

theorem takeTurn (h : staged.Sound view) (hfree : staged.running = none) (trigger : Trigger) :
    (staged.takeTurn trigger).Sound view := by
  let memory := staged.node.opening trigger.forced
  let cycle : Cycle := ⟨trigger, staged.node.memory, staged.earlier.length, none, none, none, []⟩
  -- a cycle that is debounced ends like any other, so it is opened first in both cases
  let opened : Staged := { staged with
    node := { staged.node with memory := memory }
    waiting := staged.waiting.erase trigger
    running := some ⟨cycle, .opened⟩ }
  have hopened : opened.Gated view := h.turn hfree trigger _
  by_cases hrecent : memory.isRecent staged.node.timing staged.node.now
  · have htake : staged.takeTurn trigger = opened.pass cycle (.ends (.ok .debounced) memory) :=
      if_pos hrecent
    rw [htake]
    refine Sound.ended hopened rfl ⟨?_, fun _ => ⟨rfl, rfl⟩, ?_⟩
    · rintro ⟨look, hlook, -⟩
      cases hlook
    · rintro gates ⟨look, hlook, -⟩
      cases hlook
  · have htake : staged.takeTurn trigger = opened := if_neg hrecent
    rw [htake]
    refine ⟨hopened, ?_⟩
    rintro running ⟨⟩
    exact .opened rfl rfl rfl

theorem sawMode (h : staged.Sound view) {cycle : Cycle}
    (hrunning : staged.running = some ⟨cycle, .opened⟩) {look : Look String}
    (hlook : look.Sees view.mode cycle.begun staged.stores) :
    (staged.sawMode cycle look).Sound view := by
  cases h.stage _ hrunning with | opened hmode hgates hcall =>
  have htraced := h.traced cycle (mem_cycles hrunning)
  let told : Cycle := { cycle with mode := some look }
  let noted : Staged := { staged with running := some ⟨told, .managed⟩ }
  have hsilent : told.calls = [] := htraced.silent hcall
  have hlists {gates : List Gate} : ¬ told.Lists gates := by
    rintro ⟨look', hlook', -⟩
    rw [hgates] at hlook'
    cases hlook'
  have htold : told.Traced view staged.stores := by
    refine ⟨?_, htraced.gates, fun hsome => absurd hgates hsome, ?_, fun _ => hsilent⟩
    · rintro look' ⟨⟩
      exact hlook
    · intro firstCall hfirst
      rw [hcall] at hfirst
      cases hfirst
  have hnoted : noted.Gated view :=
    h.looks hrunning rfl rfl rfl htold
  by_cases hself : isSelfManaged look.found
  · have hsaw : staged.sawMode cycle look =
        noted.pass told (.ends (.ok .unmanaged) staged.node.memory) := if_pos hself
    rw [hsaw]
    refine Sound.ended hnoted rfl ⟨fun _ => ⟨rfl, hgates⟩, fun _ => ⟨hsilent, ?_⟩, ?_⟩
    · exact (h.current _ hrunning).2
    · intro gates hgates'
      exact absurd hgates' hlists
  · have hsaw : staged.sawMode cycle look = noted := if_neg hself
    rw [hsaw]
    refine ⟨hnoted, ?_⟩
    rintro running ⟨⟩
    exact .managed look rfl (fun hfound => hself (isSelfManaged_iff.mpr hfound)) hgates hcall

theorem sawGates (h : staged.Sound view) {cycle : Cycle}
    (hrunning : staged.running = some ⟨cycle, .managed⟩) {look : Look (List Gate)}
    (hlook : look.Sees view.listGates cycle.begun staged.stores) :
    (staged.sawGates cycle look).Sound view := by
  cases h.stage _ hrunning with | managed seen hmode hfound hgates hcall =>
  have htraced := h.traced cycle (mem_cycles hrunning)
  let told : Cycle := { cycle with gates := some look }
  have hsilent : told.calls = [] := htraced.silent hcall
  have htold : told.Traced view staged.stores := by
    refine ⟨htraced.mode, ?_, fun _ => ⟨seen, hmode, hfound⟩, ?_, fun _ => hsilent⟩
    · rintro look' ⟨⟩
      exact hlook
    · intro firstCall hfirst
      rw [hcall] at hfirst
      cases hfirst
  have hnoted {stage : Stage} : ({ staged with running := some ⟨told, stage⟩ } : Staged).Gated view :=
    h.looks hrunning rfl rfl rfl htold
  have hopening : staged.node.memory = told.opening := (h.current _ hrunning).2
  have hreads : ¬ told.Reads ClusterConfig.selfManaged := htold.not_reads (Option.some_ne_none look)
  have hwants (gates : List Gate) :
      (Patch.between staged.node.memory.known (.ofGates gates)).calls = told.wants gates := by
    rw [hopening, told.known_opening]
    rfl
  have hsaw : staged.sawGates cycle look =
      ({ staged with running := some ⟨told, .managed⟩ } : Staged).pass told
        (staged.node.memory.gatesListed look.found) := rfl
  rw [hsaw]
  unfold Memory.gatesListed
  cases hfinds : look.found with
  | error e =>
    have hlists (gates : List Gate) : ¬ told.Lists gates := by
      rintro ⟨look', hlook', hfound'⟩
      cases hlook'
      rw [hfinds] at hfound'
      cases hfound'
    refine Sound.ended hnoted rfl ⟨fun hread => absurd hread hreads, fun _ => ⟨hsilent, hopening⟩, ?_⟩
    intro gates hgates'
    exact absurd hgates' (hlists gates)
  | ok gates =>
    dsimp only
    rw [hwants]
    cases hcalls : told.wants gates with
    | nil =>
      refine Sound.ended hnoted rfl ⟨fun hread => absurd hread hreads, ?_, ?_⟩
      · intro hnone
        exact absurd ⟨look, rfl, hfinds⟩ (hnone gates)
      · rintro gates' ⟨look', hlook', hfound'⟩
        cases hlook'
        rw [hfinds] at hfound'
        cases hfound'
        exact hsilent.trans hcalls.symm
    | cons call waiting =>
      refine ⟨hnoted, ?_⟩
      rintro running ⟨⟩
      refine .ready _ look gates rfl hfinds ?_
      rw [hcalls]
      exact congrArg (· ++ call :: waiting) hsilent

theorem call (h : staged.Sound view) {cycle : Cycle} {applying : Applying}
    (hrunning : staged.running = some ⟨cycle, .ready applying⟩) :
    (staged.call cycle applying).Sound view := by
  cases h.stage _ hrunning with | ready _ look gates hgates hfound hcalls =>
  have htraced := h.traced cycle (mem_cycles hrunning)
  have hseen : look.commits ≤ staged.earlier.length := by
    obtain ⟨-, db, hdb, -⟩ := htraced.gates look hgates
    obtain ⟨hlength, -⟩ := List.getElem?_eq_some_iff.mp hdb
    rw [stores, List.length_append] at hlength
    exact Nat.lt_succ_iff.mp hlength
  -- only the first call fixes the moment that the look has to precede
  have hfirst : look.commits ≤ cycle.firstCall.getD staged.earlier.length := by
    cases hcall : cycle.firstCall with
    | none => exact hseen
    | some firstCall =>
      obtain ⟨look', _, hgates', -, hbefore, -⟩ := htraced.drawn firstCall hcall
      rw [hgates] at hgates'
      cases hgates'
      exact hbefore
  have hnoted : (cycle.note staged.earlier.length applying.call).Traced view staged.stores := by
    refine ⟨htraced.mode, htraced.gates, htraced.managed, ?_, fun hnone => nomatch hnone⟩
    rintro firstCall ⟨⟩
    refine ⟨look, gates, hgates, hfound, hfirst, applying.waiting, ?_⟩
    rw [Cycle.note, List.append_assoc]
    exact hcalls
  have hcalled : (cycle.note staged.earlier.length applying.call).calls =
      cycle.calls ++ [⟨staged.node.now, applying.call⟩].map TimedCall.call := rfl
  refine ⟨h.goesOn hrunning rfl rfl hcalled rfl hnoted, ?_⟩
  rintro running ⟨⟩
  refine .calling _ look gates hgates hfound ?_
  rw [Cycle.note, List.append_assoc]
  exact hcalls

theorem callEnded (h : staged.Sound view) {cycle : Cycle} {underWay : Node.UnderWay}
    (hrunning : staged.running = some ⟨cycle, .calling underWay⟩) :
    (staged.callEnded cycle underWay).Sound view := by
  cases h.stage _ hrunning with | calling _ look gates hgates hfound hcalls =>
  have htraced := h.traced cycle (mem_cycles hrunning)
  have hwaited : ({ staged with node := staged.node.wait underWay.ending } : Staged).Gated view :=
    h.of_node rfl rfl rfl rfl
  have hlists : cycle.Lists gates := ⟨look, hgates, hfound⟩
  have hreads : ¬ cycle.Reads ClusterConfig.selfManaged :=
    htraced.not_reads (by rw [hgates]; exact Option.some_ne_none look)
  unfold Staged.callEnded Memory.callEnded
  dsimp only
  cases hwaiting : underWay.applying.waiting with
  | nil =>
    refine Sound.ended hwaited hrunning ⟨fun hread => absurd hread hreads, ?_, ?_⟩
    · intro hnone
      exact absurd hlists (hnone gates)
    · rintro gates' ⟨look', hlook', hfound'⟩
      cases hgates.symm.trans hlook'
      cases hfound.symm.trans hfound'
      rw [← hcalls, hwaiting, List.append_nil]
  | cons next waiting =>
    refine ⟨hwaited.looks hrunning rfl rfl rfl htraced, ?_⟩
    rintro running ⟨⟩
    refine .ready _ look gates hgates hfound ?_
    rw [← hcalls, hwaiting]

/-- An event keeps all this. -/
theorem step (h : staged.Sound view) {staged' : Staged} {event : Event}
    (hstep : staged.step? event = some staged') : staged'.Sound view := by
  cases took_of_step? hstep with
  | asked trigger => exact ⟨⟨h.same, h.traced, h.settled, h.current, h.kept, h.latest, h.calls⟩, h.stage⟩
  | waited moment => exact ⟨h.of_node rfl rfl rfl rfl, h.stage⟩
  | behaved key manner => exact ⟨h.of_node rfl rfl rfl rfl, h.stage⟩
  | committed change => exact ⟨h.commit _, h.stage⟩
  | begun trigger hfree _ => exact h.takeTurn hfree trigger
  | sawMode failure cycle hrunning =>
    refine h.sawMode hrunning ?_
    rw [h.same]
    exact staged.look_sees view.mode failure (h.current _ hrunning).1
  | sawGates failure cycle hrunning =>
    refine h.sawGates hrunning ?_
    rw [h.same]
    exact staged.look_sees view.listGates failure (h.current _ hrunning).1
  | launched cycle applying hrunning => exact h.call hrunning
  | closed cycle underWay hrunning => exact h.callEnded hrunning

theorem run {events : List Event} {staged' : Staged} (h : staged.Sound view)
    (hrun : run? events staged = some staged') : staged'.Sound view :=
  run?_keeps (fun h hstep => step h hstep) h hrun

end Sound

/-! ## Every run -/

/-- What is known outlasts cycles that learn nothing. The induction is on the cycles after the first. -/
theorem known_outlasts {cycle : Finished} {after : List Finished} (period : List Finished) :
    ∀ first : Finished, (first :: (period ++ cycle :: after)).IsChain
        (fun cycle next => next.start.known = cycle.finish.known) →
      (∀ quiet ∈ first :: period, quiet.finish.known = quiet.start.known) →
      cycle.start.known = first.start.known := by
  induction period with
  | nil =>
    intro first hkept hquiet
    obtain ⟨hnext, -⟩ := List.isChain_cons_cons.mp hkept
    exact hnext.trans (hquiet first List.mem_cons_self)
  | cons next period ih =>
    intro first hkept hquiet
    obtain ⟨hnext, hrest⟩ := List.isChain_cons_cons.mp hkept
    have hcycle := ih next hrest fun quiet hmem => hquiet quiet (List.mem_cons_of_mem first hmem)
    exact hcycle.trans (hnext.trans (hquiet first List.mem_cons_self))

/-- A cycle begins with what was known before those that came right before it and saw no gates. -/
theorem Gated.known_before (h : staged.Gated view) {before : List Finished} {first : Finished}
    {period : List Finished} {cycle : Finished} {after : List Finished}
    (hsplit : staged.past = before ++ first :: (period ++ cycle :: after))
    (hquiet : ∀ quiet ∈ first :: period, ∀ gates, ¬ quiet.Lists gates) :
    cycle.start.known = first.start.known := by
  have hkept := h.kept
  rw [hsplit] at hkept
  refine known_outlasts period first hkept.right_of_append fun quiet hmem => ?_
  have hpast : quiet ∈ staged.past := by
    rw [hsplit]
    exact List.mem_append_right before (List.mem_append_left (cycle :: after) hmem)
  exact (h.settled quiet hpast).known_unchanged (hquiet quiet hmem)

/--
In every run, whatever happens between the stages of cycles:

- a cycle that sees that the node manages its configuration itself makes no call, leaves what is known
  as it is, and also when the last cycle wrote, unless it is forced;
- every call is the call of a cycle that saw otherwise, or failed to see, in a store of its time;
- if cycles that saw no gates are followed by one that does, this one calls exactly once for every key
  on which what was known before all of them differs from the gates, which are those of a store of its
  time, and gives the key what they ask for;
- the calls of a cycle are calls of the patch between what was known when its turn came and the gates of
  one store, which was committed between that moment and its first call.
-/
theorem mode_gating (timing : Timing) (view : ClusterView) (db : Database) (events : List Event)
    (staged : Staged) (hrun : run? events (initial timing view db) = some staged) :
    (∀ cycle ∈ staged.past, cycle.Reads ClusterConfig.selfManaged →
      cycle.result = .ok .unmanaged ∧ cycle.calls = [] ∧ cycle.finish.known = cycle.start.known ∧
      (cycle.trigger.forced = false → cycle.finish.lastApplied = cycle.start.lastApplied)) ∧
    (staged.node.calls.map TimedCall.call = staged.cycles.flatMap (·.calls) ∧
      ∀ cycle ∈ staged.cycles, cycle.calls ≠ [] → ∃ look, cycle.mode = some look ∧
        look.found ≠ .ok ClusterConfig.selfManaged ∧
        look.Sees view.mode cycle.begun staged.stores) ∧
    (∀ (before : List Finished) (first : Finished) (period : List Finished) (cycle : Finished)
      (after : List Finished) (gates : List Gate),
      staged.past = before ++ first :: (period ++ cycle :: after) →
      (∀ quiet ∈ first :: period, ∀ gates, ¬ quiet.Lists gates) → cycle.Lists gates →
      (cycle.calls.map Call.key).Nodup ∧
      (∀ key, key ∈ cycle.calls.map Call.key ↔
        first.start.known[key]? ≠ (Snapshot.ofGates gates)[key]?) ∧
      (∀ call ∈ cycle.calls, call = .toward (.ofGates gates) call.key) ∧
      ∃ (commits : Nat) (db : Database), cycle.begun ≤ commits ∧
        staged.stores[commits]? = some db ∧ view.listGates db = .ok gates) ∧
    ∀ cycle ∈ staged.cycles, cycle.calls ≠ [] →
      ∃ (commits firstCall : Nat) (db : Database) (gates : List Gate),
        cycle.firstCall = some firstCall ∧ cycle.begun ≤ commits ∧ commits ≤ firstCall ∧
        staged.stores[commits]? = some db ∧ view.listGates db = .ok gates ∧
        cycle.calls <+: (Patch.between cycle.start.known (.ofGates gates)).calls := by
  have hsound : staged.Sound view := (Sound.start timing view db).run hrun
  refine ⟨?_, ⟨hsound.calls, ?_⟩, ?_, ?_⟩
  · intro cycle hcycle hreads
    have hsettled := hsound.settled cycle hcycle
    have hlists := hsettled.not_lists hreads
    obtain ⟨hcalls, hfinish⟩ := hsettled.idle hlists
    refine ⟨(hsettled.unmanaged hreads).1, hcalls, hsettled.known_unchanged hlists, ?_⟩
    intro hforced
    rw [hfinish, Cycle.opening, hforced]
    rfl
  · intro cycle hcycle hcalls
    have htraced := hsound.traced cycle hcycle
    obtain ⟨-, seen, -, -, hgates, -⟩ := htraced.drawn_of_calls hcalls
    obtain ⟨look, hlook, hfound⟩ := htraced.managed (by rw [hgates]; exact Option.some_ne_none seen)
    exact ⟨look, hlook, hfound, htraced.mode look hlook⟩
  · intro before first period cycle after gates hsplit hquiet hlists
    have hcycle : cycle ∈ staged.past := by simp [hsplit]
    -- what the cycle makes up for is what the first of the quiet ones knew
    have hcalls : cycle.calls = (Patch.between first.start.known (.ofGates gates)).calls := by
      rw [(hsound.settled cycle hcycle).listed gates hlists, Cycle.wants,
        hsound.known_before hsplit hquiet]
    rw [hcalls]
    refine ⟨Patch.nodup_calls_between _ _, fun key => Patch.mem_keys_calls_between,
      fun call hcall => (Patch.mem_calls_between.mp hcall).2, ?_⟩
    have htraced := hsound.traced cycle.toCycle
      (List.mem_append_left _ (List.mem_map_of_mem hcycle))
    obtain ⟨look, hlook, hfound⟩ := hlists
    obtain ⟨hbegun, db, hdb, hread⟩ := htraced.gates look hlook
    exact ⟨look.commits, db, hbegun, hdb, hread gates hfound⟩
  · intro cycle hcycle hcalls
    have htraced := hsound.traced cycle hcycle
    obtain ⟨firstCall, look, gates, hfirst, hgates, hfound, hbefore, hprefix⟩ :=
      htraced.drawn_of_calls hcalls
    obtain ⟨hbegun, db, hdb, hread⟩ := htraced.gates look hgates
    exact ⟨look.commits, firstCall, db, gates, hfirst, hbegun, hbefore, hdb, hread gates hfound, hprefix⟩

/-- What a cycle saw: how the cluster was deployed, and the gates. -/
def seen (cycle : Cycle) : Option String × Option (List Gate) :=
  (cycle.mode.bind (·.found.toOption), cycle.gates.bind (·.found.toOption))

theorem found_of_toOption {α : Type} {look : Option (Look α)} {value : α}
    (h : look.bind (·.found.toOption) = some value) :
    ∃ seen, look = some seen ∧ seen.found = .ok value := by
  obtain ⟨seen, rfl, hseen⟩ := Option.bind_eq_some_iff.mp h
  refine ⟨seen, rfl, ?_⟩
  cases hfound : seen.found with
  | error e =>
    rw [hfound] at hseen
    cases hseen
  | ok found =>
    rw [hfound] at hseen
    cases hseen
    rfl

/-- An operation that is committed. -/
def committed (op : Operation) : Event := .commit fun db => (op.run db).2

/-- A task asks for a cycle, which gets its turn and looks how the cluster was deployed. -/
def opens (trigger : Trigger) : List Event := [.ask trigger, .begin trigger, .readMode none]

/-- The cluster is switched to nodes that manage themselves behind the back of a cycle, and back after
another one. Gates are added, switched and removed meanwhile, the last one between the look of the
third cycle and its calls. -/
def switchings : List Event :=
  [committed (.createGate "a" true)] ++ opens ⟨0, false⟩ ++
    [committed (.setConfig "deployment.type" "maas"), .listGates none,
      committed (.createGate "b" true), .launch, .close, committed (.updateGate "a" false)] ++
    opens ⟨1, true⟩ ++ [committed (.deleteConfig "deployment.type")] ++ opens ⟨0, false⟩ ++
    [.listGates none, committed (.deleteGate "b"), .launch, .close, .launch, .close]

/-- The second cycle makes no call, and the third one calls for what has changed since the first. -/
theorem mode_gating_switched :
    ∃ staged first second third,
      run? switchings (initial .standard .standard Schema.fresh) = some staged ∧
      staged.past = [first, second, third] ∧ second.result = .ok .unmanaged ∧ second.calls = [] ∧
      ∀ key, key ∈ third.calls.map Call.key ↔
        second.start.known[key]? ≠ (Snapshot.ofGates [⟨"a", false⟩, ⟨"b", true⟩])[key]? := by
  have hseen : ((run? switchings (initial .standard .standard Schema.fresh)).map fun staged =>
      staged.past.map fun cycle => seen cycle.toCycle) =
      some [(none, some [⟨"a", true⟩]), (some "maas", none),
        (none, some [⟨"a", false⟩, ⟨"b", true⟩])] := by
    decide +kernel
  obtain ⟨staged, hrun, hseen⟩ := Option.map_eq_some_iff.mp hseen
  obtain ⟨first, second, third, hpast⟩ := List.length_eq_three.mp
    ((List.length_map _).symm.trans (congrArg List.length hseen))
  simp only [hpast, List.map_cons, List.map_nil, seen, List.cons.injEq, Prod.mk.injEq] at hseen
  obtain ⟨-, ⟨hmode, hnone⟩, ⟨-, hgates⟩, -⟩ := hseen
  have hlists : ∀ quiet ∈ [second], ∀ gates, ¬ quiet.Lists gates := by
    rintro quiet hquiet gates ⟨look, hlook, hfound⟩
    rw [List.mem_singleton] at hquiet
    rw [← hquiet, hlook, Option.bind_some, hfound] at hnone
    cases hnone
  obtain ⟨hidle, -, hcalls, -⟩ := mode_gating .standard .standard Schema.fresh switchings staged hrun
  obtain ⟨hresult, hsilent, -⟩ := hidle second (by simp [hpast]) (found_of_toOption hmode)
  obtain ⟨-, hkeys, -⟩ := hcalls [first] second [] third [] _ hpast hlists (found_of_toOption hgates)
  exact ⟨staged, first, second, third, hrun, hpast, hresult, hsilent, hkeys⟩

end Staged

end Sync

end ControlPlane
