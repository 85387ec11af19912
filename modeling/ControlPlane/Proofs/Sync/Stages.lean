import ControlPlane.Proofs.Sync.Turns

/-!
# The stages of a cycle

A cycle looks at the store twice, once to see how the cluster was deployed and once for the gates, and
then makes its calls one after another. Between any two of these stages other things happen: whoever
is served changes the store, time passes, calls come to behave otherwise, more cycles are asked for.

A `Staged` synchronizer keeps every store that was committed, and notes of each cycle what it saw and
which calls it made (`Cycle`). Nothing that it does depends on what is kept and noted. `Staged.Took` says
what one event can come to.
-/

namespace ControlPlane

namespace Sync

open LocalConfig

/-- A look at the store. -/
structure Look (α : Type) where
  /-- How many stores had been committed before the one that was seen. -/
  commits : Nat
  /-- What was found. -/
  found : Except ClusterError α

/-- What is noted of a cycle. -/
structure Cycle where
  /-- Who asked for it. -/
  trigger : Trigger
  /-- What was remembered when its turn came. -/
  start : Memory
  /-- How many stores had been committed before the one of that moment. -/
  begun : Nat
  /-- Its look at how the cluster was deployed. -/
  mode : Option (Look String)
  /-- Its look at the gates. -/
  gates : Option (Look (List Gate))
  /-- How many stores had been committed before the one of the moment of its first call. -/
  firstCall : Option Nat
  /-- The calls that it has made. -/
  calls : List Call

/-- Notes a call. -/
def Cycle.note (cycle : Cycle) (commits : Nat) (call : Call) : Cycle :=
  { cycle with
    firstCall := some (cycle.firstCall.getD commits)
    calls := cycle.calls ++ [call] }

/-- What a cycle goes on with. -/
inductive Stage where
  /-- It looks how the cluster was deployed. -/
  | opened
  /-- It looks at the gates. -/
  | managed
  /-- It makes a call. -/
  | ready (applying : Applying)
  /-- It waits for a call to end. -/
  | calling (cycle : Node.UnderWay)

/-- A cycle that has its turn. -/
structure Running extends Cycle where
  /-- What it goes on with. -/
  stage : Stage

/-- A cycle that has ended. -/
structure Finished extends Cycle where
  /-- What it came to. -/
  result : Result
  /-- What is remembered after it. -/
  finish : Memory

/-- A synchronizer whose cycles go by stages. -/
structure Staged where
  /-- The node. -/
  node : Node
  /-- The stores that were committed before the present one. -/
  earlier : List Database
  /-- The cycles that wait for their turn. -/
  waiting : List Trigger
  /-- The cycle that has its turn. -/
  running : Option Running
  /-- The cycles that have ended, in their order. -/
  past : List Finished

namespace Staged

/-- What can happen to a staged synchronizer. -/
inductive Event where
  /-- A task asks for a cycle. -/
  | ask (trigger : Trigger)
  /-- Time passes until a moment. -/
  | wait (moment : Nat)
  /-- Calls for a key come to behave in a manner. -/
  | behave (key : String) (manner : Manner)
  /-- A change of the store is committed, by a request or otherwise. -/
  | commit (change : Database → Database)
  /-- A cycle that waits gets its turn. -/
  | begin (trigger : Trigger)
  /-- The cycle looks how the cluster was deployed, which may fail. -/
  | readMode (failure : Option ClusterError)
  /-- The cycle looks at the gates, which may fail. -/
  | listGates (failure : Option ClusterError)
  /-- The cycle makes a call. -/
  | launch
  /-- The call under way ends. -/
  | close

/-- A staged synchronizer whose daemon has just started. -/
def initial (timing : Timing) (view : ClusterView) (db : Database) : Staged :=
  ⟨.initial timing view db, [], [], none, []⟩

/-- The stores that have been committed, in their order. -/
def stores (staged : Staged) : List Database := staged.earlier ++ [staged.node.db]

/-- The cycles that have begun, in their order. -/
def cycles (staged : Staged) : List Cycle :=
  staged.past.map (·.toCycle) ++ staged.running.toList.map (·.toCycle)

/-- Looks at the present store, unless this fails. -/
def look {α : Type} (staged : Staged) (read : Database → Except ClusterError α)
    (failure : Option ClusterError) : Look α :=
  ⟨staged.earlier.length, failure.elim (read staged.node.db) .error⟩

/-- Goes on from a step of a cycle. -/
def pass (staged : Staged) (cycle : Cycle) : Step → Staged
  | .ends result memory =>
    { staged with
      node := { staged.node with memory := memory }
      running := none
      past := staged.past ++ [⟨cycle, result, memory⟩] }
  | .calls applying => { staged with running := some ⟨cycle, .ready applying⟩ }

/-- Gives a cycle its turn. -/
def takeTurn (staged : Staged) (trigger : Trigger) : Staged :=
  let memory := staged.node.opening trigger.forced
  let cycle : Cycle := ⟨trigger, staged.node.memory, staged.earlier.length, none, none, none, []⟩
  let staged := { staged with
    node := { staged.node with memory := memory }
    waiting := staged.waiting.erase trigger }
  if memory.isRecent staged.node.timing staged.node.now then
    staged.pass cycle (.ends (.ok .debounced) memory)
  else { staged with running := some ⟨cycle, .opened⟩ }

/-- Goes on when it has been seen how the cluster was deployed. -/
def sawMode (staged : Staged) (cycle : Cycle) (look : Look String) : Staged :=
  let cycle := { cycle with mode := some look }
  if isSelfManaged look.found then staged.pass cycle (.ends (.ok .unmanaged) staged.node.memory)
  else { staged with running := some ⟨cycle, .managed⟩ }

/-- Goes on when the gates have been seen. -/
def sawGates (staged : Staged) (cycle : Cycle) (look : Look (List Gate)) : Staged :=
  staged.pass { cycle with gates := some look } (staged.node.memory.gatesListed look.found)

/-- Makes a call. -/
def call (staged : Staged) (cycle : Cycle) (applying : Applying) : Staged :=
  let (underWay, node) := staged.node.launch applying
  let cycle := cycle.note staged.earlier.length applying.call
  { staged with node := node, running := some ⟨cycle, .calling underWay⟩ }

/-- Ends the call under way. -/
def callEnded (staged : Staged) (cycle : Cycle) (underWay : Node.UnderWay) : Staged :=
  let node := staged.node.wait underWay.ending
  ({ staged with node := node } : Staged).pass cycle
    (node.memory.callEnded node.now underWay.applying underWay.succeeds)

/-- Lets an event happen, if it can. -/
def step? (staged : Staged) : Event → Option Staged
  | .ask trigger => some { staged with waiting := staged.waiting ++ [trigger] }
  | .wait moment => some { staged with node := staged.node.wait moment }
  | .behave key manner => some { staged with node := staged.node.setManner key manner }
  | .commit change =>
    some { staged with
      node := { staged.node with db := change staged.node.db }
      earlier := staged.earlier ++ [staged.node.db] }
  | .begin trigger =>
    match staged.running with
    | none => if trigger ∈ staged.waiting then some (staged.takeTurn trigger) else none
    | some _ => none
  | .readMode failure =>
    match staged.running with
    | some ⟨cycle, .opened⟩ =>
      some (staged.sawMode cycle (staged.look staged.node.view.mode failure))
    | _ => none
  | .listGates failure =>
    match staged.running with
    | some ⟨cycle, .managed⟩ =>
      some (staged.sawGates cycle (staged.look staged.node.view.listGates failure))
    | _ => none
  | .launch =>
    match staged.running with
    | some ⟨cycle, .ready applying⟩ => some (staged.call cycle applying)
    | _ => none
  | .close =>
    match staged.running with
    | some ⟨cycle, .calling underWay⟩ => some (staged.callEnded cycle underWay)
    | _ => none

/-- Lets events happen one after another, if they can. -/
def run? : List Event → Staged → Option Staged
  | [], staged => some staged
  | event :: events, staged => (staged.step? event).bind (run? events)

theorem run?_cons {staged between : Staged} {event : Event} {events : List Event}
    (h : staged.step? event = some between) : run? (event :: events) staged = run? events between := by
  rw [run?, h]
  rfl

/-- What every event keeps, every run keeps. -/
theorem run?_keeps {Kept : Staged → Prop}
    (hkeeps : ∀ {staged event staged'}, Kept staged → step? staged event = some staged' → Kept staged')
    {events : List Event} {staged staged' : Staged} (h : Kept staged)
    (hrun : run? events staged = some staged') : Kept staged' := by
  induction events generalizing staged with
  | nil =>
    cases hrun
    exact h
  | cons event events ih =>
    obtain ⟨between, hstep, hrest⟩ := Option.bind_eq_some_iff.mp hrun
    exact ih (hkeeps h hstep) hrest

/-! ## What an event comes to -/

/-- What an event can make of a staged synchronizer. -/
inductive Took (staged : Staged) : Event → Staged → Prop
  /-- One more cycle waits. -/
  | asked (trigger : Trigger) :
    Took staged (.ask trigger) { staged with waiting := staged.waiting ++ [trigger] }
  /-- Time has passed. -/
  | waited (moment : Nat) : Took staged (.wait moment) { staged with node := staged.node.wait moment }
  /-- Calls for a key behave in another manner. -/
  | behaved (key : String) (manner : Manner) :
    Took staged (.behave key manner) { staged with node := staged.node.setManner key manner }
  /-- One more store is committed. -/
  | committed (change : Database → Database) :
    Took staged (.commit change)
      { staged with
        node := { staged.node with db := change staged.node.db }
        earlier := staged.earlier ++ [staged.node.db] }
  /-- A cycle has its turn. -/
  | begun (trigger : Trigger) (hfree : staged.running = none) (hwaiting : trigger ∈ staged.waiting) :
    Took staged (.begin trigger) (staged.takeTurn trigger)
  /-- The cycle has seen how the cluster was deployed. -/
  | sawMode (failure : Option ClusterError) (cycle : Cycle)
    (hrunning : staged.running = some ⟨cycle, .opened⟩) :
    Took staged (.readMode failure) (staged.sawMode cycle (staged.look staged.node.view.mode failure))
  /-- The cycle has seen the gates. -/
  | sawGates (failure : Option ClusterError) (cycle : Cycle)
    (hrunning : staged.running = some ⟨cycle, .managed⟩) :
    Took staged (.listGates failure)
      (staged.sawGates cycle (staged.look staged.node.view.listGates failure))
  /-- The cycle has made a call. -/
  | launched (cycle : Cycle) (applying : Applying)
    (hrunning : staged.running = some ⟨cycle, .ready applying⟩) :
    Took staged .launch (staged.call cycle applying)
  /-- The call under way has ended. -/
  | closed (cycle : Cycle) (underWay : Node.UnderWay)
    (hrunning : staged.running = some ⟨cycle, .calling underWay⟩) :
    Took staged .close (staged.callEnded cycle underWay)

theorem took_of_step? {staged staged' : Staged} {event : Event} (h : staged.step? event = some staged') :
    staged.Took event staged' := by
  unfold step? at h
  cases event with
  | ask trigger =>
    cases h
    exact .asked trigger
  | wait moment =>
    cases h
    exact .waited moment
  | behave key manner =>
    cases h
    exact .behaved key manner
  | commit change =>
    cases h
    exact .committed change
  | begin trigger =>
    dsimp only at h
    split at h
    next hfree =>
      split at h
      · next hwaiting =>
        cases h
        exact .begun trigger hfree hwaiting
      · cases h
    next => cases h
  | readMode failure =>
    dsimp only at h
    split at h
    next cycle hrunning =>
      cases h
      exact .sawMode failure cycle hrunning
    next => cases h
  | listGates failure =>
    dsimp only at h
    split at h
    next cycle hrunning =>
      cases h
      exact .sawGates failure cycle hrunning
    next => cases h
  | launch =>
    dsimp only at h
    split at h
    next cycle applying hrunning =>
      cases h
      exact .launched cycle applying hrunning
    next => cases h
  | close =>
    dsimp only at h
    split at h
    next cycle underWay hrunning =>
      cases h
      exact .closed cycle underWay hrunning
    next => cases h

end Staged

end Sync

end ControlPlane
