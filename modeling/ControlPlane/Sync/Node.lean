import ControlPlane.Service.GateRegistry
import ControlPlane.Sync.Cycle

/-!
# A node in virtual time

A node has a clock, a store, a local configuration and a synchronizer. Time passes only while a call to
the local configuration is under way. How a call for a key behaves is given by its `Manner`, and what
the synchronizer sees of the cluster by a `ClusterView`, which may be out of order in several ways.

A cycle runs until it is through (`Node.runCycle`), or until a call is under way at a given time
(`Node.pursue`), so that other things can happen meanwhile. Every call is written down with the time it
began.
-/

namespace ControlPlane

namespace Sync

open LocalConfig

/-! ## The cluster as the synchronizer sees it -/

/-- How a part of the cluster's data is read. -/
inductive Source (α : Type) where
  /-- As it is. -/
  | actual
  /-- As something fixed. -/
  | fixed (value : α)
  /-- Not at all: the store cannot be reached. -/
  | unreachable
  /-- Not at all: reading breaks off. -/
  | crashing

/-- Reads a part of the cluster's data. -/
def Source.read {α : Type} (activity : String) (actual : Except ClusterError α) :
    Source α → Except ClusterError α
  | .actual => actual
  | .fixed value => .ok value
  | .unreachable => .error (.internal (.other "store unreachable"))
  | .crashing => .error (.internal (.crashed activity))

/-- What the synchronizer sees of the cluster. -/
structure ClusterView where
  /-- Whether there is a store. Without one there are no gates and no configuration. -/
  attached : Bool
  /-- How the gates are listed. -/
  gates : Source (List Gate)
  /-- How the configuration is read. -/
  config : Source String

/-- The view of a store in order. -/
def ClusterView.standard : ClusterView := ⟨true, .actual, .actual⟩

/-- Lists the gates. -/
def ClusterView.listGates (view : ClusterView) (db : Database) : Except ClusterError (List Gate) :=
  view.gates.read "gate listing" (if view.attached then db.query GateRegistry.list else .ok [])

/-- Reads how the cluster was deployed. -/
def ClusterView.mode (view : ClusterView) (db : Database) : Except ClusterError String :=
  let key := ClusterConfig.deploymentType
  view.config.read "deployment type lookup"
    (if view.attached then db.query (ClusterConfig.get key) else .error (.notFound .config key))

/-! ## The local configuration -/

/-- How calls for a key behave. -/
inductive Manner where
  /-- They succeed at once. -/
  | succeeds
  /-- They fail at once. -/
  | fails
  /-- They never return. -/
  | hangs
  /-- They succeed after a time. -/
  | succeedsAfter (delay : Nat)
  /-- They fail after a time. -/
  | failsAfter (delay : Nat)
deriving DecidableEq, Repr

/-- Whether a call succeeds and how long it takes, given the time after which it is given up. A call
that returns at that very time has returned. -/
def Manner.course (limit : Nat) : Manner → Bool × Nat
  | .succeeds => (true, 0)
  | .fails => (false, 0)
  | .hangs => (false, limit)
  | .succeedsAfter delay => if delay ≤ limit then (true, delay) else (false, limit)
  | .failsAfter delay => (false, min delay limit)

/-- A call and the time it began. -/
structure TimedCall where
  /-- The time. -/
  start : Nat
  /-- The call. -/
  call : Call
deriving DecidableEq, Repr

/-! ## The node -/

/-- A node. -/
structure Node where
  /-- The timing of the synchronizer. -/
  timing : Timing
  /-- The time, in milliseconds. -/
  now : Nat
  /-- The store. -/
  db : Database
  /-- What the synchronizer sees of the cluster. -/
  view : ClusterView
  /-- How calls behave for the keys that were given a manner, the latest first. -/
  manners : List (String × Manner)
  /-- What the synchronizer remembers. -/
  memory : Memory
  /-- The calls written down, in order. -/
  calls : List TimedCall

/-- A node whose daemon has just started. -/
def Node.initial (timing : Timing) (view : ClusterView) (db : Database) : Node :=
  ⟨timing, 0, db, view, [], .initial, []⟩

namespace Node

/-- How calls for a key behave. -/
def manner (node : Node) (key : String) : Manner := (node.manners.lookup key).getD .succeeds

/-- Says how calls for a key behave from now on. -/
def setManner (node : Node) (key : String) (manner : Manner) : Node :=
  { node with manners := (key, manner) :: node.manners }

/-- Lets time pass until a moment, unless it has come already. -/
def wait (node : Node) (moment : Nat) : Node := { node with now := max node.now moment }

/-- A cycle with a call under way. -/
structure UnderWay where
  /-- The cycle. -/
  applying : Applying
  /-- Whether the call will succeed. -/
  succeeds : Bool
  /-- When the call will end. -/
  ending : Nat

/-- How far a cycle has come. -/
inductive Pace where
  /-- It has ended. -/
  | ended (result : Result)
  /-- A call is under way. -/
  | underWay (cycle : UnderWay)

/-- Begins the call of a cycle. -/
def launch (node : Node) (applying : Applying) : UnderWay × Node :=
  let (succeeds, duration) := (node.manner applying.call.key).course node.timing.callTimeout
  (⟨applying, succeeds, node.now + duration⟩,
    { node with calls := node.calls ++ [⟨node.now, applying.call⟩] })

/-- Takes a step of a cycle. -/
def take (node : Node) : Step → Pace × Node
  | .ends result memory => (.ended result, { node with memory := memory })
  | .calls applying => let (cycle, node) := node.launch applying; (.underWay cycle, node)

/-- Begins a cycle. What it reads is read at once. -/
def openCycle (node : Node) (forced : Bool) : Pace × Node :=
  let node := if forced then { node with memory := node.memory.forced } else node
  node.take (node.memory.openCycle node.timing node.now (node.view.mode node.db)
    (node.view.listGates node.db))

/-- Ends the call under way. -/
def closeCall (node : Node) (cycle : UnderWay) : Pace × Node :=
  let node := node.wait cycle.ending
  node.take (node.memory.callEnded node.now cycle.applying cycle.succeeds)

/-- A cycle goes on with one call fewer to follow. -/
theorem closeCall_waiting {node node' : Node} {cycle cycle' : UnderWay}
    (h : node.closeCall cycle = (.underWay cycle', node')) :
    cycle'.applying.waiting.length < cycle.applying.waiting.length := by
  unfold closeCall Memory.callEnded take at h
  cases hw : cycle.applying.waiting with
  | nil => simp [hw] at h
  | cons call waiting =>
    simp only [hw, launch, Prod.mk.injEq, Pace.underWay.injEq] at h
    rw [← h.1]
    simp

/-- Goes on with a cycle. It comes to rest when it has ended, or when its call is still under way at
the given moment. -/
def pursue (node : Node) (moment : Nat) (cycle : UnderWay) : Pace × Node :=
  if moment ≤ cycle.ending then (.underWay cycle, node)
  else
    match _ : node.closeCall cycle with
    | (.ended result, node) => (.ended result, node)
    | (.underWay cycle, node) => node.pursue moment cycle
termination_by cycle.applying.waiting.length
decreasing_by exact closeCall_waiting ‹_›

/-- Goes on with a cycle until it has ended. -/
def finish (node : Node) (cycle : UnderWay) : Result × Node :=
  match _ : node.closeCall cycle with
  | (.ended result, node) => (result, node)
  | (.underWay cycle, node) => node.finish cycle
termination_by cycle.applying.waiting.length
decreasing_by exact closeCall_waiting ‹_›

/-- Runs a cycle. -/
def runCycle (node : Node) (forced : Bool) : Result × Node :=
  match node.openCycle forced with
  | (.ended result, node) => (result, node)
  | (.underWay cycle, node) => node.finish cycle

/-- Runs forced cycles one after another. -/
def runForced : (count : Nat) → Node → List Result × Node
  | 0, node => ([], node)
  | count + 1, node =>
    let (result, node) := node.runCycle true
    let (results, node) := runForced count node
    (result :: results, node)

end Node

end Sync

end ControlPlane
