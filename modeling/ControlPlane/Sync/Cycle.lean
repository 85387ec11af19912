import ControlPlane.LocalConfig.Snapshot
import ControlPlane.Service.ClusterConfig

/-!
# A cycle of the synchronizer

The synchronizer brings the local configuration in line with the gates of the cluster. It remembers
what it has written (`Memory.known`) and when it last wrote. A cycle

- ends at once while the last one that wrote is too recent, unless the cycle is forced;
- reads how the cluster was deployed, and ends if the node manages its configuration itself;
- lists the gates, and ends if listing fails or nothing differs from what is known;
- makes one call for each key that differs, and then knows the gates listed, except that a key whose
  call failed is still known as before, so that the next cycle tries it again.

A cycle is given as its steps. Each step takes what was waited for and says how the cycle goes on, so
that other things can happen between steps. A failed call says nothing about the next one.
-/

namespace ControlPlane

namespace Sync

open LocalConfig

/-- The timing of a synchronizer, in milliseconds. -/
structure Timing where
  /-- The time between two ticks of the background loop. -/
  interval : Nat
  /-- The least time between a cycle that wrote and the next one that is not forced. -/
  debounce : Nat
  /-- The time after which a call is given up. -/
  callTimeout : Nat
deriving DecidableEq, Repr

/-- The usual timing. -/
def Timing.standard : Timing := ⟨5000, 2000, 30000⟩

/-- What a synchronizer remembers between cycles. -/
structure Memory where
  /-- What has been written. -/
  known : Snapshot
  /-- When the last cycle that wrote ended, if the next one has to respect it. -/
  lastApplied : Option Nat

/-- What a synchronizer remembers when it starts. -/
def Memory.initial : Memory := ⟨∅, none⟩

/-- Forgets when the last cycle wrote. -/
def Memory.forced (memory : Memory) : Memory := { memory with lastApplied := none }

/-! ## Results -/

/-- A call and whether it succeeded. -/
structure CallResult where
  /-- The call. -/
  call : Call
  /-- Whether it succeeded. -/
  succeeded : Bool
deriving DecidableEq, Repr

/-- What a cycle wrote. -/
structure Report where
  /-- The keys that were set. -/
  set : List String
  /-- The keys that were removed. -/
  unset : List String
  /-- The keys whose call failed. -/
  failed : List String
deriving DecidableEq, Repr

/-- The key that a call set. -/
def CallResult.setKey? : CallResult → Option String
  | ⟨.set key _, true⟩ => some key
  | _ => none

/-- The key that a call removed. -/
def CallResult.unsetKey? : CallResult → Option String
  | ⟨.unset key, true⟩ => some key
  | _ => none

/-- The key of a call that failed. -/
def CallResult.failedKey? (result : CallResult) : Option String :=
  if result.succeeded then none else some result.call.key

/-- The report of calls, in their order. -/
def Report.ofResults (results : List CallResult) : Report where
  set := results.filterMap (·.setKey?)
  unset := results.filterMap (·.unsetKey?)
  failed := results.filterMap (·.failedKey?)

/-- What is known after calls: the keys of failed calls as before, all others as wanted. -/
def knownAfter (known wanted : Snapshot) (results : List CallResult) : Snapshot :=
  (results.filterMap (·.failedKey?)).foldl (fun next key => next.restore known key) wanted

/-- How a cycle ended that did not fail. -/
inductive Outcome where
  /-- The last cycle that wrote was too recent. -/
  | debounced
  /-- The node manages its configuration itself. -/
  | unmanaged
  /-- Nothing differed. -/
  | unchanged
  /-- Calls were made. -/
  | applied (report : Report)
deriving DecidableEq, Repr

/-- The end of a cycle. -/
abbrev Result := Except ClusterError Outcome

/-! ## Steps -/

/-- A cycle that makes calls. -/
structure Applying where
  /-- What is wanted. -/
  wanted : Snapshot
  /-- The calls made so far. -/
  made : List CallResult
  /-- The call under way. -/
  call : Call
  /-- The calls that follow. -/
  waiting : List Call

/-- How a cycle goes on. -/
inductive Step where
  /-- It ends, and this is remembered. -/
  | ends (result : Result) (memory : Memory)
  /-- It makes a call. -/
  | calls (applying : Applying)

/-- Whether the last cycle that wrote is too recent. -/
def Memory.isRecent (timing : Timing) (now : Nat) (memory : Memory) : Bool :=
  memory.lastApplied.any fun last => now - last < timing.debounce

/-- Whether the node manages its configuration itself, given how the cluster was deployed. A failed
reading means that it does not. -/
def isSelfManaged : Except ClusterError String → Bool
  | .ok mode => mode = ClusterConfig.selfManaged
  | .error _ => false

/-- Goes on with the gates. -/
def Memory.gatesListed (memory : Memory) : Except ClusterError (List Gate) → Step
  | .error e => .ends (.error e) memory
  | .ok gates =>
    let wanted := Snapshot.ofGates gates
    match (Patch.between memory.known wanted).calls with
    | [] => .ends (.ok .unchanged) memory
    | call :: waiting => .calls ⟨wanted, [], call, waiting⟩

/-- Goes on when a call has ended. -/
def Memory.callEnded (memory : Memory) (now : Nat) (applying : Applying) (succeeded : Bool) : Step :=
  let made := applying.made ++ [⟨applying.call, succeeded⟩]
  match applying.waiting with
  | [] =>
    .ends (.ok (.applied (.ofResults made))) ⟨knownAfter memory.known applying.wanted made, some now⟩
  | call :: waiting => .calls ⟨applying.wanted, made, call, waiting⟩

/-- Begins a cycle and goes on to its first call, given what it reads on the way. -/
def Memory.openCycle (memory : Memory) (timing : Timing) (now : Nat)
    (mode : Except ClusterError String) (listing : Except ClusterError (List Gate)) : Step :=
  if memory.isRecent timing now then .ends (.ok .debounced) memory
  else if isSelfManaged mode then .ends (.ok .unmanaged) memory
  else memory.gatesListed listing

end Sync

end ControlPlane
