import Std.Data.ExtTreeMap
import ControlPlane.LocalConfig.Key
import ControlPlane.Record.Basic

/-!
# What the local configuration should hold

A `Snapshot` maps local keys to switches. A list of gates has one (`Snapshot.ofGates`): where two gates
share a local key, the one that is named by the key counts, whatever the order of the list.

A `Patch` turns one snapshot into another. It names the keys that are new or differ with their values,
and the keys that are gone, each in ascending order, and no other key.
-/

namespace ControlPlane

namespace LocalConfig

/-- Switches by local key. -/
abbrev Snapshot := Std.ExtTreeMap String Bool

namespace Snapshot

/-- Adds a gate. One that is named by its local key takes the place of what is there; another one only
fills a gap. -/
def addGate (snapshot : Snapshot) (gate : Gate) : Snapshot :=
  if isLocalKey gate.key then snapshot.insert gate.key gate.enabled
  else snapshot.insertIfNew (localKey gate.key) gate.enabled

/-- The snapshot of gates. -/
def ofGates (gates : List Gate) : Snapshot := gates.foldl addGate ∅

/-- Gives a key the value that it has in an older snapshot, or removes it if it has none there. -/
def restore (snapshot old : Snapshot) (key : String) : Snapshot :=
  match old[key]? with
  | some value => snapshot.insert key value
  | none => snapshot.erase key

end Snapshot

/-- A change of one key of the local configuration. -/
inductive Call where
  /-- Gives a key a value. -/
  | set (key : String) (enabled : Bool)
  /-- Removes a key. -/
  | unset (key : String)
deriving DecidableEq, Repr

/-- The key that a call changes. -/
def Call.key : Call → String
  | .set key _ => key
  | .unset key => key

/-- What a call makes of a snapshot. -/
def Call.apply (snapshot : Snapshot) : Call → Snapshot
  | .set key enabled => snapshot.insert key enabled
  | .unset key => snapshot.erase key

/-- The difference between two snapshots. -/
structure Patch where
  /-- The keys to set, with their values. -/
  set : List (String × Bool)
  /-- The keys to remove. -/
  unset : List String
deriving DecidableEq, Repr

namespace Patch

/-- The patch from one snapshot to another. -/
def between (previous current : Snapshot) : Patch where
  set := current.toList.filter fun (key, enabled) => previous[key]? ≠ some enabled
  unset := previous.keys.filter fun key => !current.contains key

/-- Whether there is nothing to change. -/
def isEmpty (patch : Patch) : Bool := patch.set.isEmpty && patch.unset.isEmpty

/-- The calls that carry out a patch: first all keys are set, then the others are removed. -/
def calls (patch : Patch) : List Call :=
  (patch.set.map fun (key, enabled) => .set key enabled) ++ patch.unset.map .unset

end Patch

end LocalConfig

end ControlPlane
