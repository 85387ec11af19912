import ControlPlane.Store.Transaction

/-!
# The gate registry

The registry is a partial map from names to switches. Creating a gate wants its name free, changing
and removing one want it taken.
-/

namespace ControlPlane

namespace GateRegistry

/-- All gates in the order of their names. -/
def list : Query (List Gate) := Query.list .gate

/-- The gate with a name. -/
def get (key : String) : Query Gate := Query.get .gate key

/-- Adds a gate. -/
def create (key : String) (enabled : Bool) : Tx Unit := Tx.create .gate ⟨key, enabled⟩

/-- Switches an existing gate. The record is read first and written back under the name it carries. -/
def update (key : String) (enabled : Bool) : Tx Unit := do
  let gate ← Tx.get .gate key
  Tx.update .gate { gate with enabled := enabled }

/-- Removes a gate. -/
def delete (key : String) : Tx Unit := Tx.delete .gate key

end GateRegistry

end ControlPlane
