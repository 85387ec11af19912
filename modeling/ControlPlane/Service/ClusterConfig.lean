import ControlPlane.Store.Transaction

/-!
# The cluster configuration

Named values recorded once for the whole cluster. One of them says how the cluster was deployed, and
the synchronizer looks at it in every cycle.
-/

namespace ControlPlane

namespace ClusterConfig

/-- The name of the value that says how the cluster was deployed. -/
def deploymentType : String := "deployment.type"

/-- The deployment whose nodes manage their local configuration themselves. -/
def selfManaged : String := "maas"

/-- The value with a name. -/
def get (key : String) : Query String := do
  pure (← Query.get .config key).value

/-- Sets a value. -/
def set (key value : String) : Tx Unit := do
  let _ ← Tx.upsert .config ⟨key, value⟩

/-- Removes a value. -/
def delete (key : String) : Tx Unit := Tx.delete .config key

end ClusterConfig

end ControlPlane
