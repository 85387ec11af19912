/-!
# Keys of the local configuration

A node keeps settings of its own. Gates are written there under keys that begin with `feature.`; a gate
whose name begins so already keeps its name. Two gates can therefore share a local key: the one that is
named by it and the one whose name is the rest of it.
-/

namespace ControlPlane

namespace LocalConfig

/-- What every local key of a gate begins with. -/
def featureHead : String := "feature."

/-- Whether a name is a local key as it stands. -/
def isLocalKey (name : String) : Bool := featureHead.toList.isPrefixOf name.toList

/-- The local key of the gate with a name. -/
def localKey (name : String) : String := if isLocalKey name then name else featureHead ++ name

/-- The value that stands for a switch. -/
def localValue (enabled : Bool) : String := if enabled then "true" else "false"

end LocalConfig

end ControlPlane
