/-!
# The records of the control plane

Four kinds of records are kept: state documents, the locks that guard them, feature gates and
configuration values. Each record is found under a key that it carries itself, a `RecordKind` names
the kind, and `RecordKind.Carrier` is the type of its records.
-/

namespace ControlPlane

/-- Documents are compared byte by byte. -/
instance decidableEqBytes : DecidableEq ByteArray := ByteArray.instDecidableEq

/-- A stored state document. -/
structure StateEntry where
  /-- The name under which clients know the state. -/
  name : String
  /-- The document, kept byte for byte. -/
  payload : ByteArray
deriving DecidableEq

/-- The lock held on a state name. -/
structure Lock where
  /-- The name that is locked. -/
  name : String
  /-- The token by which the holder is known. -/
  token : String
  /-- The holder's own document, kept verbatim. -/
  holder : String
deriving DecidableEq, Repr

/-- A feature gate: a named switch. A gate that was never set has no record. -/
structure Gate where
  /-- The name of the gate. -/
  key : String
  /-- Whether the feature is on. -/
  enabled : Bool
deriving DecidableEq, Repr

/-- A value of the cluster configuration. -/
structure ConfigEntry where
  /-- The name of the value. -/
  key : String
  /-- The value. -/
  value : String
deriving DecidableEq, Repr

/-- The kinds of records. -/
inductive RecordKind where
  /-- State documents. -/
  | state
  /-- Locks. -/
  | lock
  /-- Feature gates. -/
  | gate
  /-- Configuration values. -/
  | config
deriving DecidableEq, Repr

/-- The noun by which messages call a record. -/
def RecordKind.noun : RecordKind → String
  | .state => "state"
  | .lock => "lock"
  | .gate => "feature gate"
  | .config => "config key"

/-- The table that holds the records of a kind. -/
def RecordKind.table : RecordKind → String
  | .state => "terraform_state"
  | .lock => "terraform_lock"
  | .gate => "feature_gates"
  | .config => "config"

/-- The records of a kind. -/
abbrev RecordKind.Carrier : RecordKind → Type
  | .state => StateEntry
  | .lock => Lock
  | .gate => Gate
  | .config => ConfigEntry

/-- The key under which a record is kept. -/
def RecordKind.key : (kind : RecordKind) → kind.Carrier → String
  | .state, entry => entry.name
  | .lock, held => held.name
  | .gate, switch => switch.key
  | .config, entry => entry.key

end ControlPlane
