import ControlPlane.Service.ClusterConfig
import ControlPlane.Service.GateRegistry
import ControlPlane.Service.StateLock

/-!
# Operations

Everything a client can ask of the store, as data: one constructor per operation. Running an
operation is one transaction or one query, so a history of the store is a list of operations run one
after another.
-/

namespace ControlPlane

/-- An operation on the store. -/
inductive Operation where
  /-- Lists the names of the states. -/
  | listStates
  /-- Reads a state. -/
  | getState (name : String)
  /-- Writes a state. -/
  | putState (name token : String) (payload : ByteArray)
  /-- Removes a state. -/
  | deleteState (name : String)
  /-- Lists the locks. -/
  | listLocks
  /-- Reads a lock. -/
  | getLock (name : String)
  /-- Takes a lock. -/
  | acquire (name : String) (request : LockRequest)
  /-- Gives a lock back. -/
  | release (name token : String)
  /-- Lists the gates. -/
  | listGates
  /-- Reads a gate. -/
  | getGate (key : String)
  /-- Adds a gate. -/
  | createGate (key : String) (enabled : Bool)
  /-- Switches a gate. -/
  | updateGate (key : String) (enabled : Bool)
  /-- Removes a gate. -/
  | deleteGate (key : String)
  /-- Reads a configuration value. -/
  | getConfig (key : String)
  /-- Sets a configuration value. -/
  | setConfig (key value : String)
  /-- Removes a configuration value. -/
  | deleteConfig (key : String)
deriving DecidableEq

/-- What an operation yields. -/
inductive Reply where
  /-- Nothing. -/
  | done
  /-- Names of states. -/
  | names (names : List String)
  /-- A state. -/
  | state (entry : StateEntry)
  /-- Locks. -/
  | locks (locks : List Lock)
  /-- A lock. -/
  | lock (lock : Lock)
  /-- Gates. -/
  | gates (gates : List Gate)
  /-- A gate. -/
  | gate (gate : Gate)
  /-- A configuration value. -/
  | value (value : String)
deriving DecidableEq

/-- How an operation reaches the store: as a query or as a transaction. -/
inductive Operation.Plan where
  /-- Reads. -/
  | query (query : Query Reply)
  /-- Reads and writes. -/
  | commit (tx : Tx Reply)

/-- The one query or transaction of an operation. -/
def Operation.plan : Operation → Operation.Plan
  | .listStates => .query (.names <$> StateLock.listStates)
  | .getState name => .query (.state <$> StateLock.getState name)
  | .putState name token payload => .commit ((fun _ => .done) <$> StateLock.putState name token payload)
  | .deleteState name => .commit ((fun _ => .done) <$> StateLock.deleteState name)
  | .listLocks => .query (.locks <$> StateLock.listLocks)
  | .getLock name => .query (.lock <$> StateLock.getLock name)
  | .acquire name request => .commit (.lock <$> StateLock.acquire name request)
  | .release name token => .commit ((fun _ => .done) <$> StateLock.release name token)
  | .listGates => .query (.gates <$> GateRegistry.list)
  | .getGate key => .query (.gate <$> GateRegistry.get key)
  | .createGate key enabled => .commit ((fun _ => .done) <$> GateRegistry.create key enabled)
  | .updateGate key enabled => .commit ((fun _ => .done) <$> GateRegistry.update key enabled)
  | .deleteGate key => .commit ((fun _ => .done) <$> GateRegistry.delete key)
  | .getConfig key => .query (.value <$> ClusterConfig.get key)
  | .setConfig key value => .commit ((fun _ => .done) <$> ClusterConfig.set key value)
  | .deleteConfig key => .commit ((fun _ => .done) <$> ClusterConfig.delete key)

/-- Runs an operation. -/
def Operation.run (op : Operation) (db : Database) : Except ClusterError Reply × Database :=
  match op.plan with
  | .query query => (db.query query, db)
  | .commit tx => db.commit tx

/-- Runs operations one after another. -/
def Operation.runAll : List Operation → Database → List (Except ClusterError Reply) × Database
  | [], db => ([], db)
  | op :: ops, db =>
    let (reply, db) := op.run db
    let (replies, db) := runAll ops db
    (reply :: replies, db)

end ControlPlane
