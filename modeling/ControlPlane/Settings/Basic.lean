import ControlPlane.Access
import ControlPlane.Sync.Cycle

/-!
# Settings

What the daemon is told when it starts, and what follows from it. A path that is not given lies in the
state directory, and the periods that count in seconds are at least one second.
-/

namespace ControlPlane

/-- How a node comes into the cluster. -/
inductive Role where
  /-- As the first member, which records what holds for the whole cluster. -/
  | bootstrap
  /-- As a new member, which takes over the gates at once. -/
  | join
  /-- As a member that it has been before. -/
  | start
deriving DecidableEq, Repr

/-- The word for a role. -/
def Role.word : Role → String
  | .bootstrap => "bootstrap"
  | .join => "join"
  | .start => "start"

/-- All roles. -/
def Role.all : List Role := [.bootstrap, .join, .start]

/-- What the daemon is told. -/
structure Settings where
  /-- The directory that holds the store and the control socket. -/
  stateDir : String
  /-- The name of the member, if it is not that of the host. -/
  name : Option String
  /-- The address at which the interface over HTTP is offered. -/
  bind : Net.SocketAddress
  /-- The path of the control socket, if it is not in the state directory. -/
  socket : Option String
  /-- The addresses of the other members. -/
  peers : List Net.IpAddress
  /-- How the node comes into the cluster. -/
  role : Role
  /-- How the cluster is deployed, to be recorded by the first member. -/
  deploymentType : Option String
  /-- Seconds between two cycles of the synchronizer. -/
  syncInterval : Nat
  /-- The least number of milliseconds between two cycles that write. -/
  syncDebounce : Nat
  /-- Seconds after which a call to the local configuration is given up. -/
  callTimeout : Nat
  /-- The command that changes the local configuration. -/
  command : String
  /-- Whether debugging messages are logged. -/
  debug : Bool
  /-- Whether messages of other parts are logged. -/
  verbose : Bool
deriving DecidableEq, Repr

namespace Settings

/-- The settings where nothing is given. -/
def standard : Settings where
  stateDir := "./clusterd_data"
  name := none
  bind := ⟨.v4 0, 7000, 0⟩
  socket := none
  peers := []
  role := .start
  deploymentType := none
  syncInterval := 5
  syncDebounce := 2000
  callTimeout := 30
  command := "snapctl"
  debug := false
  verbose := false

/-- A file in a directory. -/
def inDirectory (directory file : String) : String :=
  if directory.toList.getLast? = some '/' then directory ++ file else directory ++ "/" ++ file

/-- The path of the store. -/
def databasePath (settings : Settings) : String := inDirectory settings.stateDir "cluster.redb"

/-- The path of the control socket. -/
def socketPath (settings : Settings) : String :=
  settings.socket.getD (inDirectory settings.stateDir "control.socket")

/-- The timing of the synchronizer. -/
def timing (settings : Settings) : Sync.Timing :=
  ⟨1000 * max 1 settings.syncInterval, settings.syncDebounce, 1000 * max 1 settings.callTimeout⟩

/-- The peers whose requests are admitted. -/
def trustedPeers (settings : Settings) : PeerList := ⟨settings.peers⟩

/-- What is logged. -/
def logDirective (settings : Settings) : String :=
  if settings.debug then "clusterd=debug" else "clusterd=info"

end Settings

end ControlPlane
