import ControlPlane.Http.Api
import ControlPlane.Settings.Basic
import ControlPlane.Store.Schema
import ControlPlane.Sync.Loop

/-!
# The daemon

A daemon starts over a store: it brings the schema up to date (`Daemon.boot`) and does what its role
asks for (`Daemon.enterCluster`). The first member records how the cluster is deployed, if it was told; a
new member brings its local configuration in line with the gates, and starts even if that fails; any
other member does nothing. Then it answers requests, over TCP and over its control socket, and stops.
The store outlives the daemon, what the synchronizer remembers does not.
-/

namespace ControlPlane

/-- Why a daemon does not start. -/
inductive DaemonError where
  /-- The store failed. -/
  | storage (fault : StorageFault)
  /-- The start-up step failed. -/
  | cluster (e : ClusterError)
  /-- A place to listen at is taken. -/
  | bind (target reason : String)
deriving DecidableEq, Repr

/-- The wording of an error. -/
def DaemonError.message : DaemonError → String
  | .storage fault => "storage error: " ++ fault.message
  | .cluster e => e.message
  | .bind target reason => s!"failed to bind {target}: {reason}"

/-- What is found where the control socket goes. -/
inductive SocketPlace where
  /-- Nothing. -/
  | free
  /-- A file, left behind by an unclean exit. -/
  | file
  /-- A directory. -/
  | directory
deriving DecidableEq, Repr

/-- Takes the place of the control socket. A file that is there is removed. -/
def SocketPlace.take (path : String) : SocketPlace → Except DaemonError Unit
  | .free | .file => .ok ()
  | .directory => .error (.bind path "Address already in use (os error 98)")

/-- A daemon. -/
structure Daemon where
  /-- Its settings. -/
  settings : Settings
  /-- The node that it runs on. -/
  node : Sync.Node

namespace Daemon

/-- Starts a daemon over a store, on a node whose calls behave as given. -/
def boot (settings : Settings) (manners : List (String × Sync.Manner)) (db : Database) :
    Except DaemonError Daemon × Database :=
  match Schema.apply db with
  | (.error fault, db) => (.error (.storage fault), db)
  | (.ok _, db) =>
    (.ok ⟨settings, { Sync.Node.initial settings.timing .standard db with manners := manners }⟩, db)

/-- Runs an operation on the store. -/
def perform (daemon : Daemon) (op : Operation) : Except ClusterError Reply × Daemon :=
  let (reply, db) := op.run daemon.node.db
  (reply, { daemon with node := { daemon.node with db := db } })

/-- Does what the role asks for. -/
def enterCluster (daemon : Daemon) : Except DaemonError Unit × Daemon :=
  match daemon.settings.role, daemon.settings.deploymentType with
  | .bootstrap, some mode =>
    match daemon.perform (.setConfig ClusterConfig.deploymentType mode) with
    | (.ok _, daemon) => (.ok (), daemon)
    | (.error e, daemon) => (.error (.cluster e), daemon)
  | .join, _ => (.ok (), { daemon with node := (daemon.node.runCycle true).2 })
  | _, _ => (.ok (), daemon)

/-- The address from which the host itself reaches the interface over TCP. -/
def localClient : Net.SocketAddress := ⟨.v4 0x7F000001, 0, 0⟩

/-- How a request reaches the daemon. -/
inductive Channel where
  /-- Over TCP, from the host itself. -/
  | tcp
  /-- Over the control socket. -/
  | socket
deriving DecidableEq, Repr

/-- Marks a request with the channel on which it came. -/
def Channel.mark (request : Http.Request) : Channel → Http.Request
  | .tcp => { request with tag := none, remote := some localClient }
  | .socket => { request with tag := some .socket, remote := none }

/-- Answers a request. -/
def answer (daemon : Daemon) (request : Http.Request) : Http.Response × Daemon :=
  let (response, db) := request.answer daemon.settings.trustedPeers daemon.node.db
  (response, { daemon with node := { daemon.node with db := db } })

end Daemon

end ControlPlane
