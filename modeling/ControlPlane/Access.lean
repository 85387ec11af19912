import ControlPlane.Net.Address

/-!
# Who may ask what

A request is admitted by where it comes from. The connection it arrived on gives it an access class:
the control socket, the host itself, a configured peer, or anybody else. Each group of endpoints admits
some classes. A request that was tagged with a class keeps it; otherwise the address of the remote end
decides, and a request without either counts as untrusted.

Addresses are compared in canonical form, so a peer is known under either form of its address.
-/

namespace ControlPlane

/-- Where a request comes from. -/
inductive Access where
  /-- From the control socket. -/
  | socket
  /-- From the host itself. -/
  | loopback
  /-- From a configured peer. -/
  | peer
  /-- From anywhere else. -/
  | untrusted
deriving DecidableEq, Repr

/-- A group of endpoints that admit the same classes. -/
inductive EndpointGroup where
  /-- States and locks. -/
  | documents
  /-- Gates and configuration. -/
  | cluster
deriving DecidableEq, Repr

/-- The classes that a group admits. -/
def EndpointGroup.admitted : EndpointGroup → List Access
  | .documents => [.socket, .loopback, .peer]
  | .cluster => [.socket, .peer]

/-- Whether a group admits a class. -/
def EndpointGroup.admits (group : EndpointGroup) (access : Access) : Bool :=
  group.admitted.contains access

/-- The configured peers. -/
structure PeerList where
  /-- The addresses as configured. -/
  addresses : List Net.IpAddress
deriving DecidableEq, Repr

namespace PeerList

/-- Whether an address is one of a peer. -/
def contains (peers : PeerList) (ip : Net.IpAddress) : Bool :=
  (peers.addresses.map (·.canonical)).contains ip.canonical

/-- The class of a connection from a remote address. -/
def classify (peers : PeerList) (remote : Net.SocketAddress) : Access :=
  if remote.ip.canonical.isLoopback then .loopback
  else if peers.contains remote.ip then .peer
  else .untrusted

/-- The class of a request, given the tag it carries and the address it comes from. -/
def access (peers : PeerList) (tag : Option Access) (remote : Option Net.SocketAddress) : Access :=
  match tag, remote with
  | some access, _ => access
  | none, some remote => peers.classify remote
  | none, none => .untrusted

end PeerList

end ControlPlane
