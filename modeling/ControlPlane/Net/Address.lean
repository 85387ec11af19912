/-!
# Network addresses

An Internet address has 32 bits (version 4) or 128 bits (version 6). Every version 4 address has a
second form in version 6, its mapped form, in which it follows 80 zero bits and 16 one bits. The two
forms mean the same host, so addresses are compared by their canonical form (`IpAddress.canonical`),
in which a mapped address is read as the version 4 address it stands for.
-/

namespace ControlPlane

namespace Net

/-- An Internet address. -/
inductive IpAddress where
  /-- An address of version 4. -/
  | v4 (bits : BitVec 32)
  /-- An address of version 6. -/
  | v6 (bits : BitVec 128)
deriving DecidableEq, Repr

/-- The bits that precede a version 4 address in its mapped form. -/
def mappedHead : BitVec 96 := 0xFFFF#96

namespace IpAddress

/-- The version 6 form of a version 4 address. -/
def mapped (bits : BitVec 32) : IpAddress := .v6 (mappedHead ++ bits)

/-- The form by which addresses are compared. -/
def canonical : IpAddress → IpAddress
  | .v4 bits => .v4 bits
  | .v6 bits =>
    if bits.extractLsb' 32 96 = mappedHead then .v4 (bits.extractLsb' 0 32) else .v6 bits

/-- Whether an address, as it stands, is one of the host itself. -/
def isLoopback : IpAddress → Bool
  | .v4 bits => bits.extractLsb' 24 8 = 127#8
  | .v6 bits => bits = 1#128

/-- The four numbers of a version 4 address. -/
def octets (bits : BitVec 32) : List Nat :=
  [24, 16, 8, 0].map fun place => (bits.extractLsb' place 8).toNat

/-- The version 4 address with four numbers. -/
def ofOctets (numbers : List Nat) : BitVec 32 :=
  .ofNat 32 (numbers.foldl (fun value n => value * 256 + n) 0)

/-- The eight numbers of a version 6 address. -/
def segments (bits : BitVec 128) : List Nat :=
  [112, 96, 80, 64, 48, 32, 16, 0].map fun place => (bits.extractLsb' place 16).toNat

/-- The version 6 address with eight numbers. -/
def ofSegments (numbers : List Nat) : BitVec 128 :=
  .ofNat 128 (numbers.foldl (fun value n => value * 65536 + n) 0)

end IpAddress

/-- The address of one end of a connection. -/
structure SocketAddress where
  /-- The address of the host. -/
  ip : IpAddress
  /-- The number that tells the services of a host apart. -/
  tcpPort : Nat
  /-- The link that a version 6 address belongs to, zero if it is not said. -/
  scope : Nat
deriving DecidableEq, Repr

end Net

end ControlPlane
