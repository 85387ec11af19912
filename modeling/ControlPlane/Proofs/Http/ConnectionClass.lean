import ControlPlane.Proofs.Http.AccessIsolation
import ControlPlane.Proofs.Http.FailureEnvelope
import Mathlib.Logic.Relation

/-!
# The class of a connection

An address of version 4 and its mapped form are forms of one address (`IpAddress.Alike`), and two
addresses have the same canonical form exactly if they are (`IpAddress.alike_iff`). The class of a
connection is decided by the canonical form of the remote address: the host itself comes first, then the
peers, of whom it matters only which addresses they have, in whatever form and order
(`PeerList.classify_eq_of_alike`).

What the access check goes by is this class, or the tag of a request that carries one
(`Http.connection_class`).
-/

namespace ControlPlane

/-! ## Forms of an address -/

namespace Net.IpAddress

/-- Whether two addresses are forms of one address. -/
inductive Alike : IpAddress → IpAddress → Prop
  /-- They are the same. -/
  | refl (ip : IpAddress) : Alike ip ip
  /-- The second one is the mapped form of the first one. -/
  | mapped (bits : BitVec 32) : Alike (.v4 bits) (mapped bits)
  /-- The first one is the mapped form of the second one. -/
  | unmapped (bits : BitVec 32) : Alike (IpAddress.mapped bits) (.v4 bits)

/-- The addresses by which a host knows itself: those of version 4 that begin with 127, and the first
one of version 6. -/
inductive IsHost : IpAddress → Prop
  /-- An address of version 4. -/
  | v4 (rest : BitVec 24) : IsHost (.v4 (127#8 ++ rest))
  /-- The address of version 6. -/
  | v6 : IsHost (.v6 1#128)

theorem isLoopback_iff {ip : IpAddress} : ip.isLoopback = true ↔ IsHost ip := by
  constructor
  · cases ip with
    | v4 bits =>
      intro h
      have hhead : bits.extractLsb' 24 8 = 127#8 := of_decide_eq_true h
      have hbits : bits = 127#8 ++ bits.extractLsb' 0 24 := by
        rw [← hhead, BitVec.extractLsb'_append_extractLsb'_eq_extractLsb' (by rfl)]
        exact BitVec.extractLsb'_eq_self.symm
      rw [hbits]
      exact .v4 _
    | v6 bits =>
      intro h
      have hbits : bits = 1#128 := of_decide_eq_true h
      rw [hbits]
      exact .v6
  · rintro (rest | _)
    · exact decide_eq_true BitVec.extractLsb'_append_eq_left
    · rfl

theorem canonical_mapped (bits : BitVec 32) : (mapped bits).canonical = .v4 bits := by
  unfold mapped canonical
  dsimp only
  rw [BitVec.extractLsb'_append_eq_left, if_pos rfl, BitVec.extractLsb'_append_eq_right]

/-- An address is canonical, or it is the mapped form of its canonical form. -/
theorem canonical_cases (ip : IpAddress) :
    ip.canonical = ip ∨ ∃ low, ip.canonical = .v4 low ∧ ip = mapped low := by
  cases ip with
  | v4 bits => exact Or.inl rfl
  | v6 bits =>
    by_cases hhead : bits.extractLsb' 32 96 = mappedHead
    · refine Or.inr ⟨bits.extractLsb' 0 32, if_pos hhead, ?_⟩
      rw [mapped, ← hhead, BitVec.extractLsb'_append_extractLsb'_eq_extractLsb' (by rfl)]
      exact congrArg IpAddress.v6 BitVec.extractLsb'_eq_self.symm
    · exact Or.inl (if_neg hhead)

/-- Two addresses are forms of one address exactly if they have the same canonical form. -/
theorem alike_iff {ip ip' : IpAddress} : Alike ip ip' ↔ ip.canonical = ip'.canonical := by
  constructor
  · rintro (_ | bits | bits)
    · rfl
    · exact (canonical_mapped bits).symm
    · exact canonical_mapped bits
  · intro h
    rcases ip.canonical_cases with hself | ⟨low, hlow, rfl⟩
    · rcases ip'.canonical_cases with hself' | ⟨low', hlow', rfl⟩
      · rw [hself, hself'] at h
        rw [h]
        exact .refl _
      · rw [hself, hlow'] at h
        rw [h]
        exact .mapped low'
    · rcases ip'.canonical_cases with hself' | ⟨low', hlow', rfl⟩
      · rw [hlow, hself'] at h
        rw [← h]
        exact .unmapped low
      · rw [hlow, hlow'] at h
        cases h
        exact .refl _

end Net.IpAddress

/-! ## Classes -/

namespace PeerList

open Net

variable {peers peers' : PeerList} {remote remote' : SocketAddress}

/-- One change of a list of addresses that leaves it as it is but for the forms, the order and the number
of times in which they are listed. -/
inductive Rewritten : List IpAddress → List IpAddress → Prop
  /-- The addresses are reordered. -/
  | reordered {ips ips' : List IpAddress} (h : ips.Perm ips') : Rewritten ips ips'
  /-- An address is listed once more. -/
  | repeated {ips : List IpAddress} {ip : IpAddress} (h : ip ∈ ips) : Rewritten ips (ip :: ips)
  /-- An address is listed in another form. -/
  | replaced (before after : List IpAddress) {ip ip' : IpAddress} (h : ip.Alike ip') :
    Rewritten (before ++ ip :: after) (before ++ ip' :: after)

/-- The same canonical forms are listed after any number of changes. -/
theorem mem_canonical_of_rewritten {ips ips' : List IpAddress}
    (h : Relation.EqvGen Rewritten ips ips') (form : IpAddress) :
    form ∈ ips.map IpAddress.canonical ↔ form ∈ ips'.map IpAddress.canonical := by
  induction h with
  | refl ips => rfl
  | symm ips ips' _ ih => exact ih.symm
  | trans ips between ips' _ _ ih ih' => exact ih.trans ih'
  | rel ips ips' hchange =>
    cases hchange with
    | reordered hperm => exact (hperm.map IpAddress.canonical).mem_iff
    | repeated hmem =>
      rw [List.map_cons, List.mem_cons]
      refine ⟨Or.inr, ?_⟩
      rintro (rfl | hform)
      · exact List.mem_map_of_mem hmem
      · exact hform
    | replaced before after halike =>
      rw [List.map_append, List.map_cons, IpAddress.alike_iff.mp halike, List.map_append, List.map_cons]

theorem contains_iff {ip : IpAddress} :
    peers.contains ip = true ↔ ip.canonical ∈ peers.addresses.map IpAddress.canonical := by
  unfold contains
  rw [List.contains_iff_mem]

theorem classify_eq_loopback_iff :
    peers.classify remote = .loopback ↔ remote.ip.canonical.isLoopback = true := by
  unfold classify
  split
  · exact iff_of_true rfl ‹_›
  · refine iff_of_false ?_ ‹_›
    split <;> exact nofun

theorem classify_eq_peer_iff :
    peers.classify remote = .peer ↔
      remote.ip.canonical.isLoopback = false ∧ peers.contains remote.ip = true := by
  unfold classify
  split
  · next hhost => simp [hhost]
  · next hhost =>
    rw [Bool.not_eq_true] at hhost
    split
    · next hpeer => simp [hhost, hpeer]
    · next hpeer => simp [hhost, hpeer]

/-- The class is decided by canonical forms. -/
theorem classify_congr
    (hpeers : ∀ form, form ∈ peers.addresses.map IpAddress.canonical ↔
      form ∈ peers'.addresses.map IpAddress.canonical)
    (hremote : remote.ip.canonical = remote'.ip.canonical) :
    peers.classify remote = peers'.classify remote' := by
  have hcontains : peers.contains remote.ip = peers'.contains remote'.ip := by
    rw [Bool.eq_iff_iff, contains_iff, contains_iff, hremote]
    exact hpeers _
  unfold classify
  rw [hremote, hcontains]

end PeerList

/-! ## Requests -/

namespace Http

variable {peers : PeerList} {request : Request} {endpoint : Endpoint}

theorem Endpoint.decode_of_not_mem {method : Method} {query : List UInt8} {body : ByteArray}
    (h : method ∉ endpoint.methods) :
    endpoint.decode method query body = .error (.wrongMethod endpoint.methods) := by
  cases endpoint <;> cases method <;> first | rfl | exact absurd (by simp [methods]) h

/-- An endpoint forbids nothing to a request that it has let in. -/
theorem Endpoint.decode_ne_forbidden {method : Method} {query : List UInt8} {body : ByteArray}
    (allowed : Option (List Method)) :
    endpoint.decode method query body ≠ .error (.forbidden allowed) := by
  intro h
  by_cases hmethod : method ∈ endpoint.methods
  · rcases of_decode_error hmethod h with hplainly | ⟨fault, hfault⟩
    · cases hplainly
    · cases hfault
  · rw [decode_of_not_mem hmethod] at h
    cases h

/-- The access check refuses a request exactly if the endpoint is not open to its class. -/
theorem Request.forbidden_iff (hpath : Endpoint.ofPath? request.target.path = some endpoint) :
    (∃ allowed, request.decode peers = .error (.forbidden allowed)) ↔
      endpoint.isOpenTo (peers.access request.tag request.remote) = false := by
  unfold decode
  rw [hpath]
  dsimp only
  rw [endpoint.admits_eq]
  cases endpoint.isOpenTo (peers.access request.tag request.remote) with
  | true =>
    refine iff_of_false ?_ nofun
    rintro ⟨allowed, hforbidden⟩
    exact Endpoint.decode_ne_forbidden allowed hforbidden
  | false => exact iff_of_true ⟨_, rfl⟩ rfl

/-- A request is answered as if it carried its class as a tag. -/
theorem Request.answer_tagged (db : Database) :
    request.answer peers db =
      ({ request with tag := some (peers.access request.tag request.remote) } : Request).answer
        peers db := rfl

/--
A connection is of the class of the host exactly if the canonical form of the remote address is one by
which a host knows itself, whether it is listed as a peer or not. Any other connection is of the class of
peers exactly if an address with the same canonical form is listed, that is, if the list contains the
address, and it is untrusted exactly if none is.

The class stays the same if addresses of the list or the remote address are given in their other form, if
the list is reordered or repeats addresses, and whatever the port and the scope are. It is never the class
of the control socket.

A request that is tagged with a class goes by this class, and one that is not goes by the class of its
connection: the access check refuses it exactly if the endpoint is not open to the class, and it is
answered as a request with this tag.
-/
theorem connection_class (peers : PeerList) (remote : Net.SocketAddress) :
    (peers.classify remote = .loopback ↔ remote.ip.canonical.IsHost) ∧
    (¬ remote.ip.canonical.IsHost →
      (peers.classify remote = .peer ↔
        ∃ peer ∈ peers.addresses, peer.canonical = remote.ip.canonical) ∧
      (peers.classify remote = .peer ↔ peers.contains remote.ip = true) ∧
      (peers.classify remote = .untrusted ↔
        ∀ peer ∈ peers.addresses, peer.canonical ≠ remote.ip.canonical)) ∧
    (∀ (peers' : PeerList) (remote' : Net.SocketAddress),
      Relation.EqvGen PeerList.Rewritten peers.addresses peers'.addresses →
      remote.ip.Alike remote'.ip → peers'.classify remote' = peers.classify remote) ∧
    peers.classify remote ≠ .socket ∧
    ∀ (request : Request) (access : Access),
      request.tag = some access ∨
        request.tag = none ∧ request.remote = some remote ∧ access = peers.classify remote →
      (∀ endpoint, Endpoint.ofPath? request.target.path = some endpoint →
        ((∃ allowed, request.decode peers = .error (.forbidden allowed)) ↔
          endpoint.isOpenTo access = false)) ∧
      ∀ db, request.answer peers db =
        ({ request with tag := some access } : Request).answer peers db := by
  have hhost : peers.classify remote = .loopback ↔ remote.ip.canonical.IsHost :=
    PeerList.classify_eq_loopback_iff.trans Net.IpAddress.isLoopback_iff
  have hlisted : peers.contains remote.ip = true ↔
      ∃ peer ∈ peers.addresses, peer.canonical = remote.ip.canonical :=
    PeerList.contains_iff.trans List.mem_map
  have hsocket : peers.classify remote ≠ .socket := by
    unfold PeerList.classify
    split
    · exact nofun
    · split <;> exact nofun
  refine ⟨hhost, ?_, ?_, hsocket, ?_⟩
  · intro hother
    have hremote : remote.ip.canonical.isLoopback = false := by
      rw [← Net.IpAddress.isLoopback_iff, Bool.not_eq_true] at hother
      exact hother
    have hpeer : peers.classify remote = .peer ↔ peers.contains remote.ip = true :=
      PeerList.classify_eq_peer_iff.trans (and_iff_right hremote)
    refine ⟨hpeer.trans hlisted, hpeer, ?_⟩
    -- three of the four classes are known, so the fourth is the rest
    have hrest : peers.classify remote = .untrusted ↔ peers.classify remote ≠ .peer := by
      have hne := (not_congr hhost).mpr hother
      cases hclass : peers.classify remote <;> simp_all
    rw [hrest, ne_eq, hpeer, hlisted]
    simp
  · intro peers' remote' hpeers hremote
    refine PeerList.classify_congr (fun form => ?_) (Net.IpAddress.alike_iff.mp hremote).symm
    exact (PeerList.mem_canonical_of_rewritten hpeers form).symm
  · intro request access hclass
    have haccess : peers.access request.tag request.remote = access := by
      rcases hclass with htag | ⟨htag, hremote, rfl⟩
      · rw [htag]
        rfl
      · rw [htag, hremote]
        rfl
    refine ⟨fun endpoint hpath => ?_, fun db => ?_⟩
    · rw [Request.forbidden_iff hpath, haccess]
    · rw [← haccess]
      exact request.answer_tagged db

/-- An untagged request from an address. -/
def fromAddress (remote : Net.SocketAddress) (method : Method) (path body : String) : Request :=
  ⟨method, ⟨path.toUTF8.data.toList, []⟩, body.toUTF8, none, some remote⟩

/-- The peer 10.0.0.2 is listed in its mapped form, and so is the address 127.0.0.1 of the host. The host
is no peer all the same. The peer is one under either form, also when the list names it twice, and is let
in where gates are listed. -/
theorem connection_class_mapped :
    let host : BitVec 32 := 0x7F000001#32
    let peer : BitVec 32 := 0x0A000002#32
    let peers : PeerList := ⟨[.mapped peer, .mapped host]⟩
    let peers' : PeerList := ⟨[.mapped host, .v4 peer, .mapped peer]⟩
    peers.classify ⟨.v4 host, 1, 0⟩ = .loopback ∧ peers.classify ⟨.v4 peer, 1, 0⟩ = .peer ∧
      peers'.classify ⟨.mapped peer, 2, 3⟩ = peers.classify ⟨.v4 peer, 1, 0⟩ ∧
      ¬ ∃ allowed, (fromAddress ⟨.v4 peer, 1, 0⟩ .get "/1.0/feature-gates" "").decode peers =
        .error (.forbidden allowed) := by
  intro host peer peers peers'
  obtain ⟨hhost, -⟩ := connection_class peers ⟨.v4 host, 1, 0⟩
  obtain ⟨-, hpeer, hsame, -, hrequest⟩ := connection_class peers ⟨.v4 peer, 1, 0⟩
  have hother : ¬ (Net.IpAddress.v4 peer).canonical.IsHost := by
    rw [← Net.IpAddress.isLoopback_iff]
    decide
  have hclass : peers.classify ⟨.v4 peer, 1, 0⟩ = .peer :=
    (hpeer hother).1.mpr ⟨.mapped peer, by decide, by decide⟩
  have hrewritten : Relation.EqvGen PeerList.Rewritten peers.addresses peers'.addresses := by
    have hrepeated : PeerList.Rewritten peers.addresses (.mapped peer :: peers.addresses) :=
      .repeated (by decide)
    have hreplaced : PeerList.Rewritten ([] ++ .mapped peer :: peers.addresses)
        ([] ++ .v4 peer :: peers.addresses) := .replaced [] _ (.unmapped peer)
    have hreordered : PeerList.Rewritten (.v4 peer :: peers.addresses) peers'.addresses :=
      .reordered (by decide)
    exact ((Relation.EqvGen.rel _ _ hrepeated).trans _ _ _ (.rel _ _ hreplaced)).trans _ _ _
      (.rel _ _ hreordered)
  refine ⟨hhost.mpr (Net.IpAddress.isLoopback_iff.mp (by decide)), hclass,
    hsame peers' ⟨.mapped peer, 2, 3⟩ hrewritten (.mapped peer), ?_⟩
  have hgates := (hrequest (fromAddress ⟨.v4 peer, 1, 0⟩ .get "/1.0/feature-gates" "") .peer
    (Or.inr ⟨rfl, rfl, hclass.symm⟩)).1 .gates (by decide +kernel)
  rw [hgates]
  decide

end Http

end ControlPlane
