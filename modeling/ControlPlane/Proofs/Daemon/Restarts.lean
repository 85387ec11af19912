import ControlPlane.Proofs.Daemon.StartUp
import ControlPlane.Proofs.Sync.Convergence

/-!
# A local configuration that outlives its daemons

The local configuration of a node outlives the daemon that writes it, and what the synchronizer
remembers does not: a daemon that starts knows nothing of what the ones before it have set, and nothing
reads a value back. A `Host` keeps beside a site what its local configuration held when the daemon was
started, and `Host.Reached` says how hosts come about, for any number of daemons that start, run cycles
and stop, also in the middle of a cycle.

A key is the daemon's own once one of its calls for the key has succeeded (`Site.HasWritten`). Of such a
key the synchronizer knows what the local configuration holds; any other key is as it was found, and is
not known at all (`Host.Tracked`). So what a daemon before has left, and no gate asks for, stays as it is
(`Host.settled_with_leftovers`).
-/

namespace ControlPlane

namespace Sync

open LocalConfig

/-- Whether a call of the daemon for a key has succeeded. -/
def Site.HasWritten (site : Site) (key : String) : Prop :=
  ∃ attempt ∈ site.history, attempt.call.key = key ∧ attempt.succeeded = true

theorem Site.hasWritten_cycle (site : Site) (occasion : Occasion) (key : String) :
    (site.cycle occasion).2.HasWritten key ↔ site.HasWritten key ∨
      ∃ attempt ∈ site.attempts occasion, attempt.call.key = key ∧ attempt.succeeded = true := by
  have hhistory : (site.cycle occasion).2.history = site.history ++ site.attempts occasion := rfl
  unfold HasWritten
  simp only [hhistory, List.mem_append, or_and_right, exists_or]

/-- A site and what its local configuration held when the daemon was started. -/
structure Host where
  /-- The site. Its history is that of the daemon. -/
  site : Site
  /-- What the local configuration held when the daemon was started. -/
  found : Snapshot

namespace Host

/-- A host whose daemon has just come up over what the local configuration holds. -/
def bootedOn (daemon : Daemon) (config : Snapshot) : Host := ⟨⟨daemon.node, config, []⟩, config⟩

/-- Runs a cycle. -/
def cycle (host : Host) (occasion : Occasion) : Host := { host with site := (host.site.cycle occasion).2 }

/-- What the local configuration holds after some calls of a cycle. -/
def cutOff (host : Host) (occasion : Occasion) (count : Nat) : Snapshot :=
  ((host.site.attempts occasion).take count).foldl Attempt.apply host.site.config

/--
The hosts that come about where failed calls take no effect. The store of an occasion, and the one over
which a daemon starts, may be any: everybody may have changed the gates by then.
-/
inductive Reached : Host → Prop
  /-- A daemon starts for the first time. -/
  | first {settings manners db daemon db'} (hboot : Daemon.boot settings manners db = (.ok daemon, db')) :
    Reached (bootedOn daemon ∅)
  /-- A cycle runs. -/
  | cycle {host : Host} (h : Reached host) {occasion : Occasion}
    (hlands : ∀ call, occasion.lands call = false) : Reached (host.cycle occasion)
  /-- The daemon has stopped and is started anew. -/
  | restarted {host : Host} (h : Reached host) {settings manners db daemon db'}
    (hboot : Daemon.boot settings manners db = (.ok daemon, db')) :
    Reached (bootedOn daemon host.site.config)
  /-- The daemon has stopped in a cycle, after some of its calls, and is started anew. -/
  | cutOff {host : Host} (h : Reached host) {occasion : Occasion}
    (hlands : ∀ call, occasion.lands call = false) (count : Nat) {settings manners db daemon db'}
    (hboot : Daemon.boot settings manners db = (.ok daemon, db')) :
    Reached (bootedOn daemon (host.cutOff occasion count))

/-- An occasion for the cycle that a new member runs before it serves. -/
def entering (node : Node) : Occasion := ⟨true, node.now, node.db, node.view, node.manners, fun _ => false⟩

/-- What a new member does before it serves is a cycle. -/
theorem node_enterCluster {daemon : Daemon} (h : daemon.settings.role = .join) (config : Snapshot) :
    daemon.enterCluster.2.node = ((bootedOn daemon config).cycle (entering daemon.node)).site.node := by
  have hstart : (bootedOn daemon config).site.start (entering daemon.node) = daemon.node := by
    unfold Site.start Node.wait
    rw [entering, bootedOn, Nat.max_self]
  have hcycle : ((bootedOn daemon config).cycle (entering daemon.node)).site.node =
      (((bootedOn daemon config).site.start (entering daemon.node)).runCycle true).2 := rfl
  rw [hcycle, hstart, Daemon.enterCluster, h]

/-! ## The invariant -/

/--
A key that the daemon has written is known as it is, and any other key is as it was found, and not
known.
-/
def Tracked (host : Host) : Prop :=
  ∀ key, host.site.HasWritten key ∧ host.site.config[key]? = host.site.known[key]? ∨
    ¬ host.site.HasWritten key ∧ host.site.config[key]? = host.found[key]? ∧
      host.site.known[key]? = none

variable {host : Host}

theorem tracked_bootedOn {settings : Settings} {manners : List (String × Manner)} {db db' : Database}
    {daemon : Daemon} (hboot : Daemon.boot settings manners db = (.ok daemon, db'))
    (config : Snapshot) : (bootedOn daemon config).Tracked := by
  have hknown : (bootedOn daemon config).site.known = ∅ := by
    unfold Daemon.boot at hboot
    split at hboot
    · cases hboot
    · cases hboot
      rfl
  intro key
  refine .inr ⟨?_, rfl, ?_⟩
  · rintro ⟨attempt, hmem, -⟩
    cases hmem
  · rw [hknown, Std.ExtTreeMap.getElem?_empty]

theorem Tracked.cycle (h : host.Tracked) {occasion : Occasion}
    (hlands : ∀ call, occasion.lands call = false) : (host.cycle occasion).Tracked := by
  intro key
  have hwritten := host.site.hasWritten_cycle occasion key
  show (host.site.cycle occasion).2.HasWritten key ∧ _ ∨ ¬ (host.site.cycle occasion).2.HasWritten key ∧ _
  cases host.site.keyCourse occasion key with
  | untouched hattempts hknown hconfig =>
    have hsame : (host.site.cycle occasion).2.HasWritten key ↔ host.site.HasWritten key := by
      rw [hwritten, or_iff_left]
      rintro ⟨attempt, hmem, hkey, -⟩
      exact hattempts attempt hmem hkey
    rw [hsame]
    simp only [Host.cycle, hknown, hconfig]
    exact h key
  | attempted attempt hmem hkey _ hknown hconfig =>
    have hlanded : attempt.landed = false := by
      obtain ⟨call, -, rfl⟩ := List.mem_map.1 hmem
      exact hlands call
    rw [Attempt.tookEffect, hlanded, Bool.or_false] at hconfig
    cases hs : attempt.succeeded with
    | true =>
      rw [hs, if_pos rfl] at hknown hconfig
      refine .inl ⟨hwritten.2 (.inr ⟨attempt, hmem, hkey, hs⟩), ?_⟩
      exact hconfig.trans hknown.symm
    | false =>
      rw [hs, if_neg Bool.false_ne_true] at hknown hconfig
      -- a cycle makes one call for a key at most, so if it failed no other has succeeded
      have hsame : (host.site.cycle occasion).2.HasWritten key ↔ host.site.HasWritten key := by
        rw [hwritten, or_iff_left]
        rintro ⟨other, hother, hkey', hs'⟩
        have hone : other = attempt := List.inj_on_of_nodup_map (host.site.nodup_attempts occasion)
          hother hmem (hkey'.trans hkey.symm)
        rw [hone, hs] at hs'
        cases hs'
      rw [hsame]
      simp only [Host.cycle, hknown, hconfig]
      exact h key

/-- A start makes a host tracked, and a cycle keeps it so. -/
theorem Reached.tracked (h : Reached host) : host.Tracked := by
  induction h with
  | first hboot => exact tracked_bootedOn hboot ∅
  | cycle _ hlands ih => exact ih.cycle hlands
  | restarted _ hboot => exact tracked_bootedOn hboot _
  | cutOff _ _ _ hboot => exact tracked_bootedOn hboot _

/-! ## What is left over -/

section

variable {wanted : Snapshot} (h : host.Tracked) (hknown : host.site.known = wanted)

include h hknown

theorem Tracked.getElem?_config (key : String) :
    (host.site.HasWritten key → host.site.config[key]? = wanted[key]?) ∧
      (¬ host.site.HasWritten key → host.site.config[key]? = host.found[key]? ∧
        wanted[key]? = none) := by
  rw [← hknown]
  rcases h key with ⟨hw, hconfig⟩ | ⟨hnot, hleft⟩
  · exact ⟨fun _ => hconfig, fun hnot => absurd hw hnot⟩
  · exact ⟨fun hw => absurd hw hnot, fun _ => hleft⟩

/-- What is known is all that the local configuration holds if every other key that was found has been
written. -/
theorem Tracked.config_eq_iff : host.site.config = wanted ↔
    ∀ key ∈ host.found, key ∉ wanted → host.site.HasWritten key := by
  constructor
  · intro heq key hkey hother
    by_contra hnot
    have hkept := ((h.getElem?_config hknown key).2 hnot).1
    rw [heq, Std.ExtTreeMap.getElem?_eq_none hother] at hkept
    rw [Std.ExtTreeMap.mem_iff_isSome_getElem?, ← hkept] at hkey
    cases hkey
  · intro hall
    refine Std.ExtTreeMap.ext_getElem? fun key => ?_
    obtain ⟨hwritten, hfound⟩ := h.getElem?_config hknown key
    by_cases hw : host.site.HasWritten key
    · exact hwritten hw
    · obtain ⟨hconfig, hnone⟩ := hfound hw
      have hnew : key ∉ host.found := by
        intro hkey
        refine hw (hall key hkey ?_)
        rw [Std.ExtTreeMap.mem_iff_isSome_getElem?, hnone]
        exact Bool.false_ne_true
      rw [hconfig, hnone, Std.ExtTreeMap.getElem?_eq_none hnew]

end

/--
However many daemons have come and gone, after a cycle that found nothing to change, or whose calls all
succeeded, every key that the gates want is as they want it. Any other key is gone if a call of this
daemon for it has succeeded, and is else as it was found when this daemon was started. So the local
configuration is as the gates want it if and only if this daemon has written every key that it found and
that the gates do not want. A daemon that found no keys has nothing left over.
-/
theorem settled_with_leftovers (h : Reached host) (next : Occasion)
    (hlands : ∀ call, next.lands call = false) :
    let result := (host.site.cycle next).1
    let site' := (host.site.cycle next).2
    (result = .ok .unchanged ∨ ∃ report, result = .ok (.applied report) ∧ report.failed = []) →
    ∃ gates, next.view.listGates next.db = .ok gates ∧
      (∀ key ∈ Snapshot.ofGates gates, site'.config[key]? = (Snapshot.ofGates gates)[key]?) ∧
      (∀ key ∉ Snapshot.ofGates gates,
        (site'.HasWritten key → site'.config[key]? = none) ∧
        (¬ site'.HasWritten key → site'.config[key]? = host.found[key]?)) ∧
      (site'.config = .ofGates gates ↔
        ∀ key ∈ host.found, key ∉ Snapshot.ofGates gates → site'.HasWritten key) := by
  intro result site' hend
  obtain ⟨gates, hlisted, hwanted, -⟩ := Site.wanted_of_settled hend
  have htracked : (host.cycle next).Tracked := h.tracked.cycle hlands
  refine ⟨gates, hlisted, ?_, ?_, htracked.config_eq_iff hwanted⟩
  · intro key hkey
    obtain ⟨hwritten, hfound⟩ := htracked.getElem?_config hwanted key
    refine hwritten ?_
    by_contra hnot
    rw [Std.ExtTreeMap.mem_iff_isSome_getElem?, (hfound hnot).2] at hkey
    cases hkey
  · intro key hkey
    obtain ⟨hwritten, hfound⟩ := htracked.getElem?_config hwanted key
    refine ⟨fun hw => ?_, fun hnot => (hfound hnot).1⟩
    exact (hwritten hw).trans (Std.ExtTreeMap.getElem?_eq_none hkey)

/-- A daemon leaves two keys behind. The next one finds one of their gates switched and the other one
gone: it brings the first key in line and leaves the second one as it was found. -/
theorem settled_with_leftovers_switched :
    let daemon := Daemon.booted Daemon.joining [] Schema.fresh
    let before := (bootedOn daemon ∅).cycle (Site.finding [⟨"a", true⟩, ⟨"b", true⟩] .succeeds false)
    let next := Site.finding [⟨"a", false⟩] .succeeds false
    let left := ((bootedOn daemon before.site.config).site.cycle next).2
    left.config["feature.a"]? = some false ∧ left.config["feature.b"]? = some true := by
  intro daemon before next left
  have hboot : Daemon.boot Daemon.joining [] .empty = (.ok daemon, Schema.fresh) :=
    Daemon.boot_of_apply (Prod.ext (by decide +kernel : (Schema.apply _).1 = .ok 4) rfl)
  have hreached : (bootedOn daemon before.site.config).Reached :=
    .restarted (.cycle (.first hboot) fun _ => rfl) hboot
  obtain ⟨gates, hlisted, hwanted, hother, -⟩ := settled_with_leftovers hreached next (fun _ => rfl)
    (.inr ⟨⟨["feature.a"], [], []⟩, by decide +kernel⟩)
  injection hlisted with hgates
  rw [← hgates] at hwanted hother
  refine ⟨?_, ?_⟩
  · exact (hwanted "feature.a" (by decide +kernel)).trans (by decide +kernel)
  · have hnot : ¬ left.HasWritten "feature.b" := by
      unfold Site.HasWritten
      decide +kernel
    exact ((hother "feature.b" (by decide +kernel)).2 hnot).trans (by decide +kernel)

/--
A new member sets the key of a gate. The gate is deleted while its daemon is down. The daemon that comes
up lists no gates before it serves, finds that nothing differs from what it knows, which is nothing, and
makes no call. The key of the gate stays in the local configuration.
-/
theorem deleted_gate_is_left_over :
    let adding := Http.fromSocket .post "/1.0/feature-gates"
      "\x7b\"gate-key\":\"a\",\"enabled\":true\x7d"
    let deleting := Http.fromSocket .delete "/1.0/feature-gates/a" ""
    let up (requests : List Http.Request) := Daemon.booted Daemon.joining []
      (Schema.apply (Http.Request.answerAll ⟨[]⟩ requests Schema.fresh).2).2
    let before := (bootedOn (up [adding]) ∅).cycle (entering (up [adding]).node)
    let host := bootedOn (up [adding, deleting]) before.site.config
    let next := entering host.site.node
    host.Reached ∧ (up [adding, deleting]).enterCluster.2.node = (host.cycle next).site.node ∧
      (∀ call, next.lands call = false) ∧ next.view.listGates next.db = .ok [] ∧
      (host.site.cycle next).1 = .ok .unchanged ∧ host.site.callsMade next = [] ∧
      (host.site.cycle next).2.config["feature.a"]? = some true ∧
      (host.site.cycle next).2.config ≠ .ofGates [] := by
  intro adding deleting up before host next
  have hbefore : Daemon.boot Daemon.joining [] (Http.Request.answerAll ⟨[]⟩ [adding] Schema.fresh).2 =
      (.ok (up [adding]), _) :=
    Daemon.boot_of_apply (Prod.ext (by decide +kernel : (Schema.apply _).1 = .ok 4) rfl)
  have hboot : Daemon.boot Daemon.joining []
      (Http.Request.answerAll ⟨[]⟩ [adding, deleting] Schema.fresh).2 =
      (.ok (up [adding, deleting]), _) :=
    Daemon.boot_of_apply (Prod.ext (by decide +kernel : (Schema.apply _).1 = .ok 4) rfl)
  have hkept : (host.site.cycle next).2.config["feature.a"]? = some true := by decide +kernel
  refine ⟨.restarted (.cycle (.first hbefore) fun _ => rfl) hboot, node_enterCluster rfl _,
    fun _ => rfl, by decide +kernel, by decide +kernel, by decide +kernel, hkept, ?_⟩
  intro heq
  rw [heq] at hkept
  exact absurd hkept (by decide +kernel)

end Host

end Sync

end ControlPlane
