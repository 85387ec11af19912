import ControlPlane.Daemon
import ControlPlane.Proofs.Http.Reaching
import ControlPlane.Proofs.Store.Maps
import ControlPlane.Proofs.Store.Upgrade
import ControlPlane.Proofs.Sync.CycleRun

/-!
# Starting over a store

A daemon that starts brings the schema up to date, which no query can tell, and does what its role asks
for (`Daemon.start`). What a start does to the store and to the local configuration of its node is told
by `Daemon.Started`: the first member records how the cluster is deployed, a new member sets what the
gates ask for, and nothing else happens. So members that come and go leave every answer as it was.
-/

namespace ControlPlane

open LocalConfig Sync

/-- The deployment that a start records, if it records one. -/
def Settings.recorded (settings : Settings) : Option String :=
  match settings.role with
  | .bootstrap => settings.deploymentType
  | .join | .start => none

namespace Daemon

/-- Starts a daemon over a store and lets it do what its role asks for. The store that is left comes with
the daemon, or with the reason why there is none. -/
def start (settings : Settings) (manners : List (String × Manner)) (db : Database) :
    Except DaemonError Daemon × Database :=
  match boot settings manners db with
  | (.error e, db) => (.error e, db)
  | (.ok daemon, _) =>
    match daemon.enterCluster with
    | (.error e, daemon) => (.error e, daemon.node.db)
    | (.ok (), daemon) => (.ok daemon, daemon.node.db)

/-- Starts daemons one after another over a store and returns the store that they leave. -/
def startAll (starts : List (Settings × List (String × Manner))) (db : Database) : Database :=
  starts.foldl (fun db next => (start next.1 next.2 db).2) db

variable {settings : Settings} {manners : List (String × Manner)} {db : Database}

/-- The row under which the deployment is recorded. -/
def deploymentRow (mode : String) : ByteArray :=
  RecordKind.config.encode ⟨ClusterConfig.deploymentType, mode⟩

/-- Whether the store says that nodes manage their configuration themselves. -/
def SelfManaged (db : Database) : Prop :=
  ∃ config, db.record? .config ClusterConfig.deploymentType = some config ∧
    config.value = ClusterConfig.selfManaged

/-- What a start that succeeds has done to the store and to the local configuration. -/
structure Started (settings : Settings) (db : Database) (daemon : Daemon) : Prop where
  /-- No row of another kind has changed. -/
  others : ∀ kind, kind ≠ .config → Query.rows kind daemon.node.db = Query.rows kind db
  /-- Without a deployment to be recorded no value has changed. -/
  config : settings.recorded = none → Query.rows .config daemon.node.db = Query.rows .config db
  /-- A deployment to be recorded stands in its row, and no other value has changed. -/
  recorded : ∀ mode, settings.recorded = some mode → ∃ rows, Query.rows .config db = .ok rows ∧
    Query.rows .config daemon.node.db =
      .ok (rows.insert ClusterConfig.deploymentType (deploymentRow mode))
  /-- Only a new member makes calls, and only if the store does not leave the nodes alone. -/
  silent : settings.role ≠ .join ∨ SelfManaged db → daemon.node.calls = []
  /-- Such a member sets each key of the gates once, and removes none. -/
  mirrored : settings.role = .join → ¬ SelfManaged db → ∀ gates, db.query GateRegistry.list = .ok gates →
    daemon.node.calls.map (·.call) =
      (Snapshot.ofGates gates).toList.map fun entry => .set entry.1 entry.2
  /-- It makes no call if the gates cannot be listed. -/
  unlisted : settings.role = .join → ∀ e, db.query GateRegistry.list = .error e →
    daemon.node.calls = []

/-! ## The first cycle -/

/-- Where nothing is known, every key is set in its turn. -/
theorem calls_between_empty (current : Snapshot) :
    (Patch.between ∅ current).calls = current.toList.map fun entry => .set entry.1 entry.2 := by
  unfold Patch.calls Patch.between
  simp

theorem mode_eq (db : Database) : ClusterView.standard.mode db =
    (·.value) <$> Query.get .config ClusterConfig.deploymentType db := rfl

theorem isSelfManaged_mode (db : Database) :
    isSelfManaged (ClusterView.standard.mode db) = true ↔ SelfManaged db := by
  rw [mode_eq]
  unfold SelfManaged
  constructor
  · intro h
    cases hget : Query.get .config ClusterConfig.deploymentType db with
    | error e =>
      rw [hget] at h
      cases h
    | ok config =>
      rw [hget] at h
      exact ⟨config, Query.get_eq_ok_iff.mp hget, of_decide_eq_true h⟩
  · rintro ⟨config, hconfig, hvalue⟩
    rw [Query.get_eq_ok_iff.mpr hconfig]
    exact decide_eq_true hvalue

/-- A node that is left alone makes no call. -/
theorem calls_of_selfManaged {node : Node} (h : SelfManaged node.db) (hview : node.view = .standard) :
    (node.runCycle true).2.calls = node.calls := by
  have hmode : isSelfManaged (node.view.mode node.db) = true := by
    rw [hview]
    exact (isSelfManaged_mode node.db).mpr h
  have hopen : node.openCycle true =
      (.ended (.ok .unmanaged), { node with memory := node.memory.forced }) := by
    unfold Node.openCycle Memory.openCycle
    rw [if_pos rfl]
    dsimp only
    rw [if_neg (by simp [Memory.isRecent, Memory.forced]), if_pos hmode]
    rfl
  unfold Node.runCycle
  rw [hopen]

/-- A cycle leaves the store as it is. -/
theorem db_runCycle (node : Node) (forced : Bool) : (node.runCycle forced).2.db = node.db := by
  generalize hrun : node.runCycle forced = left
  have hcourse := node.runCycle_course forced
  rw [hrun] at hcourse
  cases hcourse <;> rfl

theorem calls_of_gates {node : Node} (hself : ¬ SelfManaged node.db) (hview : node.view = .standard)
    (hcalls : node.calls = []) (hmemory : node.memory = .initial) {gates : List Gate}
    (hgates : node.db.query GateRegistry.list = .ok gates) :
    (node.runCycle true).2.calls.map (·.call) =
      (Snapshot.ofGates gates).toList.map fun entry => .set entry.1 entry.2 := by
  have hlist : node.view.listGates node.db = .ok gates := by
    rw [hview]
    exact hgates
  have hknown : node.memory.known = ∅ := by
    rw [hmemory]
    rfl
  generalize hrun : node.runCycle true = left
  have hcourse := node.runCycle_course true
  rw [hrun] at hcourse
  rw [← calls_between_empty, ← hknown]
  cases hcourse with
  | debounced h =>
    rw [Node.opening, if_pos rfl] at h
    cases h
  | unmanaged h =>
    rw [hview] at h
    exact absurd ((isSelfManaged_mode node.db).mp h) hself
  | unlisted e h =>
    rw [hlist] at h
    cases h
  | unchanged gates' h hnone =>
    rw [hlist] at h
    cases h
    rw [hnone, hcalls]
    rfl
  | applied gates' h made hmade =>
    rw [hlist] at h
    cases h
    rw [hcalls, List.nil_append, ← hmade]

theorem calls_of_unlisted {node : Node} (hview : node.view = .standard) {e : ClusterError}
    (hgates : node.db.query GateRegistry.list = .error e) :
    (node.runCycle true).2.calls = node.calls := by
  have hlist : node.view.listGates node.db = .error e := by
    rw [hview]
    exact hgates
  generalize hrun : node.runCycle true = left
  have hcourse := node.runCycle_course true
  rw [hrun] at hcourse
  cases hcourse with
  | debounced | unmanaged | unlisted | unchanged => rfl
  | applied gates h =>
    rw [hlist] at h
    cases h

/-! ## Roles -/

/-- The daemon that comes up over a store, before it does what its role asks for. -/
def booted (settings : Settings) (manners : List (String × Manner)) (db : Database) : Daemon :=
  ⟨settings, { Node.initial settings.timing .standard db with manners := manners }⟩

theorem boot_of_apply {version : UInt64} {db' : Database} (h : Schema.apply db = (.ok version, db')) :
    boot settings manners db = (.ok (booted settings manners db'), db') := by
  rw [boot, h]
  rfl

theorem selfManaged_congr {db' : Database} (h : db'.SameRows db) : SelfManaged db' ↔ SelfManaged db := by
  rw [← isSelfManaged_mode, ← isSelfManaged_mode, mode_eq, mode_eq, Query.get_congr (h .config)]

/-- A member that is neither to record nor to take over anything does nothing. -/
theorem started_booted {db' : Database} (h : db'.SameRows db) (hrecorded : settings.recorded = none)
    (hrole : settings.role ≠ .join) : Started settings db (booted settings manners db') where
  others kind _ := h kind
  config _ := h .config
  recorded mode hmode := by
    rw [hrecorded] at hmode
    cases hmode
  silent _ := rfl
  mirrored hjoin := absurd hjoin hrole
  unlisted hjoin := absurd hjoin hrole

theorem perform_of_run {daemon : Daemon} {op : Operation} {reply : Except ClusterError Reply}
    {db' : Database} (h : op.run daemon.node.db = (reply, db')) :
    daemon.perform op = (reply, { daemon with node := { daemon.node with db := db' } }) := by
  rw [perform, h]

/-- The first member records the deployment that it was told. -/
theorem started_recording {db' : Database} (h : db'.SameRows db) {rows : Rows ByteArray}
    (hrows : Query.rows .config db = .ok rows) {mode : String}
    (hrecorded : settings.recorded = some mode) (hrole : settings.role ≠ .join) :
    ∃ daemon, (booted settings manners db').perform (.setConfig ClusterConfig.deploymentType mode) =
        (.ok .done, daemon) ∧ Started settings db daemon := by
  have hrun : (Operation.setConfig ClusterConfig.deploymentType mode).run db' = _ :=
    Operation.run_setConfig_of_rows ((h .config).trans hrows)
  refine ⟨_, perform_of_run hrun, ?_, ?_, ?_, fun _ => rfl, fun hjoin => absurd hjoin hrole,
    fun hjoin => absurd hjoin hrole⟩
  · intro kind hkind
    rw [← h kind]
    exact Query.rows_put_other db' _ (Ne.symm hkind)
  · intro hnone
    rw [hrecorded] at hnone
    cases hnone
  · intro mode' hmode
    obtain rfl : mode = mode' := Option.some.inj (hrecorded.symm.trans hmode)
    exact ⟨rows, hrows, Query.rows_put_same db' .config _⟩

/-- A new member takes over the gates, whatever becomes of its calls. -/
theorem started_joining {db' : Database} (h : db'.SameRows db) (hrole : settings.role = .join) :
    Started settings db { booted settings manners db' with
      node := ((booted settings manners db').node.runCycle true).2 } := by
  have hdb : ((booted settings manners db').node.runCycle true).2.db = db' := db_runCycle _ true
  have hlist : db'.query GateRegistry.list = db.query GateRegistry.list := Query.list_congr (h .gate)
  refine ⟨?_, ?_, ?_, ?_, ?_, ?_⟩
  · intro kind _
    rw [← h kind, hdb]
  · intro _
    rw [← h .config, hdb]
  · intro mode hmode
    rw [Settings.recorded, hrole] at hmode
    cases hmode
  · rintro (hother | hself)
    · exact absurd hrole hother
    · exact calls_of_selfManaged ((selfManaged_congr h).mpr hself) rfl
  · intro _ hself gates hgates
    refine calls_of_gates (fun hself' => hself ((selfManaged_congr h).mp hself')) rfl rfl rfl ?_
    exact hlist.trans hgates
  · intro _ e hgates
    exact calls_of_unlisted rfl (hlist.trans hgates)

/-- What the role asks for succeeds, if only the configuration can be read where it is to be written. -/
theorem started_of_enterCluster {db' : Database} (h : db'.SameRows db)
    (hrows : settings.recorded ≠ none → ∃ rows, Query.rows .config db = .ok rows) :
    ∃ daemon, (booted settings manners db').enterCluster = (.ok (), daemon) ∧
      Started settings db daemon := by
  have hsettings : (booted settings manners db').settings = settings := rfl
  unfold enterCluster
  rw [hsettings]
  cases hrole : settings.role with
  | start =>
    refine ⟨_, rfl, started_booted h (by rw [Settings.recorded, hrole]) ?_⟩
    rw [hrole]
    decide
  | join => exact ⟨_, rfl, started_joining h hrole⟩
  | bootstrap =>
    have hother : settings.role ≠ .join := by
      rw [hrole]
      decide
    cases hdeployment : settings.deploymentType with
    | none =>
      have hrecorded : settings.recorded = none := by
        rw [Settings.recorded, hrole]
        exact hdeployment
      exact ⟨_, rfl, started_booted h hrecorded hother⟩
    | some mode =>
      have hrecorded : settings.recorded = some mode := by
        rw [Settings.recorded, hrole]
        exact hdeployment
      obtain ⟨rows, hrows⟩ := hrows (by rw [hrecorded]; exact Option.some_ne_none mode)
      obtain ⟨daemon, hperform, hstarted⟩ := started_recording h hrows hrecorded hother
      refine ⟨daemon, ?_, hstarted⟩
      dsimp only
      rw [hperform]

/-! ## Starts -/

theorem started_of_apply {version : UInt64} {db' : Database} (happly : Schema.apply db = (.ok version, db'))
    (hrows : settings.recorded ≠ none → ∃ rows, Query.rows .config db = .ok rows) :
    ∃ daemon, start settings manners db = (.ok daemon, daemon.node.db) ∧
      Started settings db daemon := by
  have hsame : db'.SameRows db := by
    have h := Schema.sameRows_apply db
    rw [happly] at h
    exact h
  obtain ⟨daemon, henter, hstarted⟩ := started_of_enterCluster hsame hrows
  refine ⟨daemon, ?_, hstarted⟩
  rw [start, boot_of_apply happly]
  dsimp only
  rw [henter]

/-- A start that records nothing leaves the rows as they are, also if it fails. -/
theorem sameRows_start (hrecorded : settings.recorded = none) :
    (start settings manners db).2.SameRows db := by
  rcases happly : Schema.apply db with ⟨fault | version, db'⟩
  · have hstart : start settings manners db = (.error (.storage fault), db') := by
      rw [start, boot, happly]
    have hsame := Schema.sameRows_apply db
    rw [happly] at hsame
    rw [hstart]
    exact hsame
  · obtain ⟨daemon, hstart, hstarted⟩ := started_of_apply happly fun h => absurd hrecorded h
    rw [hstart]
    intro kind
    by_cases hkind : kind = .config
    · rw [hkind]
      exact hstarted.config hrecorded
    · exact hstarted.others kind hkind

theorem sameRows_startAll {starts : List (Settings × List (String × Manner))}
    (h : ∀ next ∈ starts, next.1.recorded = none) : (startAll starts db).SameRows db := by
  induction starts generalizing db with
  | nil => exact fun _ => rfl
  | cons next starts ih =>
    have hrest : (startAll starts (start next.1 next.2 db).2).SameRows (start next.1 next.2 db).2 :=
      ih fun later hmem => h later (List.mem_cons_of_mem next hmem)
    exact hrest.trans (sameRows_start (h next List.mem_cons_self))

/-- The calls of a start are in the order of the bytes of their keys. -/
theorem Started.ascending {daemon : Daemon} (h : Started settings db daemon) :
    daemon.node.calls.Pairwise fun call later =>
      Utf8.bytes call.call.key < Utf8.bytes later.call.key := by
  by_cases hsilent : settings.role ≠ .join ∨ SelfManaged db
  · rw [h.silent hsilent]
    exact .nil
  · rw [not_or, not_not] at hsilent
    obtain ⟨hjoin, hself⟩ := hsilent
    cases hgates : db.query GateRegistry.list with
    | error e =>
      rw [h.unlisted hjoin e hgates]
      exact .nil
    | ok gates =>
      have hcalls : (daemon.node.calls.map (·.call)).Pairwise fun call later =>
          Utf8.bytes call.key < Utf8.bytes later.key := by
        rw [h.mirrored hjoin hself gates hgates, List.pairwise_map]
        exact Rows.toList_ascending (Snapshot.ofGates gates)
      rw [List.pairwise_map] at hcalls
      exact hcalls

/--
Over every database that can be read, whichever updates of the schema it has, a start succeeds whatever
becomes of the calls, and it has done what `Started` says: the rows of all kinds are as they were, but
for the deployment that the first member was told; calls are made by a new member alone, and only where
nodes do not manage their configuration themselves, and they set each key that the gates ask for once,
in the order of the bytes of the keys. Over any database a start that records nothing leaves all rows as
they are. So members that come back or come in, however many and in whatever order, leave every answer
as it was, to reads and to all that is asked afterwards.
-/
theorem start_up :
    (∀ (settings : Settings) (manners : List (String × Manner)) (db : Database), Schema.Legible db →
      ∃ daemon, start settings manners db = (.ok daemon, daemon.node.db) ∧ Started settings db daemon ∧
        daemon.node.calls.Pairwise fun call later =>
          Utf8.bytes call.call.key < Utf8.bytes later.call.key) ∧
    (∀ (settings : Settings) (manners : List (String × Manner)) (db : Database),
      settings.recorded = none → (start settings manners db).2.SameRows db) ∧
    ∀ (starts : List (Settings × List (String × Manner))) (db : Database),
      (∀ next ∈ starts, next.1.role ∈ [Role.start, .join]) →
      ∀ (peers : PeerList) (requests : List Http.Request),
        (Http.Request.answerAll peers requests (startAll starts db)).1 =
          (Http.Request.answerAll peers requests db).1 := by
  refine ⟨?_, fun _ _ _ => sameRows_start, ?_⟩
  · intro settings manners db h
    obtain ⟨version, db', happly⟩ := h.apply
    obtain ⟨daemon, hstart, hstarted⟩ := started_of_apply happly fun _ => h.rows .config
    exact ⟨daemon, hstart, hstarted, hstarted.ascending⟩
  · intro starts db hroles peers requests
    have hrecorded : ∀ next ∈ starts, next.1.recorded = none := by
      intro next hmem
      have hrole : next.1.role = .start ∨ next.1.role = .join := by simpa using hroles next hmem
      rcases hrole with hrole | hrole <;> rw [Settings.recorded, hrole]
    refine (Http.Request.answerAll_respects (fun request _ op _ => ?_) (sameRows_startAll hrecorded)).1
    exact op.kept_of_touches fun kind _ => Database.sameRows_keepsRows kind

/-- The settings of a new member. -/
def joining : Settings := { Settings.standard with role := .join }

/-- A new member starts over a store with two gates and makes a call for each, though all calls fail. It
leaves every answer as it was. -/
theorem start_up_joining :
    let adding (key : String) := Http.fromSocket .post "/1.0/feature-gates"
      ("\x7b\"gate-key\":\"" ++ key ++ "\",\"enabled\":true\x7d")
    let db := (Http.Request.answerAll ⟨[]⟩ [adding "b", adding "a"] Schema.fresh).2
    let manners := [("feature.a", Manner.fails), ("feature.b", Manner.hangs)]
    (∃ daemon, start joining manners db = (.ok daemon, daemon.node.db) ∧
      daemon.node.calls.map (·.call) = [.set "feature.a" true, .set "feature.b" true]) ∧
    ∀ requests, (Http.Request.answerAll ⟨[]⟩ requests (startAll [(joining, manners)] db)).1 =
      (Http.Request.answerAll ⟨[]⟩ requests db).1 := by
  intro adding db manners
  obtain ⟨hstarts, -, hanswers⟩ := start_up
  refine ⟨?_, ?_⟩
  · have harrive : ∀ request ∈ [adding "b", adding "a"], request.Arrives := by
      intro request hmem
      simp only [List.mem_cons, List.not_mem_nil, or_false] at hmem
      rcases hmem with rfl | rfl <;> exact ⟨"/1.0/feature-gates", by decide +kernel⟩
    have hrows (kind : RecordKind) : Query.rows kind db = .ok (db.rowsOf kind) :=
      (Http.Served.fresh.answerAll ⟨[]⟩ harrive).intact.query_rows kind
    have hlegible : Schema.Legible db := ⟨⟨4, by decide +kernel⟩, fun kind => ⟨_, hrows kind⟩⟩
    obtain ⟨daemon, hstart, hstarted, -⟩ := hstarts joining manners db hlegible
    refine ⟨daemon, hstart, ?_⟩
    have hnone : db.record? .config ClusterConfig.deploymentType = none := by decide +kernel
    have hself : ¬ SelfManaged db := by
      rintro ⟨config, hconfig, -⟩
      rw [hnone] at hconfig
      cases hconfig
    have hgates : db.query GateRegistry.list = .ok [⟨"a", true⟩, ⟨"b", true⟩] := by
      decide +kernel
    rw [hstarted.mirrored rfl hself _ hgates]
    decide +kernel
  · exact hanswers [(joining, manners)] db (by decide) ⟨[]⟩

end Daemon

end ControlPlane
