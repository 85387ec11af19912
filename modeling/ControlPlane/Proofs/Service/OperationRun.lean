import ControlPlane.Proofs.Store.Commit
import ControlPlane.Service.Operation

/-!
# Operations on intact databases

On an intact database an operation is told by records alone: `run_listStates` to `run_deleteConfig`
say of each operation what it answers and which record it keeps or drops. `Operation.run_intact`
says that the database stays intact, as long as the record that an operation stores fits into a row
(`Operation.Fits`), which holds of every operation that a machine can hold in memory.
-/

namespace ControlPlane

/-- The lock that a request takes on a name. -/
def LockRequest.lockOn (request : LockRequest) (name : String) : Lock :=
  ⟨name, request.token, request.holder⟩

namespace Operation

/-- Whether the record that an operation stores fits into a row. Most operations store none. -/
def Fits : Operation → Prop
  | .putState name _ payload => RecordKind.state.Fits ⟨name, payload⟩
  | .acquire name request => RecordKind.lock.Fits (request.lockOn name)
  | .createGate key enabled => RecordKind.gate.Fits ⟨key, enabled⟩
  | .setConfig key value => RecordKind.config.Fits ⟨key, value⟩
  | _ => True

variable {db : Database}

/-! ## States and locks -/

theorem run_listStates (h : db.Intact) :
    listStates.run db = (.ok (.names ((db.records .state).map (·.name))), db) := by
  show (Reply.names <$> StateLock.listStates db, db) = _
  rw [StateLock.listStates, Query.bind_run, h.query_list .state]
  rfl

theorem run_getState (h : db.Intact) (name : String) :
    (getState name).run db = match db.record? .state name with
      | some entry => (.ok (.state entry), db)
      | none => (.error (.notFound .state name), db) := by
  show (Reply.state <$> StateLock.getState name db, db) = _
  rw [StateLock.getState, h.query_get .state name]
  cases db.record? .state name <;> rfl

theorem run_putState (h : db.Intact) (name token : String) (payload : ByteArray) :
    (putState name token payload).run db =
      match db.record? .lock name with
      | some lock =>
        if lock.token = token then (.ok .done, db.keep .state ⟨name, payload⟩)
        else (.error (.lockConflict lock), db)
      | none => (.ok .done, db.keep .state ⟨name, payload⟩) := by
  have hwrite : (do let _ ← Tx.upsert .state ⟨name, payload⟩ : Tx Unit) db =
      (.ok (), db.keep .state ⟨name, payload⟩) := by
    rw [Tx.bind_run, h.upsert_run .state ⟨name, payload⟩]
    rfl
  show db.commit ((fun _ => Reply.done) <$> StateLock.putState name token payload) = _
  unfold Database.commit
  rw [Tx.map_run, StateLock.putState, Tx.bind_run, h.find_run .lock name]
  cases hl : db.record? .lock name with
  | none =>
    simp only [hwrite]
  | some lock =>
    by_cases ht : lock.token = token
    · simp only [ht, ne_eq, not_true_eq_false, if_false, if_true, hwrite]
    · simp only [ne_eq, ht, not_false_eq_true, if_true, if_false]
      rfl

theorem run_deleteState (h : db.Intact) (name : String) :
    (deleteState name).run db = match db.record? .state name with
      | some _ => (.ok .done, db.drop .state name)
      | none => (.error (.notFound .state name), db) := by
  show db.commit ((fun _ => Reply.done) <$> StateLock.deleteState name) = _
  unfold Database.commit
  rw [Tx.map_run, StateLock.deleteState, h.delete_run .state name]
  cases db.record? .state name <;> rfl

theorem run_listLocks (h : db.Intact) :
    listLocks.run db = (.ok (.locks (db.records .lock)), db) := by
  show (Reply.locks <$> StateLock.listLocks db, db) = _
  rw [StateLock.listLocks, h.query_list .lock]
  rfl

theorem run_getLock (h : db.Intact) (name : String) :
    (getLock name).run db = match db.record? .lock name with
      | some lock => (.ok (.lock lock), db)
      | none => (.error (.notFound .lock name), db) := by
  show (Reply.lock <$> StateLock.getLock name db, db) = _
  rw [StateLock.getLock, h.query_get .lock name]
  cases db.record? .lock name <;> rfl

theorem run_acquire (h : db.Intact) (name : String) (request : LockRequest) :
    (acquire name request).run db = match db.record? .lock name with
      | some lock => (.error (.alreadyLocked lock), db)
      | none => (.ok (.lock (request.lockOn name)), db.keep .lock (request.lockOn name)) := by
  show db.commit (Reply.lock <$> StateLock.acquire name request) = _
  unfold Database.commit
  rw [Tx.map_run, StateLock.acquire, Tx.bind_run, h.find_run .lock name]
  cases hl : db.record? .lock name with
  | some lock => rfl
  | none =>
    have hc := h.create_run .lock (request.lockOn name)
    rw [show RecordKind.lock.key (request.lockOn name) = name from rfl, hl] at hc
    simp only [LockRequest.lockOn] at hc ⊢
    simp only [Tx.bind_run, hc]
    rfl

theorem run_release (h : db.Intact) (name token : String) :
    (release name token).run db = match db.record? .lock name with
      | some lock =>
        if lock.token = token then (.ok .done, db.drop .lock name)
        else (.error (.lockConflict lock), db)
      | none => (.ok .done, db) := by
  show db.commit ((fun _ => Reply.done) <$> StateLock.release name token) = _
  unfold Database.commit
  rw [Tx.map_run, StateLock.release, Tx.bind_run, h.find_run .lock name]
  cases hl : db.record? .lock name with
  | none => rfl
  | some lock =>
    have hd := h.delete_run .lock name
    rw [hl] at hd
    by_cases ht : lock.token = token
    · simp only [ht, ne_eq, not_true_eq_false, if_false, if_true, hd]
    · simp only [ne_eq, ht, not_false_eq_true, if_true, if_false]
      rfl

/-! ## Gates and configuration -/

theorem run_listGates (h : db.Intact) :
    listGates.run db = (.ok (.gates (db.records .gate)), db) := by
  show (Reply.gates <$> GateRegistry.list db, db) = _
  rw [GateRegistry.list, h.query_list .gate]
  rfl

theorem run_getGate (h : db.Intact) (key : String) :
    (getGate key).run db = match db.record? .gate key with
      | some gate => (.ok (.gate gate), db)
      | none => (.error (.notFound .gate key), db) := by
  show (Reply.gate <$> GateRegistry.get key db, db) = _
  rw [GateRegistry.get, h.query_get .gate key]
  cases db.record? .gate key <;> rfl

theorem run_createGate (h : db.Intact) (key : String) (enabled : Bool) :
    (createGate key enabled).run db = match db.record? .gate key with
      | some _ => (.error (.alreadyExists .gate key), db)
      | none => (.ok .done, db.keep .gate ⟨key, enabled⟩) := by
  have hc := h.create_run .gate ⟨key, enabled⟩
  show db.commit ((fun _ => Reply.done) <$> GateRegistry.create key enabled) = _
  unfold Database.commit
  rw [Tx.map_run, GateRegistry.create, hc,
    show RecordKind.gate.key ⟨key, enabled⟩ = key from rfl]
  cases db.record? .gate key <;> rfl

/-- A gate is switched under its own name, since it is kept there. -/
theorem run_updateGate (h : db.Intact) (key : String) (enabled : Bool) :
    (updateGate key enabled).run db = match db.record? .gate key with
      | some _ => (.ok .done, db.keep .gate ⟨key, enabled⟩)
      | none => (.error (.notFound .gate key), db) := by
  show db.commit ((fun _ => Reply.done) <$> GateRegistry.update key enabled) = _
  unfold Database.commit
  rw [Tx.map_run, GateRegistry.update, Tx.bind_run, h.get_run .gate key]
  cases hg : db.record? .gate key with
  | none => rfl
  | some gate =>
    have hkey : gate.key = key := (h.of_record? hg).1
    have hu := h.update_run .gate { gate with enabled := enabled }
    rw [show RecordKind.gate.key { gate with enabled := enabled } = key from hkey, hg] at hu
    simp only [hkey] at hu ⊢
    simp only [hu]

theorem run_deleteGate (h : db.Intact) (key : String) :
    (deleteGate key).run db = match db.record? .gate key with
      | some _ => (.ok .done, db.drop .gate key)
      | none => (.error (.notFound .gate key), db) := by
  show db.commit ((fun _ => Reply.done) <$> GateRegistry.delete key) = _
  unfold Database.commit
  rw [Tx.map_run, GateRegistry.delete, h.delete_run .gate key]
  cases db.record? .gate key <;> rfl

theorem run_getConfig (h : db.Intact) (key : String) :
    (getConfig key).run db = match db.record? .config key with
      | some entry => (.ok (.value entry.value), db)
      | none => (.error (.notFound .config key), db) := by
  show (Reply.value <$> ClusterConfig.get key db, db) = _
  rw [ClusterConfig.get, Query.bind_run, h.query_get .config key]
  cases db.record? .config key <;> rfl

theorem run_setConfig (h : db.Intact) (key value : String) :
    (setConfig key value).run db = (.ok .done, db.keep .config ⟨key, value⟩) := by
  show db.commit ((fun _ => Reply.done) <$> ClusterConfig.set key value) = _
  unfold Database.commit
  rw [Tx.map_run, ClusterConfig.set, Tx.bind_run, h.upsert_run .config ⟨key, value⟩]
  rfl

theorem run_deleteConfig (h : db.Intact) (key : String) :
    (deleteConfig key).run db = match db.record? .config key with
      | some _ => (.ok .done, db.drop .config key)
      | none => (.error (.notFound .config key), db) := by
  show db.commit ((fun _ => Reply.done) <$> ClusterConfig.delete key) = _
  unfold Database.commit
  rw [Tx.map_run, ClusterConfig.delete, h.delete_run .config key]
  cases db.record? .config key <;> rfl

/-! ## What an operation changes -/

/-- The kind of records that an operation may change. -/
def writes : Operation → Option RecordKind
  | .putState .. | .deleteState _ => some .state
  | .acquire .. | .release .. => some .lock
  | .createGate .. | .updateGate .. | .deleteGate _ => some .gate
  | .setConfig .. | .deleteConfig _ => some .config
  | _ => none

/-- The databases that an operation may leave behind. -/
inductive Change (op : Operation) (db : Database) : Database → Prop where
  /-- Nothing changes. -/
  | none : Change op db db
  /-- One record is kept, and it fits if the operation does. -/
  | keep (kind : RecordKind) (record : kind.Carrier) (hwrites : op.writes = some kind)
    (hfits : op.Fits → kind.Fits record) : Change op db (db.keep kind record)
  /-- The record under one key is dropped. -/
  | drop (kind : RecordKind) (key : String) (hwrites : op.writes = some kind) :
    Change op db (db.drop kind key)

/-- An operation keeps or drops one record of the kind that it writes, or it changes nothing. -/
theorem run_change (h : db.Intact) (op : Operation) : op.Change db (op.run db).2 := by
  cases op with
  | listStates | getState | listLocks | getLock | listGates | getGate | getConfig => exact .none
  | putState name token payload =>
    have hkeep : (putState name token payload).Change db (db.keep .state ⟨name, payload⟩) :=
      .keep .state _ rfl id
    rw [run_putState h]
    cases db.record? .lock name with
    | none => exact hkeep
    | some lock =>
      dsimp only
      split
      · exact hkeep
      · exact .none
  | deleteState name =>
    rw [run_deleteState h]
    cases db.record? .state name with
    | none => exact .none
    | some entry => exact .drop .state name rfl
  | acquire name request =>
    rw [run_acquire h]
    cases db.record? .lock name with
    | none => exact .keep .lock (request.lockOn name) rfl id
    | some lock => exact .none
  | release name token =>
    rw [run_release h]
    cases db.record? .lock name with
    | none => exact .none
    | some lock =>
      dsimp only
      split
      · exact .drop .lock name rfl
      · exact .none
  | createGate key enabled =>
    rw [run_createGate h]
    cases db.record? .gate key with
    | none => exact .keep .gate ⟨key, enabled⟩ rfl id
    | some gate => exact .none
  | updateGate key enabled =>
    rw [run_updateGate h]
    cases hg : db.record? .gate key with
    | none => exact .none
    | some gate =>
      -- the name fits since it is the name of a gate that is kept already
      obtain ⟨hkey, hfits, -⟩ := h.of_record? hg
      have hkey' : key.utf8ByteSize < RowForm.lengthLimit := by
        rw [← show gate.key = key from hkey]
        exact hfits
      exact .keep .gate ⟨key, enabled⟩ rfl fun _ => hkey'
  | deleteGate key =>
    rw [run_deleteGate h]
    cases db.record? .gate key with
    | none => exact .none
    | some gate => exact .drop .gate key rfl
  | setConfig key value =>
    rw [run_setConfig h]
    exact .keep .config ⟨key, value⟩ rfl id
  | deleteConfig key =>
    rw [run_deleteConfig h]
    cases db.record? .config key with
    | none => exact .none
    | some entry => exact .drop .config key rfl

/-- The rows of every other kind stay as they are. -/
theorem rowsOf_run_other (h : db.Intact) {op : Operation} {kind : RecordKind}
    (hk : op.writes ≠ some kind) : (op.run db).2.rowsOf kind = db.rowsOf kind := by
  have hne : ∀ {kind' : RecordKind}, op.writes = some kind' → kind' ≠ kind := by
    rintro kind' hw rfl
    exact hk hw
  have hchange := run_change h op
  generalize (op.run db).2 = db' at hchange ⊢
  cases hchange with
  | none => rfl
  | keep kind' record hw _ => exact db.rowsOf_keep_other kind' record (hne hw)
  | drop kind' key hw => exact db.rowsOf_drop_other key (hne hw)

theorem record?_run_other (h : db.Intact) {op : Operation} {kind : RecordKind}
    (hk : op.writes ≠ some kind) (key : String) :
    (op.run db).2.record? kind key = db.record? kind key := by
  rw [Database.record?_eq, rowsOf_run_other h hk, Database.record?_eq]

/-- An operation that fits leaves an intact database intact. -/
theorem run_intact (h : db.Intact) {op : Operation} (hop : op.Fits) : (op.run db).2.Intact := by
  have hchange := run_change h op
  generalize (op.run db).2 = db' at hchange ⊢
  cases hchange with
  | none => exact h
  | keep kind record _ hfits => exact h.keep kind (hfits hop)
  | drop kind key _ => exact h.drop kind key

theorem runAll_intact {ops : List Operation} (hops : ∀ op ∈ ops, op.Fits) :
    ∀ {db : Database}, db.Intact → (runAll ops db).2.Intact := by
  induction ops with
  | nil => exact fun h => h
  | cons op ops ih =>
    intro db h
    exact ih (fun op' ho => hops op' (List.mem_cons_of_mem op ho))
      (run_intact h (hops op List.mem_cons_self))

end Operation

end ControlPlane
