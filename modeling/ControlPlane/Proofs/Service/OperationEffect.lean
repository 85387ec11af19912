import ControlPlane.Proofs.Service.OperationRun
import ControlPlane.Proofs.Store.RowChange

/-!
# What operations change

On any database, intact or not, an operation that fails changes nothing, and so does one that reads.
For each of the others there is a lemma that says what it has changed if it succeeds: one row, under
the key that the operation names. Switching a gate is different in this: the row that changes is the
one under the key that the gate carries, which is the key named if the gate stands in its place.
-/

namespace ControlPlane

variable {db db' : Database} {reply : Reply} {kind : RecordKind} {key : String}

theorem Query.record?_of_rows {rows : Rows ByteArray} {found : Option kind.Carrier}
    (h : Query.rows kind db = .ok rows) (hfound : decodeRow? kind rows[key]? = .ok found) :
    db.record? kind key = found := by
  rw [Database.record?, row?_of_rows h]
  cases hrow : rows[key]? with
  | none =>
    rw [hrow] at hfound
    cases hfound
    rfl
  | some row =>
    rw [hrow, decodeRow?, decodeRow] at hfound
    rw [Option.bind_some]
    cases hdecode : kind.decode row with
    | error fault =>
      rw [hdecode] at hfound
      cases hfound
    | ok record =>
      rw [hdecode] at hfound
      cases hfound
      rfl

theorem eq_none_of_decodeRow? {row : Option ByteArray} (h : decodeRow? kind row = .ok none) :
    row = none := by
  cases row with
  | none => rfl
  | some row =>
    rw [decodeRow?] at h
    cases hdecode : decodeRow kind row with
    | error e =>
      rw [hdecode] at h
      cases h
    | ok record =>
      rw [hdecode] at h
      cases h

/-- A query for a record yields the record that stands under the key. -/
theorem Query.get_eq_ok_iff {record : kind.Carrier} :
    Query.get kind key db = .ok record ↔ db.record? kind key = some record := by
  rw [Query.get_eq_fst]
  constructor
  · intro h
    have hget : Tx.get kind key db = (.ok record, (Tx.get kind key db).2) := Prod.ext h rfl
    obtain ⟨-, rows, hrows, hfound⟩ := Tx.of_get hget
    exact Query.record?_of_rows hrows hfound
  · intro h
    rw [Database.record?, Option.bind_eq_some_iff] at h
    obtain ⟨row, hrow, hdecode⟩ := h
    obtain ⟨rows, hrows⟩ : ∃ rows, Query.rows kind db = .ok rows := by
      unfold Database.row? at hrow
      split at hrow
      · next rows htable => exact ⟨rows, by rw [Query.rows, Database.bytes?, htable]; rfl⟩
      · cases hrow
    rw [row?_of_rows hrows] at hrow
    have hfound : decodeRow? kind rows[key]? = .ok (some record) := by
      rw [hrow, decodeRow?, decodeRow]
      cases hd : kind.decode row with
      | error fault =>
        rw [hd] at hdecode
        cases hdecode
      | ok record' =>
        rw [hd] at hdecode
        cases hdecode
        rfl
    rw [Tx.get_of_rows hrows, hfound]

/-- A record that is found in a database fits into a row, for it was read from one. -/
theorem Database.fits_of_record? {record : kind.Carrier} (h : db.record? kind key = some record) :
    kind.Fits record := by
  rw [record?, Option.bind_eq_some_iff] at h
  obtain ⟨row, -, hrow⟩ := h
  cases hdecode : kind.decode row with
  | error fault =>
    rw [hdecode] at hrow
    cases hrow
  | ok record' =>
    rw [hdecode] at hrow
    cases hrow
    exact kind.fits_of_decode hdecode

theorem Database.of_commit {α : Type} {tx : Tx α} {value : α}
    (h : db.commit tx = (.ok value, db')) : tx db = (.ok value, db') := by
  unfold commit at h
  rcases htx : tx db with ⟨e | value', left⟩
  · rw [htx] at h
    cases h
  · rw [htx] at h
    exact h

namespace Operation

open Database

/-- What a transaction has done if its operation succeeds. -/
theorem of_run_commit {op : Operation} {α : Type} {f : α → Reply} {tx : Tx α}
    (hplan : op.plan = .commit (f <$> tx)) (h : op.run db = (.ok reply, db')) :
    ∃ result, tx db = (.ok result, db') ∧ f result = reply := by
  unfold run at h
  rw [hplan] at h
  exact Tx.of_map (of_commit h)

/-- An operation that fails leaves the database as it was. -/
theorem run_error {op : Operation} {e : ClusterError} (h : (op.run db).1 = .error e) :
    (op.run db).2 = db := by
  unfold run at h ⊢
  cases hplan : op.plan with
  | query q => rfl
  | commit tx =>
    rw [hplan] at h
    dsimp only at h ⊢
    unfold commit at h ⊢
    rcases htx : tx db with ⟨e' | value, left⟩
    · rfl
    · rw [htx] at h
      cases h

/-! ## States and locks -/

theorem writes_of_putState {name token : String} {payload : ByteArray}
    (h : (putState name token payload).run db = (.ok reply, db'))
    (hfits : RecordKind.state.Fits ⟨name, payload⟩) : Writes .state ⟨name, payload⟩ db db' := by
  obtain ⟨result, h, -⟩ := of_run_commit rfl h
  obtain ⟨found, db₁, hfind, h⟩ := Tx.of_bind h
  obtain ⟨rfl, -⟩ := Tx.of_find hfind
  have hwrite : ∀ {result : Unit}, (do let _ ← Tx.upsert .state ⟨name, payload⟩ : Tx Unit)
      (db.opening .lock) = (.ok result, db') → Writes .state ⟨name, payload⟩ db db' := by
    intro result h
    obtain ⟨replaced, db₂, hupsert, h⟩ := Tx.of_bind h
    cases h
    exact (Tx.writes_of_upsert hupsert hfits).of_opening
  cases found with
  | none => exact hwrite h
  | some lock =>
    dsimp only at h
    split at h
    · obtain ⟨_, _, hthrow, -⟩ := Tx.of_bind h
      cases hthrow
    · exact hwrite h

theorem removes_of_deleteState {name : String}
    (h : (deleteState name).run db = (.ok reply, db')) :
    db.row? RecordKind.state.table name ≠ none ∧ Removes .state name db db' := by
  obtain ⟨result, h, -⟩ := of_run_commit rfl h
  exact Tx.removes_of_delete h

theorem writes_of_acquire {name : String} {request : LockRequest}
    (h : (acquire name request).run db = (.ok reply, db'))
    (hfits : RecordKind.lock.Fits (request.lockOn name)) :
    db.row? RecordKind.lock.table name = none ∧ Writes .lock (request.lockOn name) db db' := by
  obtain ⟨result, h, -⟩ := of_run_commit rfl h
  obtain ⟨found, db₁, hfind, h⟩ := Tx.of_bind h
  obtain ⟨rfl, rows, hrows, -⟩ := Tx.of_find hfind
  cases found with
  | some lock => cases h
  | none =>
    obtain ⟨_, db₂, hcreate, h⟩ := Tx.of_bind h
    cases h
    obtain ⟨hfree, hwrites⟩ := Tx.writes_of_create hcreate hfits
    rw [Query.row?_opening hrows] at hfree
    exact ⟨hfree, hwrites.of_opening⟩

theorem removes_of_release {name token : String}
    (h : (release name token).run db = (.ok reply, db')) : Removes .lock name db db' := by
  obtain ⟨result, h, -⟩ := of_run_commit rfl h
  obtain ⟨found, db₁, hfind, h⟩ := Tx.of_bind h
  obtain ⟨rfl, rows, hrows, hfound⟩ := Tx.of_find hfind
  cases found with
  | none =>
    cases h
    refine ⟨changesRow_opening hrows name, ?_⟩
    rw [Query.row?_opening hrows, Query.row?_of_rows hrows]
    exact eq_none_of_decodeRow? hfound
  | some lock =>
    dsimp only at h
    split at h
    · cases h
    · exact (Tx.removes_of_delete h).2.of_opening

/-! ## Gates and configuration -/

theorem writes_of_createGate {enabled : Bool}
    (h : (createGate key enabled).run db = (.ok reply, db'))
    (hfits : RecordKind.gate.Fits ⟨key, enabled⟩) :
    db.row? RecordKind.gate.table key = none ∧ Writes .gate ⟨key, enabled⟩ db db' := by
  obtain ⟨result, h, -⟩ := of_run_commit rfl h
  exact Tx.writes_of_create h hfits

/-- The gate found is written back under the key that it carries. -/
theorem writes_of_updateGate {enabled : Bool}
    (h : (updateGate key enabled).run db = (.ok reply, db')) :
    ∃ gate, db.record? .gate key = some gate ∧
      Writes .gate { gate with enabled := enabled } db db' := by
  obtain ⟨result, h, -⟩ := of_run_commit rfl h
  obtain ⟨gate, db₁, hget, h⟩ := Tx.of_bind h
  obtain ⟨rfl, rows, hrows, hfound⟩ := Tx.of_get hget
  have hgate : db.record? .gate key = some gate := Query.record?_of_rows hrows hfound
  -- only the key counts, and it was read from a row
  have hfits : RecordKind.gate.Fits gate := fits_of_record? hgate
  exact ⟨gate, hgate, (Tx.writes_of_update h hfits).of_opening⟩

theorem removes_of_deleteGate (h : (deleteGate key).run db = (.ok reply, db')) :
    db.row? RecordKind.gate.table key ≠ none ∧ Removes .gate key db db' := by
  obtain ⟨result, h, -⟩ := of_run_commit rfl h
  exact Tx.removes_of_delete h

theorem writes_of_setConfig {value : String}
    (h : (setConfig key value).run db = (.ok reply, db'))
    (hfits : RecordKind.config.Fits ⟨key, value⟩) : Writes .config ⟨key, value⟩ db db' := by
  obtain ⟨result, h, -⟩ := of_run_commit rfl h
  obtain ⟨replaced, db₁, hupsert, h⟩ := Tx.of_bind h
  cases h
  exact Tx.writes_of_upsert hupsert hfits

theorem removes_of_deleteConfig (h : (deleteConfig key).run db = (.ok reply, db')) :
    db.row? RecordKind.config.table key ≠ none ∧ Removes .config key db db' := by
  obtain ⟨result, h, -⟩ := of_run_commit rfl h
  exact Tx.removes_of_delete h

/-! What is written, where the rows are given. -/

theorem run_createGate_of_rows {enabled : Bool} {rows : Rows ByteArray}
    (h : Query.rows .gate db = .ok rows) (hnew : rows[key]? = none) :
    (createGate key enabled).run db = (.ok .done, db.put RecordKind.gate.table
      (.bytes (rows.insert key (RecordKind.gate.encode ⟨key, enabled⟩)))) := by
  have hfree : ¬ rows.contains key := by
    rw [Std.ExtTreeMap.contains_eq_isSome_getElem?, hnew]
    exact Bool.false_ne_true
  have hcreate : GateRegistry.create key enabled db = (.ok (), db.put RecordKind.gate.table
      (.bytes (rows.insert key (RecordKind.gate.encode ⟨key, enabled⟩)))) := by
    rw [GateRegistry.create, Tx.create_of_rows h]
    exact if_neg hfree
  show db.commit ((fun _ => Reply.done) <$> GateRegistry.create key enabled) = _
  rw [Database.commit, Tx.map_run, hcreate]

theorem run_setConfig_of_rows {value : String} {rows : Rows ByteArray}
    (h : Query.rows .config db = .ok rows) :
    (setConfig key value).run db = (.ok .done, db.put RecordKind.config.table
      (.bytes (rows.insert key (RecordKind.config.encode ⟨key, value⟩)))) := by
  have hset : ClusterConfig.set key value db = (.ok (), db.put RecordKind.config.table
      (.bytes (rows.insert key (RecordKind.config.encode ⟨key, value⟩)))) := by
    rw [ClusterConfig.set, Tx.bind_run, Tx.upsert_of_rows h]
    rfl
  show db.commit ((fun _ => Reply.done) <$> ClusterConfig.set key value) = _
  rw [Database.commit, Tx.map_run, hset]

end Operation

end ControlPlane
