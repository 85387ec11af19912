import ControlPlane.Proofs.Store.Intact

/-!
# Transactions on intact databases

On an intact database no step of a transaction fails in the storage engine or on a row that does not
decode. What a step does is then said by the records alone: it answers from `Database.record?` or
`Database.records`, and it leaves the database as it is, keeps a record or drops one.
-/

namespace ControlPlane

/-! ## Sequences of steps -/

theorem Tx.bind_run {α β : Type} (x : Tx α) (f : α → Tx β) (db : Database) :
    (x >>= f) db = match x db with
      | (.ok value, db') => f value db'
      | (.error e, db') => (.error e, db') := by
  have h : (x >>= f) db = match x db with
      | (result, db') => ExceptT.bindCont f result db' := rfl
  rw [h]
  rcases x db with ⟨e | value, db'⟩ <;> rfl

theorem Tx.lift_run {α : Type} (x : Except ClusterError α) (db : Database) :
    (liftM x : Tx α) db = (x, db) := by
  cases x <;> rfl

theorem Tx.map_run {α β : Type} (f : α → β) (x : Tx α) (db : Database) :
    (f <$> x) db = match x db with
      | (.ok value, db') => (.ok (f value), db')
      | (.error e, db') => (.error e, db') := by
  rw [map_eq_pure_bind, Tx.bind_run]
  rfl

theorem Query.bind_run {α β : Type} (x : Query α) (f : α → Query β) (db : Database) :
    (x >>= f) db = x db >>= fun value => f value db := rfl

theorem Query.map_run {α β : Type} (f : α → β) (x : Query α) (db : Database) :
    (f <$> x) db = f <$> x db := rfl

namespace Database.Intact

variable {db : Database} {kind : RecordKind} {key : String}

/-! ## Steps of transactions -/

theorem rows_run (h : db.Intact) (kind : RecordKind) :
    Tx.rows kind db = (.ok (db.rowsOf kind), db) := by
  rw [Tx.rows, h.openBytes kind]

theorem decodeRow?_eq (h : db.Intact) (kind : RecordKind) (key : String) :
    decodeRow? kind (db.rowsOf kind)[key]? = .ok (db.record? kind key) := by
  cases hrow : (db.rowsOf kind)[key]? with
  | none => rw [record?_eq, hrow]; rfl
  | some row =>
    obtain ⟨record, hr, -, hfits, henc⟩ := h.decode_row hrow
    rw [hr, decodeRow?, decodeRow, ← henc, kind.decode_encode hfits]
    rfl

theorem find_run (h : db.Intact) (kind : RecordKind) (key : String) :
    Tx.find kind key db = (.ok (db.record? kind key), db) := by
  rw [Tx.find, Tx.bind_run, h.rows_run kind]
  simp only [Tx.lift_run, h.decodeRow?_eq kind key]

theorem get_run (h : db.Intact) (kind : RecordKind) (key : String) :
    Tx.get kind key db = match db.record? kind key with
      | some record => (.ok record, db)
      | none => (.error (.notFound kind key), db) := by
  rw [Tx.get, Tx.bind_run, h.find_run kind key]
  cases db.record? kind key <;> rfl

theorem list_run (h : db.Intact) (kind : RecordKind) :
    Tx.list kind db = (.ok (db.records kind), db) := by
  rw [Tx.list, Tx.bind_run, h.rows_run kind]
  simp only [Tx.lift_run, h.decodeRows kind]

theorem create_run (h : db.Intact) (kind : RecordKind) (record : kind.Carrier) :
    Tx.create kind record db = match db.record? kind (kind.key record) with
      | some _ => (.error (.alreadyExists kind (kind.key record)), db)
      | none => (.ok (), db.keep kind record) := by
  rw [Tx.create, Tx.bind_run, h.rows_run kind]
  simp only [h.contains_eq kind (kind.key record)]
  cases db.record? kind (kind.key record) <;> rfl

theorem update_run (h : db.Intact) (kind : RecordKind) (record : kind.Carrier) :
    Tx.update kind record db = match db.record? kind (kind.key record) with
      | some _ => (.ok (), db.keep kind record)
      | none => (.error (.notFound kind (kind.key record)), db) := by
  rw [Tx.update, Tx.bind_run, h.rows_run kind]
  simp only [h.contains_eq kind (kind.key record)]
  cases db.record? kind (kind.key record) <;> rfl

theorem upsert_run (h : db.Intact) (kind : RecordKind) (record : kind.Carrier) :
    Tx.upsert kind record db =
      (.ok (db.record? kind (kind.key record)).isSome, db.keep kind record) := by
  rw [Tx.upsert, Tx.bind_run, h.rows_run kind]
  simp only [h.contains_eq kind (kind.key record)]
  rfl

theorem delete_run (h : db.Intact) (kind : RecordKind) (key : String) :
    Tx.delete kind key db = match db.record? kind key with
      | some _ => (.ok (), db.drop kind key)
      | none => (.error (.notFound kind key), db) := by
  rw [Tx.delete, Tx.bind_run, h.rows_run kind]
  simp only [h.contains_eq kind key]
  cases db.record? kind key <;> rfl

/-! ## Queries -/

theorem query_rows (h : db.Intact) (kind : RecordKind) :
    Query.rows kind db = .ok (db.rowsOf kind) := by
  rw [Query.rows, h.bytes? kind]
  rfl

theorem query_find (h : db.Intact) (kind : RecordKind) (key : String) :
    Query.find kind key db = .ok (db.record? kind key) := by
  rw [Query.find, Query.bind_run, h.query_rows kind]
  exact h.decodeRow?_eq kind key

theorem query_get (h : db.Intact) (kind : RecordKind) (key : String) :
    Query.get kind key db = match db.record? kind key with
      | some record => .ok record
      | none => .error (.notFound kind key) := by
  rw [Query.get, Query.bind_run, h.query_find kind key]
  cases db.record? kind key <;> rfl

theorem query_list (h : db.Intact) (kind : RecordKind) :
    Query.list kind db = .ok (db.records kind) := by
  rw [Query.list, Query.bind_run, h.query_rows kind]
  exact h.decodeRows kind

end Database.Intact

end ControlPlane
