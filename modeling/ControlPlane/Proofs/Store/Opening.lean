import ControlPlane.Proofs.Store.Commit

/-!
# Transactions on any database

What a transaction finds in a table is what a query finds there: its rows, none if the table does not
exist, or the error that it holds rows of another type. A transaction besides makes sure that the
table exists (`Database.opening`), which no query can tell. So each step of a transaction is told by
`Query.rows`, whatever the database holds.
-/

namespace ControlPlane

variable {db : Database} {kind kind' : RecordKind} {name : String} {rows : Rows ByteArray}
  {e : ClusterError}

namespace Database

/-- The database in which the table of a kind exists. -/
def opening (db : Database) (kind : RecordKind) : Database :=
  match db.tables[kind.table]? with
  | none => db.put kind.table (.bytes ∅)
  | some _ => db

theorem tables_opening_other (db : Database) (hname : name ≠ kind.table) :
    (db.opening kind).tables[name]? = db.tables[name]? := by
  unfold opening
  split
  · rw [tables_put, if_neg (Ne.symm hname)]
  · rfl

theorem put_put (db : Database) (name : String) (table table' : Table) :
    (db.put name table).put name table' = db.put name table' := by
  unfold put
  congr 1
  apply Std.ExtTreeMap.ext_getElem?
  intro key
  rw [Std.ExtTreeMap.getElem?_insert, Std.ExtTreeMap.getElem?_insert,
    Std.ExtTreeMap.getElem?_insert]
  split <;> rfl

theorem put_opening (db : Database) (kind : RecordKind) (table : Table) :
    (db.opening kind).put kind.table table = db.put kind.table table := by
  unfold opening
  split
  · exact db.put_put kind.table (.bytes ∅) table
  · rfl

end Database

/-! ## Rows -/

theorem Query.rows_of_tables {db' : Database}
    (h : db'.tables[kind.table]? = db.tables[kind.table]?) :
    Query.rows kind db' = Query.rows kind db := by
  unfold Query.rows Database.bytes?
  rw [h]

theorem Query.rows_put_same (db : Database) (kind : RecordKind) (rows : Rows ByteArray) :
    Query.rows kind (db.put kind.table (.bytes rows)) = .ok rows := by
  unfold Query.rows Database.bytes?
  rw [Database.tables_put, if_pos rfl]
  rfl

theorem Query.rows_put_other (db : Database) (rows : Rows ByteArray) (hk : kind ≠ kind') :
    Query.rows kind' (db.put kind.table (.bytes rows)) = Query.rows kind' db := by
  have ht : kind.table ≠ kind'.table := fun ht => hk (RecordKind.table_injective ht)
  apply Query.rows_of_tables
  rw [Database.tables_put, if_neg ht]

/-- Whether a table exists or not makes no difference to a query. -/
theorem Query.rows_opening (db : Database) (kind kind' : RecordKind) :
    Query.rows kind' (db.opening kind) = Query.rows kind' db := by
  by_cases hk : kind = kind'
  · subst hk
    unfold Database.opening
    split
    · next hnone =>
      rw [Query.rows_put_same]
      unfold Query.rows Database.bytes?
      rw [hnone]
      rfl
    · rfl
  · have ht : kind'.table ≠ kind.table := fun ht => hk (RecordKind.table_injective ht).symm
    exact Query.rows_of_tables (db.tables_opening_other ht)

theorem Query.rows_eq_rowsOf (h : Query.rows kind db = .ok rows) : rows = db.rowsOf kind := by
  unfold Query.rows Database.bytes? at h
  unfold Database.rowsOf
  rcases ht : db.tables[kind.table]? with _ | found | found | _
  · rw [ht] at h
    cases h
    rfl
  · rw [ht] at h
    cases h
    rfl
  · rw [ht] at h
    cases h
  · rw [ht] at h
    cases h

/-- What a transaction finds in a table is what a query finds there. -/
theorem Tx.rows_run (kind : RecordKind) (db : Database) :
    Tx.rows kind db = match Query.rows kind db with
      | .ok rows => (.ok rows, db.opening kind)
      | .error e => (.error e, db) := by
  unfold Tx.rows Query.rows Database.openBytes Database.bytes? Database.opening
  rcases db.tables[kind.table]? with _ | found | found | _ <;> rfl

/-! ## Queries -/

theorem Query.find_eq_fst (kind : RecordKind) (key : String) (db : Database) :
    Query.find kind key db = (Tx.find kind key db).1 := by
  rw [Query.find, Query.bind_run, Tx.find, Tx.bind_run, Tx.rows_run]
  cases Query.rows kind db with
  | error e => rfl
  | ok rows =>
    dsimp only
    rw [Tx.lift_run]
    rfl

theorem Query.get_eq_fst (kind : RecordKind) (key : String) (db : Database) :
    Query.get kind key db = (Tx.get kind key db).1 := by
  rw [Query.get, Query.bind_run, Query.find_eq_fst, Tx.get, Tx.bind_run]
  rcases Tx.find kind key db with ⟨e | _ | record, db'⟩ <;> rfl

theorem Query.list_eq_fst (kind : RecordKind) (db : Database) :
    Query.list kind db = (Tx.list kind db).1 := by
  rw [Query.list, Query.bind_run, Tx.list, Tx.bind_run, Tx.rows_run]
  cases Query.rows kind db with
  | error e => rfl
  | ok rows =>
    dsimp only
    rw [Tx.lift_run]
    rfl

/-- Queries for records see the rows and nothing else. -/
theorem Query.find_congr {db' : Database} (h : Query.rows kind db' = Query.rows kind db)
    (key : String) : Query.find kind key db' = Query.find kind key db := by
  rw [Query.find, Query.bind_run, Query.bind_run, h]
  rfl

theorem Query.get_congr {db' : Database} (h : Query.rows kind db' = Query.rows kind db) (key : String) :
    Query.get kind key db' = Query.get kind key db := by
  rw [Query.get, Query.bind_run, Query.bind_run, Query.find_congr h]
  rcases Query.find kind key db with e | _ | record <;> rfl

theorem Query.list_congr {db' : Database} (h : Query.rows kind db' = Query.rows kind db) :
    Query.list kind db' = Query.list kind db := by
  rw [Query.list, Query.bind_run, Query.bind_run, h]
  rfl

/-! ## Steps -/

section Steps

variable (h : Query.rows kind db = .ok rows)

include h

theorem Tx.find_of_rows (key : String) :
    Tx.find kind key db = (decodeRow? kind rows[key]?, db.opening kind) := by
  rw [Tx.find, Tx.bind_run, Tx.rows_run, h]
  rfl

theorem Tx.get_of_rows (key : String) :
    Tx.get kind key db = match decodeRow? kind rows[key]? with
      | .ok (some record) => (.ok record, db.opening kind)
      | .ok none => (.error (.notFound kind key), db.opening kind)
      | .error e => (.error e, db.opening kind) := by
  rw [Tx.get, Tx.bind_run, Tx.find_of_rows h key]
  rcases decodeRow? kind rows[key]? with e | _ | record <;> rfl

theorem Tx.list_of_rows :
    Tx.list kind db = (decodeRows kind rows.values, db.opening kind) := by
  rw [Tx.list, Tx.bind_run, Tx.rows_run, h]
  exact Tx.lift_run _ _

theorem Tx.create_of_rows (record : kind.Carrier) :
    Tx.create kind record db =
      if rows.contains (kind.key record) then
        (.error (.alreadyExists kind (kind.key record)), db.opening kind)
      else (.ok (), db.put kind.table
        (.bytes (rows.insert (kind.key record) (kind.encode record)))) := by
  rw [Tx.create, Tx.bind_run, Tx.rows_run, h]
  dsimp only
  split
  · rfl
  · rw [← db.put_opening kind]
    rfl

theorem Tx.update_of_rows (record : kind.Carrier) :
    Tx.update kind record db =
      if rows.contains (kind.key record) then
        (.ok (), db.put kind.table (.bytes (rows.insert (kind.key record) (kind.encode record))))
      else (.error (.notFound kind (kind.key record)), db.opening kind) := by
  rw [Tx.update, Tx.bind_run, Tx.rows_run, h]
  dsimp only
  split
  · rw [← db.put_opening kind]
    rfl
  · rfl

theorem Tx.upsert_of_rows (record : kind.Carrier) :
    Tx.upsert kind record db = (.ok (rows.contains (kind.key record)),
      db.put kind.table (.bytes (rows.insert (kind.key record) (kind.encode record)))) := by
  rw [Tx.upsert, Tx.bind_run, Tx.rows_run, h, ← db.put_opening kind]
  rfl

theorem Tx.delete_of_rows (key : String) :
    Tx.delete kind key db =
      if rows.contains key then (.ok (), db.put kind.table (.bytes (rows.erase key)))
      else (.error (.notFound kind key), db.opening kind) := by
  rw [Tx.delete, Tx.bind_run, Tx.rows_run, h]
  dsimp only
  split
  · rw [← db.put_opening kind]
    rfl
  · rfl

end Steps

end ControlPlane
