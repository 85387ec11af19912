import ControlPlane.Proofs.Store.Opening

/-!
# Single rows

A row has its place: a kind of records and a key. `Query.row` is what is found in a place, and
`Database.alter` changes what stands there. A step of a transaction that succeeds either makes a table,
or it inserts or removes one row; each of these is an alteration. Alterations of different places leave
each other's rows alone and commute.
-/

namespace ControlPlane

/-- A place for a row. -/
structure Place where
  /-- The kind of the record. -/
  kind : RecordKind
  /-- The key. -/
  key : String
deriving DecidableEq

/-- What is found in a place: a row, nothing, or the error that the table cannot be read. -/
def Query.row (place : Place) : Query (Option ByteArray) := fun db =>
  (Query.rows place.kind db).map (·[place.key]?)

variable {db : Database} {place place' : Place} {kind kind' : RecordKind} {key key' : String}
  {rows : Rows ByteArray} {change change' : Option ByteArray → Option ByteArray}

/-! ## Rows in order -/

namespace Rows

theorem getElem?_alter (rows : Rows ByteArray) (key key' : String)
    (change : Option ByteArray → Option ByteArray) :
    (rows.alter key change)[key']? = if key = key' then change rows[key]? else rows[key']? := by
  rw [Std.ExtTreeMap.getElem?_alter]
  simp only [Std.LawfulEqCmp.compare_eq_iff_eq]

theorem alter_id (rows : Rows ByteArray) (key : String) : rows.alter key id = rows := by
  apply Std.ExtTreeMap.ext_getElem?
  intro key'
  rw [getElem?_alter]
  split
  · next he => rw [he, id]
  · rfl

theorem insert_eq_alter (rows : Rows ByteArray) (key : String) (row : ByteArray) :
    rows.insert key row = rows.alter key fun _ => some row := by
  apply Std.ExtTreeMap.ext_getElem?
  intro key'
  rw [getElem?_alter, Std.ExtTreeMap.getElem?_insert]
  simp only [Std.LawfulEqCmp.compare_eq_iff_eq]

theorem erase_eq_alter (rows : Rows ByteArray) (key : String) :
    rows.erase key = rows.alter key fun _ => none := by
  apply Std.ExtTreeMap.ext_getElem?
  intro key'
  rw [getElem?_alter, Std.ExtTreeMap.getElem?_erase]
  simp only [Std.LawfulEqCmp.compare_eq_iff_eq]

theorem alter_comm (rows : Rows ByteArray) (hne : key ≠ key') :
    (rows.alter key change).alter key' change' = (rows.alter key' change').alter key change := by
  apply Std.ExtTreeMap.ext_getElem?
  intro key''
  simp only [getElem?_alter, hne, Ne.symm hne, if_false]
  by_cases h : key = key''
  · have h' : key' ≠ key'' := fun h' => hne (h.trans h'.symm)
    simp only [h, h', if_true, if_false]
  · simp only [h, if_false]

end Rows

/-! ## Alterations -/

namespace Database

/-- Changes what stands in a place. The table is made if need be; one that cannot be read is left
alone. -/
def alter (db : Database) (place : Place) (change : Option ByteArray → Option ByteArray) : Database :=
  match Query.rows place.kind db with
  | .ok rows => db.put place.kind.table (.bytes (rows.alter place.key change))
  | .error _ => db

theorem alter_of_rows (h : Query.rows kind db = .ok rows) (key : String)
    (change : Option ByteArray → Option ByteArray) :
    db.alter ⟨kind, key⟩ change = db.put kind.table (.bytes (rows.alter key change)) := by
  rw [alter, h]

theorem alter_of_error {e : ClusterError} (h : Query.rows kind db = .error e) (key : String)
    (change : Option ByteArray → Option ByteArray) : db.alter ⟨kind, key⟩ change = db := by
  rw [alter, h]

theorem put_comm (db : Database) {name name' : String} (table table' : Table) (hne : name ≠ name') :
    (db.put name table).put name' table' = (db.put name' table').put name table := by
  unfold put
  congr 1
  apply Std.ExtTreeMap.ext_getElem?
  intro name''
  simp only [Std.ExtTreeMap.getElem?_insert, Std.LawfulEqCmp.compare_eq_iff_eq]
  by_cases h : name = name''
  · have h' : name' ≠ name'' := fun h' => hne (h.trans h'.symm)
    simp only [h, h', if_true, if_false]
  · simp only [h, if_false]

theorem put_of_tables {name : String} {table : Table} (h : db.tables[name]? = some table) :
    db.put name table = db := by
  unfold put
  congr 1
  apply Std.ExtTreeMap.ext_getElem?
  intro name'
  rw [Std.ExtTreeMap.getElem?_insert]
  split
  · next he => rw [← Std.LawfulEqCmp.eq_of_compare he, h]
  · rfl

theorem opening_eq_alter (db : Database) (kind : RecordKind) (key : String) :
    db.opening kind = db.alter ⟨kind, key⟩ id := by
  unfold opening alter Query.rows bytes?
  rcases ht : db.tables[kind.table]? with _ | found | found | _
  · exact congrArg (fun rows => db.put kind.table (.bytes rows)) (Rows.alter_id ∅ key).symm
  · dsimp only
    rw [Option.getD_some, Rows.alter_id, put_of_tables ht]
  · rfl
  · rfl

theorem put_insert_eq_alter (h : Query.rows kind db = .ok rows) (key : String) (row : ByteArray) :
    db.put kind.table (.bytes (rows.insert key row)) = db.alter ⟨kind, key⟩ fun _ => some row := by
  rw [alter_of_rows h, Rows.insert_eq_alter]

theorem put_erase_eq_alter (h : Query.rows kind db = .ok rows) (key : String) :
    db.put kind.table (.bytes (rows.erase key)) = db.alter ⟨kind, key⟩ fun _ => none := by
  rw [alter_of_rows h, Rows.erase_eq_alter]

end Database

/-! ## What is found after alterations -/

theorem Query.rows_alter_same (db : Database) (kind : RecordKind) (key : String)
    (change : Option ByteArray → Option ByteArray) :
    Query.rows kind (db.alter ⟨kind, key⟩ change) =
      (Query.rows kind db).map (·.alter key change) := by
  cases h : Query.rows kind db with
  | error e => rw [Database.alter_of_error h, h]; rfl
  | ok rows => rw [Database.alter_of_rows h, Query.rows_put_same]; rfl

theorem Query.rows_alter_other (db : Database) (key : String)
    (change : Option ByteArray → Option ByteArray) (hk : kind ≠ kind') :
    Query.rows kind' (db.alter ⟨kind, key⟩ change) = Query.rows kind' db := by
  cases h : Query.rows kind db with
  | error e => rw [Database.alter_of_error h]
  | ok rows => rw [Database.alter_of_rows h, Query.rows_put_other _ _ hk]

theorem Query.row_alter (db : Database) (place place' : Place)
    (change : Option ByteArray → Option ByteArray) :
    Query.row place' (db.alter place change) =
      if place = place' then (Query.row place' db).map change else Query.row place' db := by
  obtain ⟨kind, key⟩ := place
  obtain ⟨kind', key'⟩ := place'
  unfold row
  by_cases hk : kind = kind'
  · subst hk
    rw [Query.rows_alter_same db kind key change]
    cases Query.rows kind db with
    | error e => split <;> rfl
    | ok rows =>
      show Except.ok (rows.alter key change)[key']? = _
      rw [Rows.getElem?_alter]
      by_cases hkey : key = key'
      · subst hkey
        rw [if_pos rfl, if_pos rfl]
        rfl
      · rw [if_neg hkey, if_neg fun he => hkey (congrArg Place.key he)]
        rfl
  · rw [Query.rows_alter_other db key change hk, if_neg fun he => hk (congrArg Place.kind he)]

/-- What a place holds, if its table can be read, is what a query finds there. -/
theorem Query.row?_congr {db db' : Database} (h : Query.row place db = Query.row place db') :
    db.row? place.kind.table place.key = db'.row? place.kind.table place.key := by
  have hrow : ∀ db : Database, db.row? place.kind.table place.key =
      ((Query.row place db).toOption).join := by
    intro db
    unfold row rows Database.row? Database.bytes?
    rcases db.tables[place.kind.table]? with _ | found | found | _
    · exact Std.ExtTreeMap.getElem?_empty.symm
    · rfl
    · rfl
    · rfl
  rw [hrow, hrow, h]

/-! ## Alterations commute -/

theorem Database.alter_comm (db : Database) (hne : place ≠ place') :
    (db.alter place change).alter place' change' = (db.alter place' change').alter place change := by
  obtain ⟨kind, key⟩ := place
  obtain ⟨kind', key'⟩ := place'
  by_cases hk : kind = kind'
  · subst hk
    have hkey : key ≠ key' := fun he => hne (by rw [he])
    cases h : Query.rows kind db with
    | error e => rw [alter_of_error h, alter_of_error h, alter_of_error h]
    | ok rows =>
      have hput : ∀ (rows : Rows ByteArray) key change,
          (db.put kind.table (.bytes rows)).alter ⟨kind, key⟩ change =
            db.put kind.table (.bytes (rows.alter key change)) := by
        intro rows key change
        rw [alter_of_rows (Query.rows_put_same db kind rows), put_put]
      rw [alter_of_rows h, alter_of_rows h, hput, hput, rows.alter_comm hkey]
  · have hrows := Query.rows_alter_other db key change hk
    have hrows' := Query.rows_alter_other db key' change' (Ne.symm hk)
    cases h : Query.rows kind db with
    | error e =>
      rw [h] at hrows'
      rw [alter_of_error h, alter_of_error hrows']
    | ok rows =>
      rw [h] at hrows'
      cases h' : Query.rows kind' db with
      | error e =>
        rw [h'] at hrows
        rw [alter_of_error hrows, alter_of_error h']
      | ok rows' =>
        rw [h'] at hrows
        rw [alter_of_rows hrows, alter_of_rows hrows', alter_of_rows h, alter_of_rows h']
        exact put_comm db _ _ fun he => hk (RecordKind.table_injective he)

end ControlPlane
