import ControlPlane.Proofs.Store.Opening

/-!
# Changes of one row

What a step of a transaction does to any database, if it succeeds: it changes at most the row of one
kind under one key (`Database.ChangesRow`), and it says what that row is afterwards. A table that the
step wants and that does not exist is made, without rows.
-/

namespace ControlPlane

variable {db db' : Database} {kind kind' : RecordKind} {key : String} {rows rows' : Rows ByteArray}

/-! ## Steps that succeed -/

namespace Tx

variable {α β : Type} {record : kind.Carrier}

theorem of_bind {x : Tx α} {f : α → Tx β} {b : β} (h : (x >>= f) db = (.ok b, db')) :
    ∃ a db₁, x db = (.ok a, db₁) ∧ f a db₁ = (.ok b, db') := by
  rw [bind_run] at h
  rcases hx : x db with ⟨e | a, db₁⟩
  · rw [hx] at h
    cases h
  · rw [hx] at h
    exact ⟨a, db₁, rfl, h⟩

theorem of_map {f : α → β} {x : Tx α} {b : β} (h : (f <$> x) db = (.ok b, db')) :
    ∃ a, x db = (.ok a, db') ∧ f a = b := by
  rw [map_run] at h
  rcases hx : x db with ⟨e | a, db₁⟩
  · rw [hx] at h
    cases h
  · rw [hx] at h
    cases h
    exact ⟨a, rfl, rfl⟩

/-- A step that begins with the rows of a kind succeeds only if the table can be read. -/
theorem rows_of_bind {f : Rows ByteArray → Tx β} {b : β}
    (h : (Tx.rows kind >>= f) db = (.ok b, db')) : ∃ rows, Query.rows kind db = .ok rows := by
  obtain ⟨rows, db₁, hrows, -⟩ := of_bind h
  rw [rows_run] at hrows
  cases hq : Query.rows kind db with
  | error e =>
    rw [hq] at hrows
    cases hrows
  | ok found => exact ⟨found, rfl⟩

theorem of_find {found : Option kind.Carrier} (h : Tx.find kind key db = (.ok found, db')) :
    db' = db.opening kind ∧ ∃ rows, Query.rows kind db = .ok rows ∧
      decodeRow? kind rows[key]? = .ok found := by
  obtain ⟨rows, hrows⟩ := rows_of_bind h
  rw [find_of_rows hrows] at h
  obtain ⟨hfound, rfl⟩ := Prod.mk.inj h
  exact ⟨rfl, rows, hrows, hfound⟩

theorem of_get (h : Tx.get kind key db = (.ok record, db')) :
    db' = db.opening kind ∧ ∃ rows, Query.rows kind db = .ok rows ∧
      decodeRow? kind rows[key]? = .ok (some record) := by
  obtain ⟨found, db₁, hfind, h⟩ := of_bind h
  obtain ⟨rfl, rows, hrows, hfound⟩ := of_find hfind
  cases found with
  | none => cases h
  | some record' =>
    cases h
    exact ⟨rfl, rows, hrows, hfound⟩

end Tx

/-! ## Changes -/

theorem Query.row?_of_rows (h : Query.rows kind db = .ok rows) (key : String) :
    db.row? kind.table key = rows[key]? := by
  rw [Database.row?_eq, ← Query.rows_eq_rowsOf h]

theorem Query.row?_opening (h : Query.rows kind db = .ok rows) (kind' : RecordKind) (key : String) :
    (db.opening kind').row? kind.table key = db.row? kind.table key := by
  rw [row?_of_rows ((rows_opening db kind' kind).trans h), row?_of_rows h]

namespace Database

/-- Whether at most the row of a kind under a key differs between two databases. Tables may have been
made, without rows. -/
structure ChangesRow (kind : RecordKind) (key : String) (db db' : Database) : Prop where
  /-- Every other table is as it was, or it was made. -/
  tables : ∀ name, name ≠ kind.table → db'.tables[name]? = db.tables[name]? ∨
    db.tables[name]? = none ∧ db'.tables[name]? = some (.bytes ∅)
  /-- The table of the kind can be read, and every other row of it is as it was. -/
  rows : ∃ rows rows', Query.rows kind db = .ok rows ∧ Query.rows kind db' = .ok rows' ∧
    ∀ key', key' ≠ key → rows'[key']? = rows[key']?

/-- Whether a record is written and nothing else. -/
structure Writes (kind : RecordKind) (record : kind.Carrier) (db db' : Database) : Prop where
  /-- No other row changes. -/
  changes : ChangesRow kind (kind.key record) db db'
  /-- The row of the record stands under its key. -/
  row : db'.row? kind.table (kind.key record) = some (kind.encode record)
  /-- The row gives the record back. -/
  record : db'.record? kind (kind.key record) = some record

/-- Whether the row under a key is removed, if there is one, and nothing else. -/
structure Removes (kind : RecordKind) (key : String) (db db' : Database) : Prop where
  /-- No other row changes. -/
  changes : ChangesRow kind key db db'
  /-- There is no row under the key. -/
  row : db'.row? kind.table key = none

theorem Removes.record (h : Removes kind key db db') : db'.record? kind key = none := by
  rw [record?, h.row]
  rfl

theorem changesRow_put (h : Query.rows kind db = .ok rows)
    (hrows : ∀ key', key' ≠ key → rows'[key']? = rows[key']?) :
    ChangesRow kind key db (db.put kind.table (.bytes rows')) where
  tables := by
    intro name hname
    left
    rw [tables_put, if_neg (Ne.symm hname)]
  rows := ⟨rows, rows', h, Query.rows_put_same db kind rows', hrows⟩

theorem changesRow_opening (h : Query.rows kind db = .ok rows) (key : String) :
    ChangesRow kind key db (db.opening kind) where
  tables := by
    intro name hname
    left
    exact db.tables_opening_other hname
  rows := ⟨rows, rows, h, (Query.rows_opening db kind kind).trans h, fun _ _ => rfl⟩

theorem writes_insert (h : Query.rows kind db = .ok rows) {record : kind.Carrier}
    (hfits : kind.Fits record) : Writes kind record db
      (db.put kind.table (.bytes (rows.insert (kind.key record) (kind.encode record)))) := by
  have hrow : (db.put kind.table (.bytes (rows.insert (kind.key record) (kind.encode record)))).row?
      kind.table (kind.key record) = some (kind.encode record) := by
    rw [Query.row?_of_rows (Query.rows_put_same db kind _), Std.ExtTreeMap.getElem?_insert_self]
  refine ⟨changesRow_put h fun key' hne => ?_, hrow, ?_⟩
  · rw [Std.ExtTreeMap.getElem?_insert, if_neg fun he => hne (Std.LawfulEqCmp.eq_of_compare he).symm]
  · rw [record?, hrow, Option.bind_some, kind.decode_encode hfits]
    rfl

theorem removes_erase (h : Query.rows kind db = .ok rows) (key : String) :
    Removes kind key db (db.put kind.table (.bytes (rows.erase key))) where
  changes := by
    refine changesRow_put h fun key' hne => ?_
    rw [Std.ExtTreeMap.getElem?_erase, if_neg fun he => hne (Std.LawfulEqCmp.eq_of_compare he).symm]
  row := by
    rw [Query.row?_of_rows (Query.rows_put_same db kind _), Std.ExtTreeMap.getElem?_erase_self]

/-! A step may follow upon one that made a table. -/

theorem ChangesRow.of_opening (h : ChangesRow kind key (db.opening kind') db') :
    ChangesRow kind key db db' where
  tables := by
    intro name hname
    by_cases hn : name = kind'.table
    · subst hn
      have hopening := h.tables kind'.table hname
      unfold opening at hopening
      cases ht : db.tables[kind'.table]? with
      | some table =>
        rw [ht] at hopening
        dsimp only at hopening
        rw [ht] at hopening
        exact hopening
      | none =>
        rw [ht] at hopening
        dsimp only at hopening
        rw [tables_put, if_pos rfl] at hopening
        rcases hopening with hsame | ⟨hnone, -⟩
        · exact Or.inr ⟨rfl, hsame⟩
        · cases hnone
    · have hopening := h.tables name hname
      rw [db.tables_opening_other hn] at hopening
      exact hopening
  rows := by
    obtain ⟨rows, rows', hrows, hrows', hother⟩ := h.rows
    rw [Query.rows_opening] at hrows
    exact ⟨rows, rows', hrows, hrows', hother⟩

theorem Writes.of_opening {record : kind.Carrier} (h : Writes kind record (db.opening kind') db') :
    Writes kind record db db' :=
  ⟨h.changes.of_opening, h.row, h.record⟩

theorem Removes.of_opening (h : Removes kind key (db.opening kind') db') :
    Removes kind key db db' :=
  ⟨h.changes.of_opening, h.row⟩

end Database

/-! ## What steps change -/

namespace Tx

open Database

variable {record : kind.Carrier}

theorem writes_of_create {result : Unit} (h : Tx.create kind record db = (.ok result, db'))
    (hfits : kind.Fits record) :
    db.row? kind.table (kind.key record) = none ∧ Writes kind record db db' := by
  obtain ⟨rows, hrows⟩ := rows_of_bind h
  rw [create_of_rows hrows] at h
  split at h
  · cases h
  · next hnew =>
    cases h
    refine ⟨?_, writes_insert hrows hfits⟩
    rw [Query.row?_of_rows hrows]
    exact Std.ExtTreeMap.getElem?_eq_none fun hmem => hnew (Std.ExtTreeMap.contains_iff_mem.mpr hmem)

theorem writes_of_update {result : Unit} (h : Tx.update kind record db = (.ok result, db'))
    (hfits : kind.Fits record) : Writes kind record db db' := by
  obtain ⟨rows, hrows⟩ := rows_of_bind h
  rw [update_of_rows hrows] at h
  split at h
  · cases h
    exact writes_insert hrows hfits
  · cases h

theorem writes_of_upsert {replaced : Bool} (h : Tx.upsert kind record db = (.ok replaced, db'))
    (hfits : kind.Fits record) : Writes kind record db db' := by
  obtain ⟨rows, hrows⟩ := rows_of_bind h
  rw [upsert_of_rows hrows] at h
  cases h
  exact writes_insert hrows hfits

theorem removes_of_delete {result : Unit} (h : Tx.delete kind key db = (.ok result, db')) :
    db.row? kind.table key ≠ none ∧ Removes kind key db db' := by
  obtain ⟨rows, hrows⟩ := rows_of_bind h
  rw [delete_of_rows hrows] at h
  split at h
  · next hheld =>
    cases h
    refine ⟨?_, removes_erase hrows key⟩
    rw [Query.row?_of_rows hrows]
    intro hnone
    rw [Std.ExtTreeMap.contains_eq_isSome_getElem?, hnone] at hheld
    cases hheld
  · cases h

end Tx

end ControlPlane
