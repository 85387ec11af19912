import ControlPlane.Proofs.Record.RoundTrip
import ControlPlane.Store.Schema
import ControlPlane.Store.Transaction

/-!
# Intact databases

A database is intact if the table of every kind of records exists and each of its rows is the row of
a record that fits and that carries the key of the row. Of such a database only the records matter:
`Database.record?` says which record of a kind stands under a key, and `Database.records` lists
those of a kind in the order of their keys.

The two ways in which the program changes a database are `Database.keep`, which puts a record under
its key, and `Database.drop`, which removes the record under a key. Both leave an intact database
intact, and each changes one record of one kind.
-/

namespace ControlPlane

theorem RecordKind.table_injective {kind kind' : RecordKind} (h : kind.table = kind'.table) :
    kind = kind' := by
  revert h
  cases kind <;> cases kind' <;> decide

namespace Database

/-! ## Rows -/

/-- The rows of a kind, none if its table does not exist. -/
def rowsOf (db : Database) (kind : RecordKind) : Rows ByteArray :=
  match db.tables[kind.table]? with
  | some (.bytes rows) => rows
  | _ => ∅

/-- Every row is the row of a record that fits, under the key that the record carries. -/
def WellKept (kind : RecordKind) (rows : Rows ByteArray) : Prop :=
  ∀ key row, rows[key]? = some row →
    ∃ record : kind.Carrier, kind.key record = key ∧ kind.Fits record ∧ kind.encode record = row

/-- Every kind of records has its table, and every row of it is well kept. -/
def Intact (db : Database) : Prop :=
  ∀ kind : RecordKind, db.tables[kind.table]? = some (.bytes (db.rowsOf kind)) ∧
    WellKept kind (db.rowsOf kind)

/-- All records of a kind in the order of their keys. -/
def records (db : Database) (kind : RecordKind) : List kind.Carrier :=
  (db.rowsOf kind).toList.filterMap fun entry => (kind.decode entry.2).toOption

variable {db : Database} {kind kind' : RecordKind} {key : String}

theorem row?_eq (db : Database) (kind : RecordKind) (key : String) :
    db.row? kind.table key = (db.rowsOf kind)[key]? := by
  unfold row? rowsOf
  rcases db.tables[kind.table]? with _ | rows | rows | _
  · exact Std.ExtTreeMap.getElem?_empty.symm
  · rfl
  · exact Std.ExtTreeMap.getElem?_empty.symm
  · exact Std.ExtTreeMap.getElem?_empty.symm

theorem record?_eq (db : Database) (kind : RecordKind) (key : String) :
    db.record? kind key = ((db.rowsOf kind)[key]?).bind fun row => (kind.decode row).toOption := by
  rw [record?, row?_eq]

theorem Intact.bytes? (h : db.Intact) (kind : RecordKind) :
    db.bytes? kind.table = .ok (some (db.rowsOf kind)) := by
  rw [Database.bytes?, (h kind).1]

theorem Intact.openBytes (h : db.Intact) (kind : RecordKind) :
    db.openBytes kind.table = .ok (db.rowsOf kind, db) := by
  rw [Database.openBytes, h.bytes? kind]
  rfl

/-! ## Records and their rows -/

/-- A row of an intact database decodes. -/
theorem Intact.decode_row (h : db.Intact) {row : ByteArray}
    (hr : (db.rowsOf kind)[key]? = some row) :
    ∃ record, db.record? kind key = some record ∧ kind.key record = key ∧ kind.Fits record ∧
      kind.encode record = row := by
  obtain ⟨record, hkey, hfits, rfl⟩ := (h kind).2 key row hr
  refine ⟨record, ?_, hkey, hfits, rfl⟩
  rw [record?_eq, hr, Option.bind_some, kind.decode_encode hfits]
  rfl

/-- A record of an intact database stands under its own key and fits. -/
theorem Intact.of_record? (h : db.Intact) {record : kind.Carrier}
    (hr : db.record? kind key = some record) :
    kind.key record = key ∧ kind.Fits record ∧ (db.rowsOf kind)[key]? = some (kind.encode record) := by
  cases hrow : (db.rowsOf kind)[key]? with
  | none => rw [record?_eq, hrow] at hr; cases hr
  | some row =>
    obtain ⟨record', hr', hkey, hfits, he⟩ := h.decode_row hrow
    obtain rfl : record' = record := Option.some.inj (hr'.symm.trans hr)
    exact ⟨hkey, hfits, congrArg some he.symm⟩

/-- The rows of an intact database are the rows of its records, and there are no others. -/
theorem Intact.row?_eq_map (h : db.Intact) (kind : RecordKind) (key : String) :
    db.row? kind.table key = (db.record? kind key).map kind.encode := by
  rw [row?_eq]
  cases hrow : (db.rowsOf kind)[key]? with
  | none => rw [record?_eq, hrow]; rfl
  | some row =>
    obtain ⟨record, hr, -, -, he⟩ := h.decode_row hrow
    rw [hr, Option.map_some, he]

theorem Intact.contains_eq (h : db.Intact) (kind : RecordKind) (key : String) :
    (db.rowsOf kind).contains key = (db.record? kind key).isSome := by
  rw [Std.ExtTreeMap.contains_eq_isSome_getElem?, ← row?_eq, h.row?_eq_map kind key,
    Option.isSome_map]

/-! ## Listing -/

theorem values_eq {α : Type} (rows : Rows α) : rows.values = rows.toList.map Prod.snd := by
  have h : rows.values = rows.foldr (fun _ row rest => row :: rest) [] := by
    rcases rows with ⟨⟨rows⟩⟩
    rfl
  rw [h, Std.ExtTreeMap.foldr_eq_foldr_toList]
  induction rows.toList with
  | nil => rfl
  | cons entry rest ih => rw [List.foldr_cons, ih, List.map_cons]

/-- The entries of an intact table are its records with their keys. -/
theorem Intact.entry (h : db.Intact) {entry : String × ByteArray}
    (he : entry ∈ (db.rowsOf kind).toList) :
    ∃ record, kind.decode entry.2 = .ok record ∧ kind.key record = entry.1 ∧
      db.record? kind entry.1 = some record := by
  have hrow := Std.ExtTreeMap.mem_toList_iff_getElem?_eq_some.mp he
  obtain ⟨record, hr, hkey, hfits, henc⟩ := h.decode_row hrow
  exact ⟨record, by rw [← henc, kind.decode_encode hfits], hkey, hr⟩

/-- All rows of an intact table decode. -/
theorem Intact.decodeRows (h : db.Intact) (kind : RecordKind) :
    decodeRows kind (db.rowsOf kind).values = .ok (db.records kind) := by
  have go : ∀ entries : List (String × ByteArray), (∀ e ∈ entries, e ∈ (db.rowsOf kind).toList) →
      ControlPlane.decodeRows kind (entries.map Prod.snd) =
        .ok (entries.filterMap fun e => (kind.decode e.2).toOption) := by
    intro entries
    induction entries with
    | nil => intro _; rfl
    | cons entry rest ih =>
      intro hmem
      obtain ⟨record, hd, -, -⟩ := h.entry (hmem entry List.mem_cons_self)
      have hrest := ih fun e he => hmem e (List.mem_cons_of_mem entry he)
      unfold ControlPlane.decodeRows at hrest ⊢
      rw [List.map_cons, List.mapM_cons, hrest, List.filterMap_cons, decodeRow, hd]
      rfl
  rw [values_eq]
  exact go _ fun _ he => he

/-- The keys of the records of an intact database are the keys of its rows. -/
theorem Intact.map_key_records (h : db.Intact) (kind : RecordKind) :
    (db.records kind).map kind.key = (db.rowsOf kind).keys := by
  have go : ∀ entries : List (String × ByteArray), (∀ e ∈ entries, e ∈ (db.rowsOf kind).toList) →
      (entries.filterMap fun e => (kind.decode e.2).toOption).map kind.key =
        entries.map Prod.fst := by
    intro entries
    induction entries with
    | nil => intro _; rfl
    | cons entry rest ih =>
      intro hmem
      obtain ⟨record, hd, hkey, -⟩ := h.entry (hmem entry List.mem_cons_self)
      rw [List.filterMap_cons, hd, List.map_cons, ← hkey,
        ← ih fun e he => hmem e (List.mem_cons_of_mem entry he)]
      rfl
  rw [records, ← Std.ExtTreeMap.map_fst_toList_eq_keys]
  exact go _ fun _ he => he

/-- Records are listed in ascending order of their keys, and no key occurs twice. -/
theorem Intact.records_ascending (h : db.Intact) (kind : RecordKind) :
    (db.records kind).Pairwise fun a b => kind.key a < kind.key b := by
  have ho : ((db.records kind).map kind.key).Pairwise fun a b => compare a b = .lt := by
    rw [h.map_key_records kind]
    exact Std.ExtTreeMap.ordered_keys
  rw [List.pairwise_map] at ho
  exact ho.imp compareOfLessAndEq_eq_lt.mp

/-- The records listed are those found under their keys. -/
theorem Intact.mem_records (h : db.Intact) {record : kind.Carrier} :
    record ∈ db.records kind ↔ db.record? kind (kind.key record) = some record := by
  constructor
  · intro hm
    obtain ⟨entry, he, hd⟩ := List.mem_filterMap.mp hm
    obtain ⟨record', hd', hkey, hr⟩ := h.entry he
    rw [hd'] at hd
    obtain rfl : record' = record := Option.some.inj hd
    rw [hkey, hr]
  · intro hr
    obtain ⟨-, hfits, hrow⟩ := h.of_record? hr
    refine List.mem_filterMap.mpr ⟨(kind.key record, kind.encode record), ?_, ?_⟩
    · exact Std.ExtTreeMap.mem_toList_iff_getElem?_eq_some.mpr hrow
    · rw [kind.decode_encode hfits]
      rfl

/-- A record is found under a key just if it is listed and has the key. -/
theorem Intact.record?_iff (h : db.Intact) {key : String} {record : kind.Carrier} :
    db.record? kind key = some record ↔ record ∈ db.records kind ∧ kind.key record = key := by
  constructor
  · intro hr
    have hkey := (h.of_record? hr).1
    rw [h.mem_records, hkey]
    exact ⟨hr, rfl⟩
  · rintro ⟨hm, rfl⟩
    exact h.mem_records.mp hm

/-! ## Keeping and dropping records -/

/-- Puts a record under its key. -/
def keep (db : Database) (kind : RecordKind) (record : kind.Carrier) : Database :=
  db.put kind.table (.bytes ((db.rowsOf kind).insert (kind.key record) (kind.encode record)))

/-- Removes the record under a key. -/
def drop (db : Database) (kind : RecordKind) (key : String) : Database :=
  db.put kind.table (.bytes ((db.rowsOf kind).erase key))

theorem tables_put (db : Database) (name name' : String) (table : Table) :
    (db.put name table).tables[name']? = if name = name' then some table else db.tables[name']? := by
  simp [put, Std.ExtTreeMap.getElem?_insert]

theorem rowsOf_put_same (db : Database) (kind : RecordKind) (rows : Rows ByteArray) :
    (db.put kind.table (.bytes rows)).rowsOf kind = rows := by
  simp [rowsOf, tables_put]

theorem rowsOf_put_other (db : Database) (rows : Rows ByteArray) (hk : kind ≠ kind') :
    (db.put kind.table (.bytes rows)).rowsOf kind' = db.rowsOf kind' := by
  have ht : kind.table ≠ kind'.table := fun ht => hk (RecordKind.table_injective ht)
  simp [rowsOf, tables_put, ht]

theorem record?_keep_same (kind : RecordKind) {record : kind.Carrier} (hfits : kind.Fits record)
    (key : String) :
    (db.keep kind record).record? kind key =
      if kind.key record = key then some record else db.record? kind key := by
  rw [record?_eq, keep, rowsOf_put_same, Std.ExtTreeMap.getElem?_insert]
  by_cases hkey : kind.key record = key
  · simp [hkey, kind.decode_encode hfits, Except.toOption]
  · simp [hkey, record?_eq]

theorem rowsOf_keep_other (db : Database) (kind : RecordKind) (record : kind.Carrier)
    (hk : kind ≠ kind') :
    (db.keep kind record).rowsOf kind' = db.rowsOf kind' :=
  rowsOf_put_other db _ hk

theorem record?_keep_other (db : Database) (kind : RecordKind) (record : kind.Carrier)
    (hk : kind ≠ kind') (key : String) :
    (db.keep kind record).record? kind' key = db.record? kind' key := by
  rw [record?_eq, rowsOf_keep_other db kind record hk, record?_eq]

theorem record?_drop_same (db : Database) (kind : RecordKind) (key key' : String) :
    (db.drop kind key).record? kind key' = if key = key' then none else db.record? kind key' := by
  rw [record?_eq, drop, rowsOf_put_same, Std.ExtTreeMap.getElem?_erase]
  by_cases hkey : key = key'
  · simp [hkey]
  · simp [hkey, record?_eq]

theorem rowsOf_drop_other (db : Database) (key : String) (hk : kind ≠ kind') :
    (db.drop kind key).rowsOf kind' = db.rowsOf kind' :=
  rowsOf_put_other db _ hk

/-- Replacing the rows of one kind by well kept ones keeps a database intact. -/
theorem Intact.put (h : db.Intact) {rows : Rows ByteArray} (hw : WellKept kind rows) :
    (db.put kind.table (.bytes rows)).Intact := by
  intro kind'
  by_cases hk : kind = kind'
  · subst hk
    rw [rowsOf_put_same]
    exact ⟨by simp [tables_put], hw⟩
  · have ht : kind.table ≠ kind'.table := fun ht => hk (RecordKind.table_injective ht)
    rw [rowsOf_put_other db _ hk, tables_put, if_neg ht]
    exact h kind'

theorem Intact.keep (h : db.Intact) (kind : RecordKind) {record : kind.Carrier}
    (hfits : kind.Fits record) :
    (db.keep kind record).Intact := by
  refine h.put fun key row hr => ?_
  rw [Std.ExtTreeMap.getElem?_insert] at hr
  split at hr
  · next hkey =>
    cases hr
    exact ⟨record, by simpa using hkey, hfits, rfl⟩
  · exact (h kind).2 key row hr

theorem Intact.drop (h : db.Intact) (kind : RecordKind) (key : String) :
    (db.drop kind key).Intact := by
  refine h.put fun key' row hr => ?_
  rw [Std.ExtTreeMap.getElem?_erase] at hr
  split at hr
  · cases hr
  · exact (h kind).2 key' row hr

end Database

/-! ## The new database -/

/-- The database on which nothing has been done but to bring it up to date. -/
def Schema.fresh : Database := (Schema.apply .empty).2

theorem Schema.tables_fresh (kind : RecordKind) : fresh.tables[kind.table]? = some (.bytes ∅) := by
  cases kind <;> rfl

theorem Schema.rowsOf_fresh (kind : RecordKind) : fresh.rowsOf kind = ∅ := by
  rw [Database.rowsOf, tables_fresh]

theorem Schema.fresh_intact : fresh.Intact := by
  intro kind
  rw [rowsOf_fresh]
  refine ⟨tables_fresh kind, fun key row hr => ?_⟩
  rw [Std.ExtTreeMap.getElem?_empty] at hr
  cases hr

theorem Schema.record?_fresh (kind : RecordKind) (key : String) : fresh.record? kind key = none := by
  rw [Database.record?_eq, rowsOf_fresh, Std.ExtTreeMap.getElem?_empty]
  rfl

end ControlPlane
