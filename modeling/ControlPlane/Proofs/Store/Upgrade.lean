import ControlPlane.Proofs.Store.Related

/-!
# Bringing a database up to date

Bringing a database up to date makes the tables it lacks and writes the version, and so no query for
records can tell it from before (`Schema.sameRows_apply`). It succeeds on every database that the program
can have written (`Schema.Legible`), whichever of the updates it has.
-/

namespace ControlPlane

/-- Whether the rows of every kind are the same in two databases, where a table that does not exist
counts as one without rows. -/
def Database.SameRows (db db' : Database) : Prop := ∀ kind, Query.rows kind db = Query.rows kind db'

theorem Database.SameRows.agree {db db' : Database} (h : db.SameRows db') (kinds : List RecordKind) :
    db.Agree kinds db' :=
  fun kind _ => h kind

theorem Database.sameRows_keepsRows (kind : RecordKind) : KeepsRows Database.SameRows kind where
  rows _ _ h := h kind
  put := by
    intro db db' rows h kind'
    have hkinds : KeepsRows (·.Agree [kind, kind']) kind := agree_keepsRows List.mem_cons_self
    exact hkinds.put db db' rows (h.agree _) kind' (by simp)

theorem Database.SameRows.trans {db db' db'' : Database} (h : db.SameRows db')
    (h' : db'.SameRows db'') : db.SameRows db'' :=
  fun kind => (h kind).trans (h' kind)

namespace Database

variable {db : Database}

/-! ## Tables of records -/

/-- Why a table is none of records, if it exists and is none. -/
def refusal (db : Database) (name : String) : Option StorageFault :=
  match db.bytes? name with
  | .ok _ => none
  | .error fault => some fault

/-- The database in which a table exists. -/
def making (db : Database) (name : String) : Database :=
  match db.tables[name]? with
  | none => db.put name (.bytes ∅)
  | some _ => db

/-- The database in which some tables exist. -/
def makingAll (db : Database) (names : List String) : Database := names.foldl making db

theorem tables_making (db : Database) (name name' : String) :
    (db.making name).tables[name']? =
      if name = name' then some (db.tables[name']?.getD (.bytes ∅)) else db.tables[name']? := by
  unfold making
  split
  · next hnone =>
    rw [tables_put]
    split
    · next heq =>
      subst heq
      rw [hnone]
      rfl
    · rfl
  · next table hsome =>
    split
    · next heq =>
      subst heq
      rw [hsome]
      rfl
    · rfl

theorem tables_makingAll (db : Database) (names : List String) (name : String) :
    (db.makingAll names).tables[name]? =
      if name ∈ names then some (db.tables[name]?.getD (.bytes ∅)) else db.tables[name]? := by
  induction names generalizing db with
  | nil => rfl
  | cons first names ih =>
    have hstep : db.makingAll (first :: names) = (db.making first).makingAll names := rfl
    rw [hstep, ih, tables_making]
    by_cases hfirst : first = name
    · subst hfirst
      simp
    · simp [hfirst, Ne.symm hfirst]

/-- A table that has been made is one of records. -/
theorem refusal_making (db : Database) (name name' : String) :
    (db.making name).refusal name' = db.refusal name' := by
  unfold refusal bytes?
  rw [tables_making]
  by_cases heq : name = name'
  · rw [if_pos heq]
    rcases db.tables[name']? with _ | rows | rows | _ <;> rfl
  · rw [if_neg heq]

theorem openBytes_eq_making (db : Database) (name : String) :
    (db.openBytes name).map Prod.snd = match db.refusal name with
      | some fault => .error fault
      | none => .ok (db.making name) := by
  unfold openBytes refusal making bytes?
  rcases db.tables[name]? with _ | rows | rows | _ <;> rfl

theorem refusal_of_rows {kind : RecordKind} {rows : Rows ByteArray}
    (h : Query.rows kind db = .ok rows) : db.refusal kind.table = none := by
  unfold Query.rows at h
  unfold refusal
  cases hbytes : db.bytes? kind.table with
  | error fault =>
    rw [hbytes] at h
    cases h
  | ok found => rfl

/-- A table that has been made has no rows, as if it did not exist. -/
theorem sameRows_makingAll (db : Database) (names : List String) :
    (db.makingAll names).SameRows db := by
  intro kind
  unfold Query.rows bytes?
  rw [tables_makingAll]
  by_cases hmem : kind.table ∈ names
  · rw [if_pos hmem]
    rcases db.tables[kind.table]? with _ | rows | rows | _ <;> rfl
  · rw [if_neg hmem]

end Database

namespace Schema

variable {db db' : Database}

/-- Whether a database can be read: the table of the version holds numbers, and the tables of records
hold bytes, as far as they exist. -/
structure Legible (db : Database) : Prop where
  /-- The version can be read. -/
  version : ∃ version, Schema.version db = .ok version
  /-- The rows of every kind can be read. -/
  rows : ∀ kind, ∃ rows, Query.rows kind db = .ok rows

theorem table_ne_version (kind : RecordKind) : kind.table ≠ versionTable := by
  cases kind <;> decide

/-- A table of numbers is none of records. -/
theorem sameRows_put_words (db : Database) (rows : Rows UInt64) :
    (db.put versionTable (.words rows)).SameRows db := by
  refine fun kind => Query.rows_of_tables ?_
  rw [Database.tables_put, if_neg (table_ne_version kind).symm]

theorem sameRows_openWords {rows : Rows UInt64} (h : db.openWords versionTable = .ok (rows, db')) :
    db'.SameRows db := by
  obtain ⟨found, -, h⟩ := Except.of_bind h
  cases found with
  | some rows' =>
    cases h
    exact fun _ => rfl
  | none =>
    cases h
    exact sameRows_put_words db ∅

/-- Updates are applied in order, up to the first one whose table is none of records. -/
theorem applyAll_eq (db : Database) (names : List String) :
    applyAll db names = match names.findSome? db.refusal with
      | some fault => .error fault
      | none => .ok (db.makingAll names) := by
  induction names generalizing db with
  | nil => rfl
  | cons name names ih =>
    have hstep : applyAll db (name :: names) =
        ((db.openBytes name).map Prod.snd >>= fun db => applyAll db names) := List.foldlM_cons
    rw [hstep, db.openBytes_eq_making, List.findSome?_cons]
    cases hrefusal : db.refusal name with
    | some fault => rfl
    | none =>
      have hsame : (db.making name).refusal = db.refusal := funext (db.refusal_making name)
      show applyAll (db.making name) names = _
      rw [ih, hsame]
      rfl

/-- The tables made by updates are tables of records. -/
theorem exists_table_of_mem {table : String} (h : table ∈ updates) :
    ∃ kind : RecordKind, kind.table = table := by
  simp only [updates, List.mem_cons, List.not_mem_nil, or_false] at h
  rcases h with rfl | rfl | rfl | rfl
  · exact ⟨.config, rfl⟩
  · exact ⟨.state, rfl⟩
  · exact ⟨.lock, rfl⟩
  · exact ⟨.gate, rfl⟩

theorem sameRows_applyAll {tables : List String} (h : applyAll db tables = .ok db') :
    db'.SameRows db := by
  rw [applyAll_eq] at h
  split at h
  · cases h
  · cases h
    exact db.sameRows_makingAll tables

theorem sameRows_upgraded {version : UInt64} (h : upgraded db = .ok (version, db')) :
    db'.SameRows db := by
  obtain ⟨⟨rows, opened⟩, hopened, h⟩ := Except.of_bind h
  dsimp only at h
  split at h
  · cases h
    exact fun _ => rfl
  · obtain ⟨applied, happlied, h⟩ := Except.of_bind h
    obtain ⟨final, hfinal, h⟩ := Except.of_bind h
    cases h
    obtain ⟨⟨rows', opened'⟩, hopened', hfinal⟩ := Except.of_bind hfinal
    cases hfinal
    have htables := sameRows_applyAll happlied
    refine (sameRows_put_words opened' _).trans ?_
    exact (sameRows_openWords hopened').trans (htables.trans (sameRows_openWords hopened))

/-- Bringing a database up to date leaves the rows of every kind as they are. -/
theorem sameRows_apply (db : Database) : (apply db).2.SameRows db := by
  unfold apply
  cases h : upgraded db with
  | error fault => exact fun _ => rfl
  | ok result => exact sameRows_upgraded h

/-! ## Databases that can be read -/

/-- Updates apply to every database whose tables can be read, and leave the table of the version. -/
theorem exists_applyAll {tables : List String} (htables : ∀ table ∈ tables, table ∈ updates)
    (h : ∀ kind, ∃ rows, Query.rows kind db = .ok rows) :
    ∃ db', applyAll db tables = .ok db' ∧ db'.tables[versionTable]? = db.tables[versionTable]? := by
  have hrefusal : tables.findSome? db.refusal = none := by
    refine List.findSome?_eq_none_iff.mpr fun table hmem => ?_
    obtain ⟨kind, rfl⟩ := exists_table_of_mem (htables table hmem)
    obtain ⟨rows, hrows⟩ := h kind
    exact Database.refusal_of_rows hrows
  have hversion : versionTable ∉ tables := by
    intro hmem
    obtain ⟨kind, hkind⟩ := exists_table_of_mem (htables versionTable hmem)
    exact table_ne_version kind hkind
  refine ⟨db.makingAll tables, by rw [applyAll_eq, hrefusal], ?_⟩
  rw [Database.tables_makingAll, if_neg hversion]

theorem openWords_of_words {name : String} {found : Option (Rows UInt64)}
    (h : db.words? name = .ok found) :
    ∃ rows opened, db.openWords name = .ok (rows, opened) ∧ opened.words? name = .ok (some rows) := by
  unfold Database.openWords
  rw [h]
  cases found with
  | some rows => exact ⟨rows, db, rfl, h⟩
  | none =>
    refine ⟨∅, db.put name (.words ∅), rfl, ?_⟩
    unfold Database.words?
    rw [Database.tables_put, if_pos rfl]

/-- A database that can be read can be brought up to date. -/
theorem Legible.apply (h : Legible db) : ∃ version db', Schema.apply db = (.ok version, db') := by
  obtain ⟨⟨version, hversion⟩, hrows⟩ := h
  obtain ⟨found, hwords, -⟩ := Except.of_bind hversion
  obtain ⟨rows, opened, hopened, hnumbers⟩ := openWords_of_words hwords
  have hupgraded : ∃ result, upgraded db = .ok result := by
    unfold upgraded
    rw [hopened]
    simp only [bind, Except.bind]
    split
    · exact ⟨_, rfl⟩
    · have hopenedRows : ∀ kind, ∃ rows, Query.rows kind opened = .ok rows := by
        intro kind
        rw [sameRows_openWords hopened kind]
        exact hrows kind
      have hmissing : ∀ table ∈ updates.drop (rows[versionKey]?.getD 0).toNat, table ∈ updates :=
        fun _ hmem => List.mem_of_mem_drop hmem
      obtain ⟨applied, happlied, htable⟩ := exists_applyAll hmissing hopenedRows
      have happliedWords : applied.words? versionTable = .ok (some rows) := by
        unfold Database.words?
        rw [htable]
        exact hnumbers
      rw [happlied]
      dsimp only
      unfold Database.putWord Database.openWords
      rw [happliedWords]
      exact ⟨_, rfl⟩
  obtain ⟨⟨version', db'⟩, hupgraded⟩ := hupgraded
  exact ⟨version', db', by rw [Schema.apply, hupgraded]⟩

end Schema

end ControlPlane
