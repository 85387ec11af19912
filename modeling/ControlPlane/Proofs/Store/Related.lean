import ControlPlane.Proofs.Store.Place

/-!
# Transactions on related databases

A transaction reaches a database only through the rows in the places that it names. So if finding and
altering these rows keeps a relation between two databases (`KeepsRow`), then every transaction
keeps it: it yields the same on both databases, and the databases that it leaves are related again
(`Tx.Respects`). Three such relations are of use: that databases agree on the rows of some kinds
(`Database.Agree`), that a database has the tables of another one but for those of some kinds
(`Database.Outside`), and that two databases come from others by the same alterations in some places
(`Database.AlteredAlike`).
-/

namespace ControlPlane

variable {α β : Type} {R : Database → Database → Prop} {kind : RecordKind}

/-! ## Respect for a relation -/

/-- Whether a transaction yields the same on related databases and leaves related databases. -/
def Tx.Respects (R : Database → Database → Prop) (tx : Tx α) : Prop :=
  ∀ db db', R db db' → (tx db).1 = (tx db').1 ∧ R (tx db).2 (tx db').2

/-- Whether a query yields the same on related databases. -/
def Query.Respects (R : Database → Database → Prop) (query : Query α) : Prop :=
  ∀ db db', R db db' → query db = query db'

/-- Whether the rows of a kind are the same in related databases, and the databases stay related
when these rows are replaced. -/
structure KeepsRows (R : Database → Database → Prop) (kind : RecordKind) : Prop where
  /-- The rows are the same. -/
  rows : ∀ db db', R db db' → Query.rows kind db = Query.rows kind db'
  /-- The rows may be replaced. -/
  put : ∀ db db' rows, R db db' →
    R (db.put kind.table (.bytes rows)) (db'.put kind.table (.bytes rows))

/-- Whether what is found in a place is the same in related databases, and the databases stay related
when it is altered. -/
structure KeepsRow (R : Database → Database → Prop) (place : Place) : Prop where
  /-- What is found is the same. -/
  row : ∀ db db', R db db' → Query.row place db = Query.row place db'
  /-- It may be altered. -/
  alter : ∀ db db' change, R db db' → R (db.alter place change) (db'.alter place change)

theorem KeepsRows.keepsRow (h : KeepsRows R kind) (key : String) : KeepsRow R ⟨kind, key⟩ where
  row := by
    intro db db' hR
    unfold Query.row
    rw [h.rows db db' hR]
  alter := by
    intro db db' change hR
    have hrows := h.rows db db' hR
    cases hdb : Query.rows kind db with
    | error e =>
      rw [hdb] at hrows
      rwa [Database.alter_of_error hdb, Database.alter_of_error hrows.symm]
    | ok rows =>
      rw [hdb] at hrows
      rw [Database.alter_of_rows hdb, Database.alter_of_rows hrows.symm]
      exact h.put db db' _ hR

namespace Tx

theorem respects_pure (value : α) : Respects R (pure value : Tx α) :=
  fun _ _ h => ⟨rfl, h⟩

theorem respects_throw (e : ClusterError) : Respects R (throw e : Tx α) :=
  fun _ _ h => ⟨rfl, h⟩

theorem respects_bind {x : Tx α} {f : α → Tx β} (hx : Respects R x) (hf : ∀ a, Respects R (f a)) :
    Respects R (x >>= f) := by
  intro db db' h
  obtain ⟨hresult, hleft⟩ := hx db db' h
  rw [bind_run, bind_run]
  rcases hdb : x db with ⟨result, left⟩
  rcases hdb' : x db' with ⟨result', left'⟩
  rw [hdb, hdb'] at hresult hleft
  dsimp only at hresult hleft
  subst hresult
  cases result with
  | error e => exact ⟨rfl, hleft⟩
  | ok a => exact hf a left left' hleft

theorem respects_map {x : Tx α} (f : α → β) (hx : Respects R x) : Respects R (f <$> x) := by
  rw [map_eq_pure_bind]
  exact respects_bind hx fun a => respects_pure (f a)

/-- A transaction that fails leaves the databases as they were. -/
theorem commit_respects {tx : Tx α} (htx : Respects R tx) {db db' : Database} (hR : R db db') :
    (db.commit tx).1 = (db'.commit tx).1 ∧ R (db.commit tx).2 (db'.commit tx).2 := by
  obtain ⟨hresult, hleft⟩ := htx db db' hR
  unfold Database.commit
  rcases hdb : tx db with ⟨result, left⟩
  rcases hdb' : tx db' with ⟨result', left'⟩
  rw [hdb, hdb'] at hresult hleft
  dsimp only at hresult hleft
  subst hresult
  cases result with
  | error e => exact ⟨rfl, hR⟩
  | ok value => exact ⟨rfl, hleft⟩

/-- A transaction that begins with the rows of a kind, told by what it does when they are found. -/
theorem respects_rows_bind {place : Place} (h : KeepsRow R place) {f : Rows ByteArray → Tx α}
    (hf : ∀ db db' rows rows', R db db' → Query.rows place.kind db = .ok rows →
      Query.rows place.kind db' = .ok rows' → rows[place.key]? = rows'[place.key]? →
      ((Tx.rows place.kind >>= f) db).1 = ((Tx.rows place.kind >>= f) db').1 ∧
        R ((Tx.rows place.kind >>= f) db).2 ((Tx.rows place.kind >>= f) db').2) :
    Respects R (Tx.rows place.kind >>= f) := by
  intro db db' hR
  have hrow := h.row db db' hR
  unfold Query.row at hrow
  cases hrows : Query.rows place.kind db with
  | error e =>
    cases hrows' : Query.rows place.kind db' with
    | error e' =>
      rw [hrows, hrows'] at hrow
      cases hrow
      rw [bind_run, bind_run, rows_run, rows_run, hrows, hrows']
      exact ⟨rfl, hR⟩
    | ok rows' =>
      rw [hrows, hrows'] at hrow
      cases hrow
  | ok rows =>
    cases hrows' : Query.rows place.kind db' with
    | error e' =>
      rw [hrows, hrows'] at hrow
      cases hrow
    | ok rows' =>
      rw [hrows, hrows'] at hrow
      exact hf db db' rows rows' hR hrows hrows' (Except.ok.inj hrow)

end Tx

/-! ## Steps -/

namespace KeepsRow

open Tx

variable {key : String}

theorem opening (h : KeepsRow R ⟨kind, key⟩) {db db' : Database} (hR : R db db') :
    R (db.opening kind) (db'.opening kind) := by
  rw [db.opening_eq_alter kind key, db'.opening_eq_alter kind key]
  exact h.alter db db' id hR

theorem insert (h : KeepsRow R ⟨kind, key⟩) {db db' : Database} {rows rows' : Rows ByteArray}
    (hR : R db db') (hrows : Query.rows kind db = .ok rows) (hrows' : Query.rows kind db' = .ok rows')
    (row : ByteArray) : R (db.put kind.table (.bytes (rows.insert key row)))
      (db'.put kind.table (.bytes (rows'.insert key row))) := by
  rw [Database.put_insert_eq_alter hrows, Database.put_insert_eq_alter hrows']
  exact h.alter db db' _ hR

theorem find (h : KeepsRow R ⟨kind, key⟩) : Respects R (Tx.find kind key) := by
  apply respects_rows_bind h
  intro db db' rows rows' hR hrows hrows' hrow
  have hfind := find_of_rows hrows key
  have hfind' := find_of_rows hrows' key
  rw [← show rows[key]? = rows'[key]? from hrow] at hfind'
  unfold Tx.find at hfind hfind'
  rw [hfind, hfind']
  exact ⟨rfl, h.opening hR⟩

theorem get (h : KeepsRow R ⟨kind, key⟩) : Respects R (Tx.get kind key) := by
  apply respects_bind h.find
  intro found
  cases found with
  | none => exact respects_throw _
  | some record => exact respects_pure record

theorem contains_eq {rows rows' : Rows ByteArray} (h : rows[key]? = rows'[key]?) :
    rows.contains key = rows'.contains key := by
  rw [Std.ExtTreeMap.contains_eq_isSome_getElem?, Std.ExtTreeMap.contains_eq_isSome_getElem?, h]

theorem create (kind : RecordKind) (record : kind.Carrier) (h : KeepsRow R ⟨kind, kind.key record⟩) :
    Respects R (Tx.create kind record) := by
  apply respects_rows_bind h
  intro db db' rows rows' hR hrows hrows' hrow
  have hcreate := create_of_rows hrows record
  have hcreate' := create_of_rows hrows' record
  rw [← contains_eq hrow] at hcreate'
  unfold Tx.create at hcreate hcreate'
  rw [hcreate, hcreate']
  split
  · exact ⟨rfl, h.opening hR⟩
  · exact ⟨rfl, h.insert hR hrows hrows' _⟩

theorem update (kind : RecordKind) (record : kind.Carrier) (h : KeepsRow R ⟨kind, kind.key record⟩) :
    Respects R (Tx.update kind record) := by
  apply respects_rows_bind h
  intro db db' rows rows' hR hrows hrows' hrow
  have hupdate := update_of_rows hrows record
  have hupdate' := update_of_rows hrows' record
  rw [← contains_eq hrow] at hupdate'
  unfold Tx.update at hupdate hupdate'
  rw [hupdate, hupdate']
  split
  · exact ⟨rfl, h.insert hR hrows hrows' _⟩
  · exact ⟨rfl, h.opening hR⟩

theorem upsert (kind : RecordKind) (record : kind.Carrier) (h : KeepsRow R ⟨kind, kind.key record⟩) :
    Respects R (Tx.upsert kind record) := by
  apply respects_rows_bind h
  intro db db' rows rows' hR hrows hrows' hrow
  have hupsert := upsert_of_rows hrows record
  have hupsert' := upsert_of_rows hrows' record
  rw [← contains_eq hrow] at hupsert'
  unfold Tx.upsert at hupsert hupsert'
  rw [hupsert, hupsert']
  exact ⟨rfl, h.insert hR hrows hrows' _⟩

theorem delete (h : KeepsRow R ⟨kind, key⟩) : Respects R (Tx.delete kind key) := by
  apply respects_rows_bind h
  intro db db' rows rows' hR hrows hrows' hrow
  have hdelete := delete_of_rows hrows key
  have hdelete' := delete_of_rows hrows' key
  rw [← contains_eq hrow] at hdelete'
  unfold Tx.delete at hdelete hdelete'
  rw [hdelete, hdelete']
  split
  · rw [Database.put_erase_eq_alter hrows, Database.put_erase_eq_alter hrows']
    exact ⟨rfl, h.alter db db' _ hR⟩
  · exact ⟨rfl, h.opening hR⟩

theorem query_get (h : KeepsRow R ⟨kind, key⟩) : Query.Respects R (Query.get kind key) := by
  intro db db' hR
  rw [Query.get_eq_fst, Query.get_eq_fst]
  exact (h.get db db' hR).1

end KeepsRow

theorem KeepsRows.query_list (h : KeepsRows R kind) : Query.Respects R (Query.list kind) := by
  intro db db' hR
  rw [Query.list, Query.bind_run, Query.bind_run, h.rows db db' hR]
  rfl

/-! ## Agreement on some kinds -/

/-- Whether databases agree on the rows of some kinds, where a table that does not exist counts as
one without rows. -/
def Database.Agree (kinds : List RecordKind) (db db' : Database) : Prop :=
  ∀ kind ∈ kinds, Query.rows kind db = Query.rows kind db'

theorem Database.Agree.of_tables {kinds : List RecordKind} {db db' : Database}
    (h : ∀ kind ∈ kinds, db.tables[kind.table]? = db'.tables[kind.table]?) :
    db.Agree kinds db' :=
  fun kind hk => Query.rows_of_tables (h kind hk)

theorem Database.agree_keepsRows {kinds : List RecordKind} (hk : kind ∈ kinds) :
    KeepsRows (Database.Agree kinds) kind where
  rows := fun db db' h => h kind hk
  put := by
    intro db db' rows h kind' hk'
    by_cases he : kind = kind'
    · subst he
      rw [Query.rows_put_same, Query.rows_put_same]
    · rw [Query.rows_put_other _ _ he, Query.rows_put_other _ _ he, h kind' hk']

/-! ## Tables outside of some kinds -/

/-- Whether a database has the tables of another, but for the tables of some kinds. -/
def Database.Outside (kinds : List RecordKind) (db db' : Database) : Prop :=
  ∀ name, (∀ kind ∈ kinds, name ≠ kind.table) → db'.tables[name]? = db.tables[name]?

theorem Database.outside_keepsRows {kinds : List RecordKind} (hk : kind ∈ kinds) (db₀ : Database) :
    KeepsRows (fun db db' => db = db' ∧ db₀.Outside kinds db) kind where
  rows := by
    rintro db _ ⟨rfl, -⟩
    rfl
  put := by
    rintro db _ rows ⟨rfl, h⟩
    refine ⟨rfl, fun name hname => ?_⟩
    rw [Database.tables_put, if_neg (Ne.symm (hname kind hk)), h name hname]

/-! ## Alterations in some places -/

/-- Whether databases agree on what is found in some places. -/
def Database.AgreeAt (places : List Place) (db db' : Database) : Prop :=
  ∀ place ∈ places, Query.row place db = Query.row place db'

/-- An alteration of what stands in a place. -/
structure Alteration where
  /-- The place. -/
  place : Place
  /-- What becomes of the row. -/
  change : Option ByteArray → Option ByteArray

/-- Carries out alterations in their order. -/
def Database.alterAll (db : Database) (alterations : List Alteration) : Database :=
  alterations.foldl (fun db alteration => db.alter alteration.place alteration.change) db

/-- Whether two databases come from two others by the same alterations in some places. -/
def Database.AlteredAlike (places : List Place) (db₀ db₀' db db' : Database) : Prop :=
  ∃ alterations : List Alteration, (∀ alteration ∈ alterations, alteration.place ∈ places) ∧
    db = db₀.alterAll alterations ∧ db' = db₀'.alterAll alterations

namespace Database

variable {places : List Place} {db db' : Database}

theorem AgreeAt.alter (h : db.AgreeAt places db') (place : Place)
    (change : Option ByteArray → Option ByteArray) :
    (db.alter place change).AgreeAt places (db'.alter place change) := by
  intro place' hmem
  rw [Query.row_alter, Query.row_alter, h place' hmem]

theorem AgreeAt.alterAll {alterations : List Alteration} :
    ∀ {db db' : Database}, db.AgreeAt places db' →
      (db.alterAll alterations).AgreeAt places (db'.alterAll alterations) := by
  induction alterations with
  | nil => exact fun h => h
  | cons alteration alterations ih => exact fun h => ih (h.alter _ _)

/-- What stands in other places stays as it is. -/
theorem agreeAt_alterAll {alterations : List Alteration} (h : ∀ alteration ∈ alterations,
    alteration.place ∉ places) : ∀ db : Database, (db.alterAll alterations).AgreeAt places db := by
  induction alterations with
  | nil => exact fun db place _ => rfl
  | cons alteration alterations ih =>
    intro db place hmem
    have hne : alteration.place ≠ place := by
      rintro rfl
      exact h alteration List.mem_cons_self hmem
    have hrest := ih (fun a ha => h a (List.mem_cons_of_mem _ ha))
      (db.alter alteration.place alteration.change) place hmem
    rw [Query.row_alter, if_neg hne] at hrest
    exact hrest

/-- Alterations of different places can be carried out in either order. -/
theorem alterAll_comm {alterations alterations' : List Alteration}
    (h : ∀ a ∈ alterations, ∀ a' ∈ alterations', a.place ≠ a'.place) :
    ∀ db : Database, (db.alterAll alterations).alterAll alterations' =
      (db.alterAll alterations').alterAll alterations := by
  have hone : ∀ (a : Alteration) (later : List Alteration), (∀ a' ∈ later, a.place ≠ a'.place) →
      ∀ db : Database, (db.alter a.place a.change).alterAll later =
        (db.alterAll later).alter a.place a.change := by
    intro a later
    induction later with
    | nil => exact fun _ _ => rfl
    | cons a' later ih =>
      intro hne db
      show ((db.alter a.place a.change).alter a'.place a'.change).alterAll later = _
      rw [db.alter_comm (hne a' List.mem_cons_self),
        ih (fun b hb => hne b (List.mem_cons_of_mem _ hb))]
      rfl
  induction alterations with
  | nil => exact fun _ => rfl
  | cons a alterations ih =>
    intro db
    show ((db.alter a.place a.change).alterAll alterations).alterAll alterations' = _
    rw [ih (fun b hb => h b (List.mem_cons_of_mem _ hb)), hone a _ (h a List.mem_cons_self)]
    rfl

theorem alteredAlike_keepsRow (h : db.AgreeAt places db') {place : Place} (hp : place ∈ places) :
    KeepsRow (AlteredAlike places db db') place where
  row := by
    rintro _ _ ⟨alterations, -, rfl, rfl⟩
    exact h.alterAll place hp
  alter := by
    rintro _ _ change ⟨alterations, hmem, rfl, rfl⟩
    refine ⟨alterations ++ [⟨place, change⟩], ?_, ?_, ?_⟩
    · intro alteration ha
      rcases List.mem_append.mp ha with ha | ha
      · exact hmem alteration ha
      · rw [List.mem_singleton] at ha
        rwa [ha]
    · simp [alterAll]
    · simp [alterAll]

end Database

end ControlPlane
