import ControlPlane.Proofs.Store.Maps
import ControlPlane.Proofs.Store.Upgrade

/-!
# Two ways to read

Records are read in queries and in transactions. A query reads a table that does not exist as one
without rows, and a transaction makes it first. Whatever is only read, and however much of it, the two
ways come to the same answers and the same errors (`Procedure.tx_eq_query`): what a transaction makes on
the way are tables without rows (`Database.Extends`), which no answer depends on.
-/

namespace ControlPlane

variable {α β : Type} {db db' db'' : Database} {kind : RecordKind}

/-! ## Tables that are made -/

/-- Whether a database has the tables of another one as they are there, and besides them only tables of
records without rows. -/
structure Database.Extends (db' db : Database) : Prop where
  /-- A table that was there is as it was. -/
  kept : ∀ (name : String) (table : Table), db.tables[name]? = some table →
    db'.tables[name]? = some table
  /-- A table that was not there is one of records and has no rows. -/
  made : ∀ (name : String) (table : Table), db.tables[name]? = none →
    db'.tables[name]? = some table → table = .bytes ∅ ∧ ∃ kind : RecordKind, kind.table = name

namespace Database

theorem Extends.refl (db : Database) : db.Extends db where
  kept := fun _ _ h => h
  made := by
    intro name table hnone hsome
    rw [hnone] at hsome
    cases hsome

theorem Extends.trans (h' : db''.Extends db') (h : db'.Extends db) : db''.Extends db where
  kept := fun name table ht => h'.kept name table (h.kept name table ht)
  made := by
    intro name table hnone hsome
    cases hmid : db'.tables[name]? with
    | none => exact h'.made name table hmid hsome
    | some table' =>
      obtain ⟨rfl, hkind⟩ := h.made name table' hnone hmid
      rw [h'.kept name _ hmid] at hsome
      cases hsome
      exact ⟨rfl, hkind⟩

theorem extends_opening (db : Database) (kind : RecordKind) : (db.opening kind).Extends db := by
  unfold opening
  split
  · next hnone =>
    constructor
    · intro name table ht
      have hne : kind.table ≠ name := by
        rintro rfl
        rw [hnone] at ht
        cases ht
      rw [tables_put, if_neg hne, ht]
    · intro name table hno ht
      rw [tables_put] at ht
      split at ht
      · next hname =>
        cases ht
        exact ⟨rfl, kind, hname⟩
      · rw [hno] at ht
        cases ht
  · exact .refl db

/-- No query for records can tell which tables have been made. -/
theorem Extends.sameRows (h : db'.Extends db) : db'.SameRows db := by
  intro kind
  cases ht : db.tables[kind.table]? with
  | some table => exact Query.rows_of_tables ((h.kept _ table ht).trans ht.symm)
  | none =>
    cases ht' : db'.tables[kind.table]? with
    | none => exact Query.rows_of_tables (ht'.trans ht.symm)
    | some table =>
      obtain ⟨rfl, -⟩ := h.made _ table ht ht'
      unfold Query.rows bytes?
      rw [ht, ht']
      rfl

theorem Extends.row?_eq (h : db'.Extends db) (name key : String) :
    db'.row? name key = db.row? name key := by
  unfold row?
  cases ht : db.tables[name]? with
  | some table => rw [h.kept name table ht]
  | none =>
    cases ht' : db'.tables[name]? with
    | none => rfl
    | some table =>
      obtain ⟨rfl, -⟩ := h.made name table ht ht'
      exact Std.ExtTreeMap.getElem?_empty

end Database

/-! ## Transactions that only read -/

/-- Whether a transaction does nothing to a database but to make tables without rows. -/
def Tx.OnlyMakesTables (tx : Tx α) : Prop := ∀ db, (tx db).2.Extends db

namespace Tx

theorem onlyMakesTables_lift (x : Except ClusterError α) : OnlyMakesTables (liftM x : Tx α) := by
  intro db
  rw [lift_run]
  exact .refl db

theorem onlyMakesTables_pure (value : α) : OnlyMakesTables (pure value : Tx α) := .refl

theorem onlyMakesTables_bind {x : Tx α} {f : α → Tx β} (hx : x.OnlyMakesTables)
    (hf : ∀ a, (f a).OnlyMakesTables) : OnlyMakesTables (x >>= f) := by
  intro db
  have hleft := hx db
  rw [bind_run]
  generalize x db = run at hleft
  rcases run with ⟨e | a, db'⟩
  · exact hleft
  · exact (hf a db').trans hleft

theorem onlyMakesTables_rows (kind : RecordKind) : (Tx.rows kind).OnlyMakesTables := by
  intro db
  rw [rows_run]
  cases Query.rows kind db with
  | ok rows => exact db.extends_opening kind
  | error e => exact .refl db

theorem onlyMakesTables_find (kind : RecordKind) (key : String) :
    (Tx.find kind key).OnlyMakesTables :=
  onlyMakesTables_bind (onlyMakesTables_rows kind) fun _ => onlyMakesTables_lift _

theorem onlyMakesTables_get (kind : RecordKind) (key : String) :
    (Tx.get kind key).OnlyMakesTables := by
  refine onlyMakesTables_bind (onlyMakesTables_find kind key) fun found db => ?_
  cases found <;> exact .refl db

theorem onlyMakesTables_list (kind : RecordKind) : (Tx.list kind).OnlyMakesTables :=
  onlyMakesTables_bind (onlyMakesTables_rows kind) fun _ => onlyMakesTables_lift _

end Tx

/-! ## Statements -/

theorem Statement.run_extends {statement : Statement} (hreads : statement.Reads) (db : Database) :
    (statement.run db).2.Extends db := by
  cases statement with
  | get kind key =>
    have hget := Tx.onlyMakesTables_get kind key
    exact Tx.onlyMakesTables_bind hget (fun _ => Tx.onlyMakesTables_pure _) db
  | find kind key =>
    have hfind := Tx.onlyMakesTables_find kind key
    exact Tx.onlyMakesTables_bind hfind (fun _ => Tx.onlyMakesTables_pure _) db
  | list kind =>
    have hlist := Tx.onlyMakesTables_list kind
    exact Tx.onlyMakesTables_bind hlist (fun _ => Tx.onlyMakesTables_pure _) db
  | create | update | upsert | delete | fail => cases hreads

/-- A statement of a query sees the rows and nothing else. -/
theorem Statement.read_congr {statement : Statement} (hreads : statement.Reads)
    (h : db'.SameRows db) : statement.read db' = statement.read db := by
  cases statement with
  | get kind key =>
    rw [Statement.read, Query.bind_run, Query.bind_run, Query.get_congr (h kind)]
    rfl
  | find kind key =>
    rw [Statement.read, Query.bind_run, Query.bind_run, Query.find_congr (h kind)]
    rfl
  | list kind =>
    rw [Statement.read, Query.bind_run, Query.bind_run, Query.list_congr (h kind)]
    rfl
  | create | update | upsert | delete | fail => cases hreads

/-! ## Procedures -/

/-- A procedure that only reads ends in a transaction as it ends in a query, and leaves the tables as
they were but for those that it made. The induction is on the procedure: the transaction goes on with
the tables made so far, while the query stays with the database that it began with. -/
theorem Procedure.tx_eq_query {procedure : Procedure α} (hreads : procedure.Every Statement.Reads) :
    ∀ {db db₀ : Database}, db.Extends db₀ →
      (procedure.tx db).1 = procedure.query db₀ ∧ (procedure.tx db).2.Extends db₀ := by
  induction procedure with
  | done result => exact fun h => ⟨rfl, h⟩
  | step statement next ih =>
    intro db db₀ h
    have hresult : (statement.run db).1 = statement.read db₀ := by
      rw [← Statement.read_eq_fst hreads.1, Statement.read_congr hreads.1 h.sameRows]
    have hleft := (Statement.run_extends hreads.1 db).trans h
    obtain ⟨hend, hextends⟩ := ih (statement.run db).1 (hreads.2 _) hleft
    refine ⟨?_, hextends⟩
    show ((next (statement.run db).1).tx (statement.run db).2).1 =
      (next (statement.read db₀)).query db₀
    rw [hend, hresult]

theorem Database.commit_fst (db : Database) (tx : Tx α) : (db.commit tx).1 = (tx db).1 := by
  unfold commit
  rcases tx db with ⟨e | value, db'⟩ <;> rfl

theorem Tx.OnlyMakesTables.commit {tx : Tx α} (h : tx.OnlyMakesTables) (db : Database) :
    (db.commit tx).2.Extends db := by
  have hleft := h db
  unfold Database.commit
  generalize tx db = run at hleft
  rcases run with ⟨e | value, db'⟩
  · exact .refl db
  · exact hleft

/--
On every database, whichever of its tables exist and whatever is in them, a record that is looked for,
a record that is asked for and the list of all records of a kind are the same in a query and in a
transaction, and so is the error if there is one. The same holds of everything that a procedure comes
to by reading. A query leaves the database as it is. A transaction that only reads leaves every table
that there is and every row as they are, and makes at most tables of records without rows.
-/
theorem queries_agree_with_transactions (db : Database) :
    (∀ (kind : RecordKind) (key : String),
      db.query (Query.find kind key) = (db.commit (Tx.find kind key)).1 ∧
      db.query (Query.get kind key) = (db.commit (Tx.get kind key)).1 ∧
      db.query (Query.list kind) = (db.commit (Tx.list kind)).1) ∧
    ∀ procedure : Procedure α, procedure.Every Statement.Reads →
      let queried := (StoreCall.query procedure).onDatabase db
      let committed := (StoreCall.commit procedure).onDatabase db
      queried.1 = committed.1 ∧ queried.2 = db ∧ committed.2.Extends db ∧
      ∀ name key, committed.2.row? name key = db.row? name key := by
  constructor
  · intro kind key
    simp only [Database.commit_fst, Database.query]
    exact ⟨Query.find_eq_fst kind key db, Query.get_eq_fst kind key db, Query.list_eq_fst kind db⟩
  · intro procedure hreads queried committed
    have honly : procedure.tx.OnlyMakesTables :=
      fun db => (procedure.tx_eq_query hreads (.refl db)).2
    have hextends : committed.2.Extends db := honly.commit db
    refine ⟨?_, rfl, hextends, hextends.row?_eq⟩
    show procedure.query db = (db.commit procedure.tx).1
    rw [db.commit_fst, (procedure.tx_eq_query hreads (.refl db)).1]

/-- A database with a gate in a row that ends too early, and without a table of locks. -/
def brokenGate : Database := Database.empty.put RecordKind.gate.table (.bytes {("a", ⟨#[1]⟩)})

/-- Lists the gates and looks for a lock, and tells which of the two succeeded. -/
def listThenFind : Procedure (List Bool) :=
  .step (.list .gate) fun gates => .step (.find .lock "plan") fun lock =>
    .done (.ok [gates.isOk, lock.isOk])

/-- The gates cannot be listed, and there is no lock. -/
theorem queries_agree_with_transactions_broken :
    brokenGate.query listThenFind.query = .ok [false, true] ∧
    (brokenGate.commit listThenFind.tx).1 = .ok [false, true] ∧
    (brokenGate.commit listThenFind.tx).2.Extends brokenGate ∧
    (brokenGate.commit listThenFind.tx).2.names = [RecordKind.gate.table, RecordKind.lock.table] := by
  have hreads : listThenFind.Every Statement.Reads :=
    ⟨trivial, fun _ => ⟨trivial, fun _ => trivial⟩⟩
  have hquery : brokenGate.query listThenFind.query = .ok [false, true] := by decide +kernel
  obtain ⟨hsame, -, hextends, -⟩ := (queries_agree_with_transactions brokenGate).2 listThenFind hreads
  exact ⟨hquery, hsame.symm.trans hquery, hextends, by decide +kernel⟩

end ControlPlane
