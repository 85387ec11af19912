import ControlPlane.Proofs.Store.Opening
import ControlPlane.Proofs.Text.Utf8Order
import ControlPlane.Store.Script
import Mathlib.Logic.Function.Basic

/-!
# The store as maps of records

To its users the store is four maps, one for each kind of records. `Maps.step` says what a statement
does to them, and a database represents maps (`Database.Represents`) if the rows of its tables are
the rows of the records of the maps, under the same keys. A procedure is any program over
statements. Whatever procedures are run, as transactions or as queries, the database yields what the
maps yield and represents the maps that they leave (`StoreCall.runAll_represents`).

Whether a table exists makes no difference, so a database without tables represents empty maps.
-/

namespace ControlPlane

/-! ## Maps of records -/

/-- A finite map of records for each kind, ordered by keys. -/
abbrev Maps := (kind : RecordKind) → Rows kind.Carrier

namespace Maps

/-- Maps without records. -/
def empty : Maps := fun _ => ∅

/-- Puts a map in the place of the one of its kind. -/
def set (maps : Maps) (kind : RecordKind) (map : Rows kind.Carrier) : Maps :=
  Function.update maps kind map

/-- What a statement yields on maps, and the maps that it leaves. -/
def step (statement : Statement) (maps : Maps) : StatementResult × Maps :=
  match statement with
  | .get kind key =>
    match (maps kind)[key]? with
    | some record => (.ok (.record ⟨kind, record⟩), maps)
    | none => (.error (.notFound kind key), maps)
  | .find kind key => (.ok (.optional ((maps kind)[key]?.map (⟨kind, ·⟩))), maps)
  | .list kind => (.ok (.records ((maps kind).values.map (⟨kind, ·⟩))), maps)
  | .create ⟨kind, record⟩ =>
    if (maps kind).contains (kind.key record) then
      (.error (.alreadyExists kind (kind.key record)), maps)
    else (.ok .done, maps.set kind ((maps kind).insert (kind.key record) record))
  | .update ⟨kind, record⟩ =>
    if (maps kind).contains (kind.key record) then
      (.ok .done, maps.set kind ((maps kind).insert (kind.key record) record))
    else (.error (.notFound kind (kind.key record)), maps)
  | .upsert ⟨kind, record⟩ =>
    (.ok (.replaced ((maps kind).contains (kind.key record))),
      maps.set kind ((maps kind).insert (kind.key record) record))
  | .delete kind key =>
    if (maps kind).contains key then (.ok .done, maps.set kind ((maps kind).erase key))
    else (.error (.notFound kind key), maps)
  | .fail reason => (.error (.internal (.other reason)), maps)

end Maps

/-- The entries of a map are in the order of the UTF-8 bytes of their keys, and no key occurs twice. -/
theorem Rows.toList_ascending {α : Type} (map : Rows α) :
    map.toList.Pairwise fun a b => Utf8.bytes a.1 < Utf8.bytes b.1 := by
  have ho : (map.toList.map Prod.fst).Pairwise fun a b => compare a b = .lt := by
    rw [Std.ExtTreeMap.map_fst_toList_eq_keys]
    exact Std.ExtTreeMap.ordered_keys
  rw [List.pairwise_map] at ho
  exact ho.imp fun hab => Utf8.bytes_lt (compareOfLessAndEq_eq_lt.mp hab)

/-- The rows of records. -/
def RecordKind.rowsOf (kind : RecordKind) (map : Rows kind.Carrier) : Rows ByteArray :=
  map.map fun _ record => kind.encode record

/-- Whether the records of a map carry their keys and fit into rows. -/
def RecordKind.Keeps (kind : RecordKind) (map : Rows kind.Carrier) : Prop :=
  ∀ key record, map[key]? = some record → kind.key record = key ∧ kind.Fits record

namespace RecordKind

variable {kind : RecordKind} {map : Rows kind.Carrier} {record : kind.Carrier} {key : String}

theorem getElem?_rowsOf (kind : RecordKind) (map : Rows kind.Carrier) (key : String) :
    (kind.rowsOf map)[key]? = map[key]?.map kind.encode := Std.ExtTreeMap.getElem?_map

theorem contains_rowsOf (kind : RecordKind) (map : Rows kind.Carrier) (key : String) :
    (kind.rowsOf map).contains key = map.contains key := Std.ExtTreeMap.contains_map

theorem rowsOf_insert (kind : RecordKind) (map : Rows kind.Carrier) (record : kind.Carrier)
    (key : String) :
    kind.rowsOf (map.insert key record) = (kind.rowsOf map).insert key (kind.encode record) := by
  apply Std.ExtTreeMap.ext_getElem?
  intro key'
  rw [getElem?_rowsOf, Std.ExtTreeMap.getElem?_insert, Std.ExtTreeMap.getElem?_insert,
    getElem?_rowsOf]
  split <;> rfl

theorem rowsOf_erase (kind : RecordKind) (map : Rows kind.Carrier) (key : String) :
    kind.rowsOf (map.erase key) = (kind.rowsOf map).erase key := by
  apply Std.ExtTreeMap.ext_getElem?
  intro key'
  rw [getElem?_rowsOf, Std.ExtTreeMap.getElem?_erase, Std.ExtTreeMap.getElem?_erase,
    getElem?_rowsOf]
  split <;> rfl

theorem keeps_empty (kind : RecordKind) : kind.Keeps ∅ := by
  intro key record h
  rw [Std.ExtTreeMap.getElem?_empty] at h
  cases h

theorem Keeps.insert (h : kind.Keeps map) (hfits : kind.Fits record) :
    kind.Keeps (map.insert (kind.key record) record) := by
  intro key record' hr
  rw [Std.ExtTreeMap.getElem?_insert] at hr
  split at hr
  · next hkey =>
    cases hr
    exact ⟨compare_eq_iff_eq.mp hkey, hfits⟩
  · exact h key record' hr

theorem Keeps.erase (h : kind.Keeps map) (key : String) : kind.Keeps (map.erase key) := by
  intro key' record hr
  rw [Std.ExtTreeMap.getElem?_erase] at hr
  split at hr
  · cases hr
  · exact h key' record hr

theorem Keeps.decodeRow? (h : kind.Keeps map) (key : String) :
    ControlPlane.decodeRow? kind (kind.rowsOf map)[key]? = .ok map[key]? := by
  rw [getElem?_rowsOf]
  cases hr : map[key]? with
  | none => rfl
  | some record =>
    rw [Option.map_some, ControlPlane.decodeRow?, ControlPlane.decodeRow,
      kind.decode_encode (h key record hr).2]
    rfl

theorem Keeps.decodeRows (h : kind.Keeps map) :
    ControlPlane.decodeRows kind (kind.rowsOf map).values = .ok map.values := by
  have go : ∀ entries : List (String × kind.Carrier), (∀ e ∈ entries, e ∈ map.toList) →
      ControlPlane.decodeRows kind (entries.map fun e => kind.encode e.2) =
        .ok (entries.map Prod.snd) := by
    intro entries
    induction entries with
    | nil => intro _; rfl
    | cons entry rest ih =>
      intro hmem
      have hrow := Std.ExtTreeMap.mem_toList_iff_getElem?_eq_some.mp
        (hmem entry List.mem_cons_self)
      have hrest := ih fun e he => hmem e (List.mem_cons_of_mem entry he)
      unfold ControlPlane.decodeRows at hrest ⊢
      rw [List.map_cons, List.mapM_cons, hrest, List.map_cons, ControlPlane.decodeRow,
        kind.decode_encode (h _ _ hrow).2]
      rfl
  rw [Database.values_eq, Database.values_eq, rowsOf, Std.ExtTreeMap.toList_map, List.map_map]
  exact go map.toList fun _ he => he

end RecordKind

/-! ## Databases that represent maps -/

/-- Whether the rows of a database are the rows of the records of maps. -/
structure Database.Represents (db : Database) (maps : Maps) : Prop where
  /-- A query finds the rows of the records under their keys, and no other rows. -/
  rows : ∀ kind : RecordKind, Query.rows kind db = .ok (kind.rowsOf (maps kind))
  /-- The records carry their keys and fit into rows. -/
  keeps : ∀ kind : RecordKind, kind.Keeps (maps kind)

namespace Database.Represents

variable {db : Database} {maps : Maps}

theorem opening (h : db.Represents maps) (kind : RecordKind) :
    (db.opening kind).Represents maps where
  rows := by
    intro kind'
    rw [Query.rows_opening, h.rows kind']
  keeps := h.keeps

theorem put (h : db.Represents maps) {kind : RecordKind} {map : Rows kind.Carrier}
    (hmap : kind.Keeps map) :
    (db.put kind.table (.bytes (kind.rowsOf map))).Represents (maps.set kind map) where
  rows := by
    intro kind'
    by_cases hk : kind = kind'
    · subst hk
      rw [Query.rows_put_same, Maps.set, Function.update_self]
    · rw [Query.rows_put_other _ _ hk, h.rows kind', Maps.set,
        Function.update_of_ne (Ne.symm hk)]
  keeps := by
    intro kind'
    by_cases hk : kind = kind'
    · subst hk
      rw [Maps.set, Function.update_self]
      exact hmap
    · rw [Maps.set, Function.update_of_ne (Ne.symm hk)]
      exact h.keeps kind'

/-- The rows in the tables are those of the records, whether the tables exist or not. -/
theorem row?_eq (h : db.Represents maps) (kind : RecordKind) (key : String) :
    db.row? kind.table key = (maps kind)[key]?.map kind.encode := by
  rw [Database.row?_eq, ← Query.rows_eq_rowsOf (h.rows kind), RecordKind.getElem?_rowsOf]

theorem of_row? (h : db.Represents maps) {kind : RecordKind} {key : String} {row : ByteArray}
    (hrow : db.row? kind.table key = some row) :
    ∃ record, (maps kind)[key]? = some record ∧ kind.decode row = .ok record ∧
      kind.key record = key := by
  rw [h.row?_eq kind key, Option.map_eq_some_iff] at hrow
  obtain ⟨record, hr, rfl⟩ := hrow
  obtain ⟨hkey, hfits⟩ := h.keeps kind key record hr
  exact ⟨record, hr, kind.decode_encode hfits, hkey⟩

end Database.Represents

theorem Database.empty_represents : Database.empty.Represents Maps.empty where
  rows := by
    intro kind
    cases kind <;> rfl
  keeps := fun kind => kind.keeps_empty

theorem Schema.fresh_represents : Schema.fresh.Represents Maps.empty where
  rows := by
    intro kind
    rw [Query.rows, Schema.fresh_intact.bytes? kind, Schema.rowsOf_fresh]
    rfl
  keeps := fun kind => kind.keeps_empty

/-! ## Statements -/

/-- Whether the record that a statement stores fits into a row. -/
def Statement.Fits : Statement → Prop
  | .create record | .update record | .upsert record => record.kind.Fits record.record
  | _ => True

/-- A statement does to a database what it does to the maps that the database represents. -/
theorem Statement.run_represents {db : Database} {maps : Maps} (h : db.Represents maps)
    {statement : Statement} (hfits : statement.Fits) :
    (statement.run db).1 = (Maps.step statement maps).1 ∧
      (statement.run db).2.Represents (Maps.step statement maps).2 := by
  cases statement with
  | get kind key =>
    rw [Statement.run, Tx.bind_run, Tx.get_of_rows (h.rows kind), (h.keeps kind).decodeRow?,
      Maps.step]
    cases (maps kind)[key]? with
    | none => exact ⟨rfl, h.opening kind⟩
    | some record => exact ⟨rfl, h.opening kind⟩
  | find kind key =>
    rw [Statement.run, Tx.bind_run, Tx.find_of_rows (h.rows kind), (h.keeps kind).decodeRow?]
    exact ⟨rfl, h.opening kind⟩
  | list kind =>
    rw [Statement.run, Tx.bind_run, Tx.list_of_rows (h.rows kind), (h.keeps kind).decodeRows]
    exact ⟨rfl, h.opening kind⟩
  | create record =>
    obtain ⟨kind, record⟩ := record
    have hput := h.put ((h.keeps kind).insert hfits)
    rw [kind.rowsOf_insert] at hput
    rw [Statement.run, Tx.bind_run, Tx.create_of_rows (h.rows kind), kind.contains_rowsOf, Maps.step]
    cases (maps kind).contains (kind.key record) with
    | true => exact ⟨rfl, h.opening kind⟩
    | false => exact ⟨rfl, hput⟩
  | update record =>
    obtain ⟨kind, record⟩ := record
    have hput := h.put ((h.keeps kind).insert hfits)
    rw [kind.rowsOf_insert] at hput
    rw [Statement.run, Tx.bind_run, Tx.update_of_rows (h.rows kind), kind.contains_rowsOf, Maps.step]
    cases (maps kind).contains (kind.key record) with
    | true => exact ⟨rfl, hput⟩
    | false => exact ⟨rfl, h.opening kind⟩
  | upsert record =>
    obtain ⟨kind, record⟩ := record
    have hput := h.put ((h.keeps kind).insert hfits)
    rw [kind.rowsOf_insert] at hput
    rw [Statement.run, Tx.bind_run, Tx.upsert_of_rows (h.rows kind), kind.contains_rowsOf, Maps.step]
    exact ⟨rfl, hput⟩
  | delete kind key =>
    have hput := h.put ((h.keeps kind).erase key)
    rw [kind.rowsOf_erase] at hput
    rw [Statement.run, Tx.bind_run, Tx.delete_of_rows (h.rows kind), kind.contains_rowsOf, Maps.step]
    cases (maps kind).contains key with
    | true => exact ⟨rfl, hput⟩
    | false => exact ⟨rfl, h.opening kind⟩
  | fail reason => exact ⟨rfl, h⟩

/-- The statements of queries. -/
def Statement.Reads : Statement → Prop
  | .get .. | .find .. | .list _ => True
  | _ => False

/-- A query answers a statement as a transaction does. -/
theorem Statement.read_eq_fst {statement : Statement} (hreads : statement.Reads) (db : Database) :
    statement.read db = (statement.run db).1 := by
  cases statement with
  | get kind key =>
    rw [Statement.read, Query.bind_run, Query.get_eq_fst, Statement.run, Tx.bind_run]
    rcases Tx.get kind key db with ⟨e | record, db'⟩ <;> rfl
  | find kind key =>
    rw [Statement.read, Query.bind_run, Query.find_eq_fst, Statement.run, Tx.bind_run]
    rcases Tx.find kind key db with ⟨e | record, db'⟩ <;> rfl
  | list kind =>
    rw [Statement.read, Query.bind_run, Query.list_eq_fst, Statement.run, Tx.bind_run]
    rcases Tx.list kind db with ⟨e | records, db'⟩ <;> rfl
  | create | update | upsert | delete | fail => cases hreads

theorem Maps.step_reads {statement : Statement} (hreads : statement.Reads) (maps : Maps) :
    (Maps.step statement maps).2 = maps := by
  cases statement with
  | get kind key =>
    rw [Maps.step]
    cases (maps kind)[key]? <;> rfl
  | find | list => rfl
  | create | update | upsert | delete | fail => cases hreads

/-! ## Procedures -/

/-- A program over statements: it ends with a result, or it makes a statement and goes on as the
result of the statement tells. -/
inductive Procedure (α : Type) where
  /-- The end. -/
  | done (result : Except ClusterError α)
  /-- A statement and what follows it. -/
  | step (statement : Statement) (next : StatementResult → Procedure α)

namespace Procedure

variable {α σ : Type}

/-- Runs a procedure over states that a statement takes one to the next. -/
def run (exec : Statement → σ → StatementResult × σ) : Procedure α → σ → Except ClusterError α × σ
  | .done result, s => (result, s)
  | .step statement next, s => (next (exec statement s).1).run exec (exec statement s).2

/-- The procedure as a transaction. -/
def tx (procedure : Procedure α) : Tx α := procedure.run Statement.run

/-- The procedure as a query. -/
def query (procedure : Procedure α) : Query α := fun db =>
  (procedure.run (fun statement db => (statement.read db, db)) db).1

/-- Whether every statement that a procedure can make is as told. -/
def Every (p : Statement → Prop) : Procedure α → Prop
  | .done _ => True
  | .step statement next => p statement ∧ ∀ result, (next result).Every p

/-- Makes statements in order up to the first that fails, and ends as told if none does. -/
def ofList (result : List Yield → Except ClusterError α) : List Statement → Procedure α
  | [] => .done (result [])
  | statement :: statements => .step statement fun
    | .ok value => ofList (fun yields => result (value :: yields)) statements
    | .error e => .done (.error e)

theorem every_ofList {p : Statement → Prop} {statements : List Statement}
    (h : ∀ statement ∈ statements, p statement) :
    ∀ result : List Yield → Except ClusterError α, (ofList result statements).Every p := by
  induction statements with
  | nil => exact fun _ => trivial
  | cons statement statements ih =>
    intro result
    refine ⟨h statement List.mem_cons_self, fun r => ?_⟩
    cases r with
    | error e => trivial
    | ok value => exact ih (fun s hs => h s (List.mem_cons_of_mem statement hs)) _

theorem tx_represents {procedure : Procedure α} (hfits : procedure.Every Statement.Fits) :
    ∀ {db : Database} {maps : Maps}, db.Represents maps →
      (procedure.tx db).1 = (procedure.run Maps.step maps).1 ∧
        (procedure.tx db).2.Represents (procedure.run Maps.step maps).2 := by
  induction procedure with
  | done result => exact fun h => ⟨rfl, h⟩
  | step statement next ih =>
    intro db maps h
    obtain ⟨hresult, hleft⟩ := Statement.run_represents h hfits.1
    have hnext := ih (statement.run db).1 (hfits.2 _) hleft
    have hmaps : (Procedure.step statement next).run Maps.step maps =
        (next (statement.run db).1).run Maps.step (Maps.step statement maps).2 := by
      rw [run, hresult]
    rw [hmaps]
    exact hnext

theorem query_represents {procedure : Procedure α} (hreads : procedure.Every Statement.Reads) :
    ∀ {db : Database} {maps : Maps}, db.Represents maps →
      procedure.query db = (procedure.run Maps.step maps).1 := by
  induction procedure with
  | done result => exact fun _ => rfl
  | step statement next ih =>
    intro db maps h
    have hfits : statement.Fits := by
      cases statement with
      | get | find | list | fail | delete => trivial
      | create | update | upsert => cases hreads.1
    have hresult : statement.read db = (Maps.step statement maps).1 := by
      rw [Statement.read_eq_fst hreads.1, (Statement.run_represents h hfits).1]
    show (next (statement.read db)).query db = _
    rw [hresult, ih _ (hreads.2 _) h, Procedure.run, Maps.step_reads hreads.1]

end Procedure

/-! ## Calls -/

/-- A call of the store. -/
inductive StoreCall (α : Type) where
  /-- A procedure as a transaction. -/
  | commit (procedure : Procedure α)
  /-- A procedure as a query. -/
  | query (procedure : Procedure α)

namespace StoreCall

variable {α σ : Type}

/-- Whether a transaction stores only records that fit, and a query only reads. -/
def Admissible : StoreCall α → Prop
  | .commit procedure => procedure.Every Statement.Fits
  | .query procedure => procedure.Every Statement.Reads

/-- Runs a call on a database. -/
def onDatabase : StoreCall α → Database → Except ClusterError α × Database
  | .commit procedure, db => db.commit procedure.tx
  | .query procedure, db => (db.query procedure.query, db)

/-- Runs a call on maps: a transaction works on a copy, which takes the place of the maps only if the
procedure succeeds. -/
def onMaps : StoreCall α → Maps → Except ClusterError α × Maps
  | .commit procedure, maps =>
    match procedure.run Maps.step maps with
    | (.ok value, copy) => (.ok value, copy)
    | (.error e, _) => (.error e, maps)
  | .query procedure, maps => ((procedure.run Maps.step maps).1, maps)

/-- Runs calls one after another. -/
def runAll (run : StoreCall α → σ → Except ClusterError α × σ) :
    List (StoreCall α) → σ → List (Except ClusterError α) × σ
  | [], s => ([], s)
  | call :: calls, s =>
    let (result, s) := run call s
    let (results, s) := runAll run calls s
    (result :: results, s)

theorem onDatabase_represents {call : StoreCall α} (hcall : call.Admissible) {db : Database}
    {maps : Maps} (h : db.Represents maps) :
    (call.onDatabase db).1 = (call.onMaps maps).1 ∧
      (call.onDatabase db).2.Represents (call.onMaps maps).2 := by
  cases call with
  | query procedure => exact ⟨procedure.query_represents hcall h, h⟩
  | commit procedure =>
    obtain ⟨hresult, hleft⟩ := procedure.tx_represents hcall h
    rw [onDatabase, onMaps, Database.commit]
    rcases hdb : procedure.tx db with ⟨result, db'⟩
    rcases hmaps : procedure.run Maps.step maps with ⟨result', maps'⟩
    rw [hdb, hmaps] at hresult hleft
    dsimp only at hresult hleft
    subst hresult
    cases result with
    | error e => exact ⟨rfl, h⟩
    | ok value => exact ⟨rfl, hleft⟩

theorem runAll_represents {calls : List (StoreCall α)} (hcalls : ∀ call ∈ calls, call.Admissible) :
    ∀ {db : Database} {maps : Maps}, db.Represents maps →
      (runAll onDatabase calls db).1 = (runAll onMaps calls maps).1 ∧
        (runAll onDatabase calls db).2.Represents (runAll onMaps calls maps).2 := by
  induction calls with
  | nil => exact fun h => ⟨rfl, h⟩
  | cons call calls ih =>
    intro db maps h
    obtain ⟨hresult, hleft⟩ := onDatabase_represents (hcalls call List.mem_cons_self) h
    obtain ⟨hresults, hend⟩ := ih (fun c hc => hcalls c (List.mem_cons_of_mem call hc)) hleft
    refine ⟨?_, hend⟩
    show (call.onDatabase db).1 :: (runAll onDatabase calls (call.onDatabase db).2).1 = _
    rw [hresult, hresults]
    rfl

/--
A database without tables and a new one that is up to date represent empty maps. On a database that
represents maps every sequence of calls yields what it yields on the maps, and it leaves a database
whose rows are the rows of the records of the maps left, where every record stands under the key that
it carries. A listing, in a transaction or not, is in strictly ascending order of the UTF-8 bytes of
the keys.
-/
theorem store_refines_maps :
    Database.empty.Represents Maps.empty ∧ Schema.fresh.Represents Maps.empty ∧
    (∀ calls : List (StoreCall α), (∀ call ∈ calls, call.Admissible) →
      ∀ (db : Database) (maps : Maps), db.Represents maps →
        let stored := runAll onDatabase calls db
        let mapped := runAll onMaps calls maps
        stored.1 = mapped.1 ∧ stored.2.Represents mapped.2 ∧
        ∀ (kind : RecordKind) (key : String),
          stored.2.row? kind.table key = (mapped.2 kind)[key]?.map kind.encode ∧
          ∀ row, stored.2.row? kind.table key = some row →
            ∃ record, kind.decode row = .ok record ∧ kind.key record = key) ∧
    ∀ (kind : RecordKind) (maps : Maps),
      (Maps.step (.list kind) maps).1 =
        .ok (.records ((maps kind).toList.map fun entry => ⟨kind, entry.2⟩)) ∧
      (maps kind).toList.Pairwise fun a b => Utf8.bytes a.1 < Utf8.bytes b.1 := by
  refine ⟨Database.empty_represents, Schema.fresh_represents, ?_, ?_⟩
  · intro calls hcalls db maps h
    obtain ⟨hresults, hleft⟩ := runAll_represents hcalls h
    refine ⟨hresults, hleft, fun kind key => ⟨hleft.row?_eq kind key, fun row hrow => ?_⟩⟩
    obtain ⟨record, -, hdecode, hkey⟩ := hleft.of_row? hrow
    exact ⟨record, hdecode, hkey⟩
  · intro kind maps
    refine ⟨?_, (maps kind).toList_ascending⟩
    rw [Maps.step, Database.values_eq, List.map_map]
    rfl

/-- The keys of the records that a statement lists. -/
def listedKeys : Yield → List String
  | .records records => records.map fun record => record.kind.key record.record
  | _ => []

/-- Two gates are added, a transaction that fails removes one of them, and both are listed. -/
theorem store_refines_maps_rolled_back :
    (runAll onDatabase [
      .commit (.ofList (fun _ => .ok []) [.create ⟨.gate, ⟨"b", true⟩⟩, .create ⟨.gate, ⟨"a", true⟩⟩]),
      .commit (.ofList (fun _ => .error (.internal (.other "boom"))) [.delete .gate "a"]),
      .query (.ofList (fun yields => .ok (yields.flatMap listedKeys)) [.list .gate])] .empty).1 =
      [.ok [], .error (.internal (.other "boom")), .ok ["a", "b"]] := by
  refine (store_refines_maps.2.2.1 _ ?_ _ _ Database.empty_represents).1.trans ?_
  · intro call hcall
    simp only [List.mem_cons, List.not_mem_nil, or_false] at hcall
    rcases hcall with rfl | rfl | rfl
    · apply Procedure.every_ofList
      intro statement hs
      simp only [List.mem_cons, List.not_mem_nil, or_false] at hs
      rcases hs with rfl | rfl
      · show String.utf8ByteSize "b" < RowForm.lengthLimit
        decide
      · show String.utf8ByteSize "a" < RowForm.lengthLimit
        decide
    · apply Procedure.every_ofList
      simp [Statement.Fits]
    · apply Procedure.every_ofList
      simp [Statement.Reads]
  · decide +kernel

end StoreCall

end ControlPlane
