import ControlPlane.Store.Transaction

/-!
# Scripts of statements

A script is a transaction given as data: statements over the four kinds of records that run in order.
A statement that fails ends the script unless it is marked as recovered from. A query script runs on
the database as it was when the script began, while complete transactions may be committed between
its statements.
-/

namespace ControlPlane

/-- A record of any kind. -/
structure AnyRecord where
  /-- The kind. -/
  kind : RecordKind
  /-- The record. -/
  record : kind.Carrier

/-- A statement over records. -/
inductive Statement where
  /-- The record under a key. -/
  | get (kind : RecordKind) (key : String)
  /-- The record under a key, if there is one. -/
  | find (kind : RecordKind) (key : String)
  /-- All records of a kind. -/
  | list (kind : RecordKind)
  /-- Adds a record. -/
  | create (record : AnyRecord)
  /-- Replaces a record. -/
  | update (record : AnyRecord)
  /-- Adds or replaces a record. -/
  | upsert (record : AnyRecord)
  /-- Removes a record. -/
  | delete (kind : RecordKind) (key : String)
  /-- Fails on purpose. -/
  | fail (reason : String)

/-- What a statement yields. -/
inductive Yield where
  /-- Nothing. -/
  | done
  /-- Whether a record was replaced. -/
  | replaced (value : Bool)
  /-- A record. -/
  | record (record : AnyRecord)
  /-- A record or none. -/
  | optional (record : Option AnyRecord)
  /-- Records. -/
  | records (records : List AnyRecord)

/-- The result of a statement. -/
abbrev StatementResult := Except ClusterError Yield

/-- Runs a statement in a transaction. -/
def Statement.run : Statement → Tx Yield
  | .get kind key => do pure (.record ⟨kind, ← Tx.get kind key⟩)
  | .find kind key => do pure (.optional ((← Tx.find kind key).map (⟨kind, ·⟩)))
  | .list kind => do pure (.records ((← Tx.list kind).map (⟨kind, ·⟩)))
  | .create ⟨kind, record⟩ => do Tx.create kind record; pure .done
  | .update ⟨kind, record⟩ => do Tx.update kind record; pure .done
  | .upsert ⟨kind, record⟩ => do pure (.replaced (← Tx.upsert kind record))
  | .delete kind key => do Tx.delete kind key; pure .done
  | .fail reason => throw (.internal (.other reason))

/-- Runs a statement as a query. Only reading statements are queries. -/
def Statement.read : Statement → Query Yield
  | .get kind key => do pure (.record ⟨kind, ← Query.get kind key⟩)
  | .find kind key => do pure (.optional ((← Query.find kind key).map (⟨kind, ·⟩)))
  | .list kind => do pure (.records ((← Query.list kind).map (⟨kind, ·⟩)))
  | .fail reason => throw (.internal (.other reason))
  | _ => throw (.internal (.other "a query cannot write"))

/-- A statement of a script. -/
structure ScriptLine where
  /-- The statement. -/
  statement : Statement
  /-- Whether the script goes on when the statement fails. -/
  recovers : Bool

/-- What a script did: the result of each statement that ran, and how it ended. -/
structure ScriptReport where
  /-- The results in order. -/
  results : List StatementResult
  /-- The error that ended the script, if one did. -/
  ended : Except ClusterError Unit

/-- Runs the lines of a script on a working copy. -/
def runLines : List ScriptLine → Database → ScriptReport × Database
  | [], db => (⟨[], .ok ()⟩, db)
  | line :: lines, db =>
    match line.statement.run db with
    | (.ok value, db) =>
      let (report, db) := runLines lines db
      ({ report with results := .ok value :: report.results }, db)
    | (.error e, db) =>
      if line.recovers then
        let (report, db) := runLines lines db
        ({ report with results := .error e :: report.results }, db)
      else (⟨[.error e], .error e⟩, db)

/-- Runs a script as one transaction. -/
def runScript (lines : List ScriptLine) (db : Database) : ScriptReport × Database :=
  match runLines lines db with
  | (report, db') =>
    match report.ended with
    | .ok () => (report, db')
    | .error _ => (report, db)

/-- A line of a query script. -/
inductive QueryLine where
  /-- A reading statement. -/
  | read (line : ScriptLine)
  /-- A transaction that is committed meanwhile. -/
  | commit (lines : List ScriptLine)

/-- The result of a line of a query script. -/
inductive QueryResult where
  /-- The result of a statement. -/
  | read (result : StatementResult)
  /-- The report of a transaction. -/
  | commit (report : ScriptReport)

/-- Runs a query script on a snapshot while the database moves on. -/
def runQueries (snapshot : Database) : List QueryLine → Database →
    List QueryResult × Except ClusterError Unit × Database
  | [], db => ([], .ok (), db)
  | .commit script :: lines, db =>
    let (report, db) := runScript script db
    let (results, ended, db) := runQueries snapshot lines db
    (.commit report :: results, ended, db)
  | .read line :: lines, db =>
    match line.statement.read snapshot with
    | .ok value =>
      let (results, ended, db) := runQueries snapshot lines db
      (.read (.ok value) :: results, ended, db)
    | .error e =>
      if line.recovers then
        let (results, ended, db) := runQueries snapshot lines db
        (.read (.error e) :: results, ended, db)
      else ([.read (.error e)], .error e, db)

end ControlPlane
