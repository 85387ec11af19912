import ControlPlane.Store.Database

/-!
# The schema

The schema grows by updates that are applied once each, in order; an update creates a table. The
number of updates applied is the version of the schema and is kept in the database itself. Bringing a
database up to date applies the updates it lacks, all of them or none, and touches no row; a database
written by a newer program is left as it is.
-/

namespace ControlPlane

namespace Schema

/-- The tables created by the updates, in order. An update is never changed or moved; new ones are
added at the end. -/
def updates : List String :=
  [RecordKind.config.table, RecordKind.state.table, RecordKind.lock.table, RecordKind.gate.table]

/-- The version after all updates. -/
def current : UInt64 := updates.length.toUInt64

/-- The table that holds the version. -/
def versionTable : String := "schema"

/-- The key under which the version is kept. -/
def versionKey : String := "version"

/-- The version of a database, zero if it has none. -/
def version (db : Database) : Except StorageFault UInt64 := do
  let rows ← db.words? versionTable
  .ok (((rows.getD ∅)[versionKey]?).getD 0)

/-- Applies updates in order. -/
def applyAll (db : Database) (tables : List String) : Except StorageFault Database :=
  tables.foldlM (fun db table => (db.openBytes table).map Prod.snd) db

/-- The database with all updates applied, from the version it has. -/
def upgraded (db : Database) : Except StorageFault (UInt64 × Database) := do
  let (rows, opened) ← db.openWords versionTable
  let version := (rows[versionKey]?).getD 0
  if current ≤ version then .ok (version, db)
  else do
    let opened ← applyAll opened (updates.drop version.toNat)
    let final ← opened.putWord versionTable versionKey current
    .ok (current, final)

/-- Brings a database up to date and returns the version it then has. A database that cannot be
brought up to date stays as it was. -/
def apply (db : Database) : Except StorageFault UInt64 × Database :=
  match upgraded db with
  | .ok (version, db') => (.ok version, db')
  | .error fault => (.error fault, db)

end Schema

end ControlPlane
