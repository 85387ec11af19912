import Std.Data.ExtTreeMap
import ControlPlane.Error

/-!
# The database

A database is a finite set of named tables, and a table maps keys to rows in the order of the keys'
bytes. Two databases with the same tables and rows are equal. The records live in tables of bytes; the
version of the schema lives in a table of numbers; a table of any other type can be present too and is
refused wherever a table of bytes or of numbers is wanted.
-/

namespace ControlPlane

/-- The rows of a table in the order of their keys. -/
abbrev Rows (α : Type) := Std.ExtTreeMap String α

/-- A table. -/
inductive Table where
  /-- Rows of bytes. -/
  | bytes (rows : Rows ByteArray)
  /-- Rows of numbers. -/
  | words (rows : Rows UInt64)
  /-- Rows that this program does not read. -/
  | other

/-- The type of the rows of a table. -/
def Table.type : Table → RowType
  | .bytes _ => .bytes
  | .words _ => .word
  | .other => .half

/-- The tables of a database by name. -/
structure Database where
  /-- The tables. -/
  tables : Std.ExtTreeMap String Table

namespace Database

/-- The database without tables. -/
def empty : Database := ⟨∅⟩

/-- The names of the tables in order. -/
def names (db : Database) : List String := db.tables.keys

/-- Puts a table in its place. -/
def put (db : Database) (name : String) (table : Table) : Database :=
  ⟨db.tables.insert name table⟩

/-- The rows of bytes of a table, or `none` where the table does not exist. -/
def bytes? (db : Database) (name : String) : Except StorageFault (Option (Rows ByteArray)) :=
  match db.tables[name]? with
  | none => .ok none
  | some (.bytes rows) => .ok (some rows)
  | some table => .error (.wrongType name table.type)

/-- The rows of numbers of a table, or `none` where the table does not exist. -/
def words? (db : Database) (name : String) : Except StorageFault (Option (Rows UInt64)) :=
  match db.tables[name]? with
  | none => .ok none
  | some (.words rows) => .ok (some rows)
  | some table => .error (.wrongType name table.type)

/-- Makes sure that a table of bytes exists. -/
def openBytes (db : Database) (name : String) : Except StorageFault (Rows ByteArray × Database) := do
  match ← db.bytes? name with
  | some rows => .ok (rows, db)
  | none => .ok (∅, db.put name (.bytes ∅))

/-- Makes sure that a table of numbers exists. -/
def openWords (db : Database) (name : String) : Except StorageFault (Rows UInt64 × Database) := do
  match ← db.words? name with
  | some rows => .ok (rows, db)
  | none => .ok (∅, db.put name (.words ∅))

/-- Makes sure that a table of a foreign type exists. -/
def openOther (db : Database) (name : String) : Except StorageFault Database :=
  match db.tables[name]? with
  | none => .ok (db.put name .other)
  | some .other => .ok db
  | some table => .error (.wrongType name table.type)

/-- Writes a row of bytes, creating the table if need be. -/
def putRow (db : Database) (name key : String) (row : ByteArray) : Except StorageFault Database := do
  let (rows, db) ← db.openBytes name
  .ok (db.put name (.bytes (rows.insert key row)))

/-- Writes a number, creating the table if need be. -/
def putWord (db : Database) (name key : String) (value : UInt64) : Except StorageFault Database := do
  let (rows, db) ← db.openWords name
  .ok (db.put name (.words (rows.insert key value)))

/-- The row of bytes under a key, if there is one. -/
def row? (db : Database) (name key : String) : Option ByteArray :=
  match db.tables[name]? with
  | some (.bytes rows) => rows[key]?
  | _ => none

/-- The record of a kind under a key, if there is one that decodes. -/
def record? (db : Database) (kind : RecordKind) (key : String) : Option kind.Carrier :=
  (db.row? kind.table key).bind fun row => (kind.decode row).toOption

end Database

end ControlPlane
