import ControlPlane.Store.Database

/-!
# Transactions

A transaction (`Tx`) reads and writes records in a working copy of the database. `Database.commit`
runs one: the working copy takes the place of the database if the transaction succeeds and is dropped
if it fails, so nobody sees a part of it. Inside a transaction the working copy survives a failed
step, which is why a transaction may recover from an error and go on.

A query (`Query`) reads the database as it is. A table that does not exist reads as empty, and a query
changes nothing; a transaction creates every table it touches.
-/

namespace ControlPlane

/-- A transaction with a result. -/
abbrev Tx (α : Type) := ExceptT ClusterError (StateM Database) α

/-- A query with a result. -/
abbrev Query (α : Type) := ReaderT Database (Except ClusterError) α

/-- Runs a transaction: all of it takes effect, or nothing does. -/
def Database.commit {α : Type} (db : Database) (tx : Tx α) : Except ClusterError α × Database :=
  match tx db with
  | (.ok value, db') => (.ok value, db')
  | (.error e, _) => (.error e, db)

/-- Runs a query. -/
def Database.query {α : Type} (db : Database) (query : Query α) : Except ClusterError α := query db

/-- A failure of the storage engine as an error of the cluster. -/
def ClusterError.ofStorage (fault : StorageFault) : ClusterError := .internal (.storage fault)

/-- The record in a row, or the error that it does not decode. -/
def decodeRow (kind : RecordKind) (row : ByteArray) : Except ClusterError kind.Carrier :=
  match kind.decode row with
  | .ok record => .ok record
  | .error fault => .error (.internal (.row fault))

/-- The record in a row that may be absent. -/
def decodeRow? (kind : RecordKind) : Option ByteArray → Except ClusterError (Option kind.Carrier)
  | none => .ok none
  | some row => (decodeRow kind row).map some

/-- The records in rows; the first row that does not decode decides. -/
def decodeRows (kind : RecordKind) (rows : List ByteArray) :
    Except ClusterError (List kind.Carrier) :=
  rows.mapM (decodeRow kind)

namespace Tx

variable (kind : RecordKind)

/-- The rows of a kind; its table exists afterwards. -/
def rows : Tx (Rows ByteArray) := fun db =>
  match db.openBytes kind.table with
  | .ok (rows, db') => (.ok rows, db')
  | .error fault => (.error (.ofStorage fault), db)

/-- Replaces the rows of a kind. -/
def setRows (rows : Rows ByteArray) : Tx Unit := fun db =>
  (.ok (), db.put kind.table (.bytes rows))

/-- The record under a key, if there is one. -/
def find (key : String) : Tx (Option kind.Carrier) := do
  let rows ← rows kind
  liftM (decodeRow? kind rows[key]?)

/-- The record under a key. -/
def get (key : String) : Tx kind.Carrier := do
  match ← find kind key with
  | some record => pure record
  | none => throw (.notFound kind key)

/-- All records of a kind in the order of their keys. -/
def list : Tx (List kind.Carrier) := do
  let rows ← rows kind
  liftM (decodeRows kind rows.values)

/-- Adds a record under a new key. -/
def create (record : kind.Carrier) : Tx Unit := do
  let rows ← rows kind
  if rows.contains (kind.key record) then throw (.alreadyExists kind (kind.key record))
  else setRows kind (rows.insert (kind.key record) (kind.encode record))

/-- Replaces the record under an existing key. -/
def update (record : kind.Carrier) : Tx Unit := do
  let rows ← rows kind
  if rows.contains (kind.key record) then
    setRows kind (rows.insert (kind.key record) (kind.encode record))
  else throw (.notFound kind (kind.key record))

/-- Adds or replaces a record; the result says whether one was replaced. -/
def upsert (record : kind.Carrier) : Tx Bool := do
  let rows ← rows kind
  setRows kind (rows.insert (kind.key record) (kind.encode record))
  pure (rows.contains (kind.key record))

/-- Removes the record under a key. -/
def delete (key : String) : Tx Unit := do
  let rows ← rows kind
  if rows.contains key then setRows kind (rows.erase key) else throw (.notFound kind key)

end Tx

namespace Query

variable (kind : RecordKind)

/-- The rows of a kind, none if its table does not exist. -/
def rows : Query (Rows ByteArray) := fun db =>
  match db.bytes? kind.table with
  | .ok rows => .ok (rows.getD ∅)
  | .error fault => .error (.ofStorage fault)

/-- The record under a key, if there is one. -/
def find (key : String) : Query (Option kind.Carrier) := do
  let rows ← rows kind
  liftM (decodeRow? kind rows[key]?)

/-- The record under a key. -/
def get (key : String) : Query kind.Carrier := do
  match ← find kind key with
  | some record => pure record
  | none => throw (.notFound kind key)

/-- All records of a kind in the order of their keys. -/
def list : Query (List kind.Carrier) := do
  let rows ← rows kind
  liftM (decodeRows kind rows.values)

end Query

end ControlPlane
