import ControlPlane.Record.RowForm
import ControlPlane.Json.Fault

/-!
# What can go wrong

An operation on the cluster fails with a `ClusterError`. Two of its causes carry the lock that stands
in the way, so that a client can be shown the holder's document. The wording of every error is given
by `ClusterError.message`.
-/

namespace ControlPlane

/-- The type of the rows of a table. -/
inductive RowType where
  /-- Records. -/
  | bytes
  /-- Numbers of 64 bits. -/
  | word
  /-- Numbers of 32 bits, which no part of this program keeps. -/
  | half
deriving DecidableEq, Repr

/-- How the storage engine calls a type of rows. -/
def RowType.describe : RowType → String
  | .bytes => "&[u8]"
  | .word => "u64"
  | .half => "u32"

/-- A failure of the storage engine. -/
inductive StorageFault where
  /-- A table holds rows of another type than asked for. -/
  | wrongType (table : String) (actual : RowType)
  /-- The database is open already. -/
  | alreadyOpen
  /-- The directory of the database does not exist. -/
  | directoryMissing
deriving DecidableEq, Repr

/-- What the storage engine says about a failure. -/
def StorageFault.reason : StorageFault → String
  | .wrongType table actual => s!"{table} is of type Table<&str, {actual.describe}>"
  | .alreadyOpen => "Database already open. Cannot acquire lock."
  | .directoryMissing => "I/O error: No such file or directory (os error 2)"

/-- The part of the storage engine that failed. -/
def StorageFault.subject : StorageFault → String
  | .wrongType .. => "table"
  | .alreadyOpen | .directoryMissing => "database"

/-- The wording of a failure of the storage engine. -/
def StorageFault.message (fault : StorageFault) : String :=
  s!"redb {fault.subject} error: {fault.reason}"

/-- What is wrong with the input of a request. -/
inductive InputFault where
  /-- A lock document that is not text. -/
  | lockNotText (fault : Utf8.Fault)
  /-- A lock document that cannot be read. -/
  | malformedLock (complaint : Json.Complaint)
  /-- A request body that cannot be read. -/
  | malformedBody (complaint : Json.Complaint)
  /-- A configuration value that is not text. -/
  | valueNotText (fault : Utf8.Fault)
  /-- A gate without a name. -/
  | gateKeyMissing
  /-- A name in a path that is empty. -/
  | emptySegment
  /-- A name in a path that is not text once decoded, with the word for what it names. -/
  | segmentNotText (parameter : String)
deriving DecidableEq, Repr

/-- The wording of a fault of the input. -/
def InputFault.message : InputFault → String
  | .lockNotText fault => "lock body is not UTF-8: " ++ fault.message
  | .malformedLock complaint => "malformed lock body: " ++ complaint.message
  | .malformedBody complaint => "malformed request body: " ++ complaint.message
  | .valueNotText fault => "value is not UTF-8: " ++ fault.message
  | .gateKeyMissing => "gate-key is required"
  | .emptySegment => "empty path segment"
  | .segmentNotText parameter => s!"Invalid URL: Invalid UTF-8 in \x60{parameter}\x60"

/-- What is wrong inside the program. -/
inductive InternalFault where
  /-- The storage engine failed. -/
  | storage (fault : StorageFault)
  /-- A row does not decode. -/
  | row (fault : RowFault)
  /-- The document of a lock is no JSON value. -/
  | document (name : String) (complaint : Json.Complaint)
  /-- A task that ran in the background broke off. -/
  | crashed (activity : String)
  /-- Another failure, in its own words. -/
  | other (reason : String)
deriving DecidableEq, Repr

/-- The wording of a fault inside the program. -/
def InternalFault.message : InternalFault → String
  | .storage fault => fault.message
  | .row fault => "serialization error: " ++ fault.message
  | .document name complaint =>
    s!"lock document for {quoted name} cannot be serialized: {complaint.message}"
  | .crashed activity => s!"{activity} task failed: task panicked"
  | .other reason => reason

/-- Why an operation on the cluster failed. -/
inductive ClusterError where
  /-- No record has the key. -/
  | notFound (kind : RecordKind) (key : String)
  /-- A record has the key already. -/
  | alreadyExists (kind : RecordKind) (key : String)
  /-- The name is locked. -/
  | alreadyLocked (lock : Lock)
  /-- The name is locked under another token. -/
  | lockConflict (lock : Lock)
  /-- The request is malformed. -/
  | invalidInput (fault : InputFault)
  /-- The program failed. -/
  | internal (fault : InternalFault)
deriving DecidableEq, Repr

/-- The wording of an error. -/
def ClusterError.message : ClusterError → String
  | .notFound kind key => s!"{kind.noun} {quoted key} not found"
  | .alreadyExists kind key => s!"{kind.noun} {quoted key} already exists"
  | .alreadyLocked lock => s!"{lock.name} is already locked by {lock.token}"
  | .lockConflict lock => s!"lock on {lock.name} is held by {lock.token}"
  | .invalidInput fault => "invalid input: " ++ fault.message
  | .internal fault => "internal error: " ++ fault.message

/-- The lock that stands in the way, if one does. -/
def ClusterError.lock? : ClusterError → Option Lock
  | .alreadyLocked lock => some lock
  | .lockConflict lock => some lock
  | _ => none

end ControlPlane
