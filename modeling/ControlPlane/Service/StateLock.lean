import ControlPlane.Service.LockRequest
import ControlPlane.Store.Transaction

/-!
# States and locks

A state is a document under a name. A name can be locked, and the lock names its holder by a token:

- a lock is taken only where there is none, so taking a lock twice fails even for its holder;
- a state is written by anybody while its name is unlocked, and by the holder alone while it is locked;
- a lock is given back by its holder, and giving back a lock that is not held succeeds;
- a state is removed whether or not its name is locked.

Each of these is one transaction, so nothing comes between a check and the write that relies on it.
-/

namespace ControlPlane

namespace StateLock

/-- The names of all states. -/
def listStates : Query (List String) := do
  pure ((← Query.list .state).map (·.name))

/-- The state under a name. -/
def getState (name : String) : Query StateEntry := Query.get .state name

/-- Writes a state on behalf of the holder of a token. -/
def putState (name token : String) (payload : ByteArray) : Tx Unit := do
  match ← Tx.find .lock name with
  | some lock => if lock.token ≠ token then throw (.lockConflict lock)
  | none => pure ()
  let _ ← Tx.upsert .state ⟨name, payload⟩

/-- Removes a state. -/
def deleteState (name : String) : Tx Unit := Tx.delete .state name

/-- All locks. -/
def listLocks : Query (List Lock) := Query.list .lock

/-- The lock on a name. -/
def getLock (name : String) : Query Lock := Query.get .lock name

/-- Takes the lock on a name. -/
def acquire (name : String) (request : LockRequest) : Tx Lock := do
  match ← Tx.find .lock name with
  | some lock => throw (.alreadyLocked lock)
  | none =>
    let lock : Lock := ⟨name, request.token, request.holder⟩
    Tx.create .lock lock
    pure lock

/-- Gives back the lock on a name. -/
def release (name token : String) : Tx Unit := do
  match ← Tx.find .lock name with
  | none => pure ()
  | some lock => if lock.token ≠ token then throw (.lockConflict lock) else Tx.delete .lock name

end StateLock

end ControlPlane
