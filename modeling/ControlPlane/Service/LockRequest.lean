import ControlPlane.Error
import ControlPlane.Json.Record

/-!
# Lock documents

A client asks for a lock with a JSON document of its own. The token by which it will be known is the
string `ID` of that document; the rest of the document is for other clients to read and is kept
verbatim. The document is read twice and in two ways: the request looks for the token alone
(`LockRequest.parse`), the listing of locks reads all of it (`Lock.document`).
-/

namespace ControlPlane

/-- The part of a lock document that a request looks for. -/
def LockRequest.shape : Json.Shape := ⟨"LockDocument", [⟨"ID", .text⟩]⟩

/-- A request to take or to give back a lock. -/
structure LockRequest where
  /-- The token of the requester. -/
  token : String
  /-- The requester's document. -/
  holder : String
deriving DecidableEq, Repr

/-- Reads a request from a body. -/
def LockRequest.parse (body : ByteArray) : Except InputFault LockRequest :=
  match Utf8.decode body with
  | .error fault => .error (.lockNotText fault)
  | .ok holder =>
    match shape.parse body.data.toList with
    | .error complaint => .error (.malformedLock complaint)
    | .ok (token, ()) => .ok ⟨token, holder⟩

/-- The holder's document as a JSON value. -/
def Lock.document (lock : Lock) : Except ClusterError Json.Value :=
  match Json.Value.parse lock.holder.toUTF8.data.toList with
  | .ok value => .ok value
  | .error complaint => .error (.internal (.document lock.name complaint))

end ControlPlane
