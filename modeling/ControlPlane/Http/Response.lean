import ControlPlane.Http.Endpoint
import ControlPlane.Json.Value
import ControlPlane.Service.LockRequest
import ControlPlane.Service.Operation

/-!
# Responses

A success is answered by an envelope around what was asked for, except that states and locks are
answered by their documents alone. A failure is answered by an envelope around its message, except
that a lock in the way is answered by the holder's document.
-/

namespace ControlPlane

namespace Http

/-- A response. -/
structure Response where
  /-- The status. -/
  status : Nat
  /-- The type of the body. -/
  contentType : Option String
  /-- The methods that would have been answered, where that is said. -/
  allow : Option String
  /-- The body. -/
  body : ByteArray
deriving DecidableEq

/-- The type of JSON bodies. -/
def jsonType : String := "application/json"

/-- The type of bodies in plain text. -/
def plainType : String := "text/plain; charset=utf-8"

namespace Response

/-- A response without body. -/
def bare (status : Nat) : Response := ⟨status, none, none, .empty⟩

/-- A response in plain text. -/
def plain (status : Nat) (text : String) : Response := ⟨status, some plainType, none, text.toUTF8⟩

/-- A document as it is. -/
def document (status : Nat) (bytes : ByteArray) : Response := ⟨status, some jsonType, none, bytes⟩

/-- A JSON value. -/
def ofJson (status : Nat) (value : Json.Value) : Response := document status value.print.toUTF8

/-- The envelope of a success. -/
def success (metadata : Json.Value) : Response :=
  ofJson 200 (.object [("type", .text "sync"), ("status", .text "Success"),
    ("status_code", .number (.whole 200)), ("metadata", metadata)])

/-- The envelope of a failure. -/
def failure (status : Nat) (message : String) : Response :=
  ofJson status (.object [("type", .text "error"), ("error", .text message),
    ("error_code", .number (.whole status))])

/-- The response to an error. -/
def ofError (e : ClusterError) : Response :=
  match e with
  | .alreadyLocked lock => document 423 lock.holder.toUTF8
  | .lockConflict lock => document 409 lock.holder.toUTF8
  | .notFound .. => failure 404 e.message
  | .alreadyExists .. => failure 409 e.message
  | .invalidInput _ => failure 400 e.message
  | .internal _ => failure 500 e.message

/-- Adds the methods that would have been answered. -/
def allowing (response : Response) (methods : List Method) : Response :=
  { response with allow := some (",".intercalate (methods.map (·.name))) }

/-- The response as sent for a method: a request for all but the body gets none. -/
def sentFor (response : Response) : Method → Response
  | .head => { response with body := .empty }
  | _ => response

end Response

/-- A gate as JSON. -/
def gateJson (gate : Gate) : Json.Value :=
  .object [("gate-key", .text gate.key), ("enabled", .bool gate.enabled)]

/-- The response to a reply of the store. A listing of locks fails if one has no document, and only
what was asked for is shown, not what a change did. -/
def Response.ofReply : Reply → Response
  | .done => success .null
  | .names names => success (.list (names.map .text))
  | .state entry => document 200 entry.payload
  | .locks locks =>
    match locks.mapM (·.document) with
    | .ok documents => success (.list documents)
    | .error e => ofError e
  | .lock lock => document 200 lock.holder.toUTF8
  | .gates gates => success (.list (gates.map gateJson))
  | .gate gate => success (gateJson gate)
  | .value value => success (.text value)

/-- The response to an operation. Taking a lock shows no document to the taker. -/
def Response.ofOperation : Operation → Except ClusterError Reply → Response
  | _, .error e => ofError e
  | .acquire _ _, .ok _ => success .null
  | _, .ok reply => ofReply reply

end Http

end ControlPlane
