import ControlPlane.Http.Form
import ControlPlane.Http.Response

/-!
# The interface over HTTP

A request is answered in three steps. It is decoded (`Request.decode`) into an operation on the store
or refused; the operation runs as one transaction; its result is put into a response
(`Response.ofOperation`). Decoding and responding look at the request alone, so the store is touched
in the middle step only.

What is looked at first decides between several faults: the path, then the access class, the method,
the segment that names a member, the query, and the body last.
-/

namespace ControlPlane

namespace Http

/-- A request. -/
structure Request where
  /-- The method. -/
  method : Method
  /-- The target. -/
  target : Target
  /-- The body. -/
  body : ByteArray
  /-- The class that the connection gave the request, if it did. -/
  tag : Option Access
  /-- The address of the remote end, if there is one. -/
  remote : Option Net.SocketAddress
deriving DecidableEq

/-- Why a request does not become an operation. -/
inductive Refusal where
  /-- The path names nothing. -/
  | unknownPath
  /-- The endpoint does not admit the class, with the endpoint's methods if the method is wrong too. -/
  | forbidden (allowed : Option (List Method))
  /-- The endpoint does not answer the method. -/
  | wrongMethod (allowed : List Method)
  /-- The query gives the token twice. -/
  | duplicateToken
  /-- The body is too large. -/
  | bodyTooLarge
  /-- The request is malformed. -/
  | malformed (fault : InputFault)
deriving DecidableEq, Repr

/-- The response to a request that is refused. -/
def Refusal.response : Refusal → Response
  | .unknownPath => .bare 404
  | .forbidden none => .failure 403 "not authorized"
  | .forbidden (some methods) => (Response.failure 403 "not authorized").allowing methods
  | .wrongMethod methods => (Response.bare 405).allowing methods
  | .duplicateToken => .plain 400 "Failed to deserialize query string: duplicate field \x60ID\x60"
  | .bodyTooLarge => .plain 413 "Failed to buffer the request body: length limit exceeded"
  | .malformed fault => .ofError (.invalidInput fault)

/-- A step of decoding. -/
abbrev Decoded (α : Type) := Except Refusal α

/-! ## Parts of a request -/

/-- The greatest size of a body in bytes. -/
def maxBodySize : Nat := 64 * 1024 * 1024

/-- The body of a request that has one. -/
def readBody (body : ByteArray) : Decoded ByteArray :=
  if maxBodySize < body.size then .error .bodyTooLarge else .ok body

/-- The name in a segment. -/
def readSegment (parameter : String) (segment : List UInt8) : Decoded String :=
  match Utf8.decode ⟨(percentDecode segment).toArray⟩ with
  | .error _ => .error (.malformed (.segmentNotText parameter))
  | .ok name => if name = "" then .error (.malformed .emptySegment) else .ok name

/-- The token in a query, empty if there is none. -/
def readToken (query : List UInt8) : Decoded String :=
  match (formFields query).filter (·.1 = "ID") with
  | [] => .ok ""
  | [(_, token)] => .ok token
  | _ => .error .duplicateToken

/-- The request to lock in a body. -/
def readLockRequest (body : ByteArray) : Decoded LockRequest :=
  match LockRequest.parse body with
  | .ok request => .ok request
  | .error fault => .error (.malformed fault)

/-- The record in a body. -/
def readRecord (shape : Json.Shape) (body : ByteArray) : Decoded (Json.Values shape.fields) :=
  match shape.parse body.data.toList with
  | .ok values => .ok values
  | .error complaint => .error (.malformed (.malformedBody complaint))

/-- The form of a new gate. -/
def newGateShape : Json.Shape := ⟨"FeatureGate", [⟨"gate-key", .text⟩, ⟨"enabled", .bool⟩]⟩

/-- The form of a change of a gate. -/
def gateChangeShape : Json.Shape := ⟨"GatePut", [⟨"enabled", .bool⟩]⟩

/-- The value of a configuration in a body. -/
def readValue (body : ByteArray) : Decoded String :=
  match Utf8.decode body with
  | .ok value => .ok value
  | .error fault => .error (.malformed (.valueNotText fault))

/-! ## Decoding -/

/-- The operation that a method asks for at an endpoint. -/
def Endpoint.decode (endpoint : Endpoint) (method : Method) (query : List UInt8)
    (body : ByteArray) : Decoded Operation :=
  match endpoint, method with
  | .states, .get | .states, .head => .ok .listStates
  | .state segment, .get | .state segment, .head => do
    .ok (.getState (← readSegment "name" segment))
  | .state segment, .put => do
    let name ← readSegment "name" segment
    let token ← readToken query
    let payload ← readBody body
    .ok (.putState name token payload)
  | .state segment, .delete => do
    .ok (.deleteState (← readSegment "name" segment))
  | .locks, .get | .locks, .head => .ok .listLocks
  | .lock segment, .get | .lock segment, .head => do
    .ok (.getLock (← readSegment "name" segment))
  | .lock segment, .put => do
    let name ← readSegment "name" segment
    let request ← readLockRequest (← readBody body)
    .ok (.acquire name request)
  | .unlock segment, .put => do
    let name ← readSegment "name" segment
    let request ← readLockRequest (← readBody body)
    .ok (.release name request.token)
  | .gates, .get | .gates, .head => .ok .listGates
  | .gates, .post => do
    let (key, enabled, ()) ← readRecord newGateShape (← readBody body)
    if key = "" then .error (.malformed .gateKeyMissing) else .ok (.createGate key enabled)
  | .gate segment, .get | .gate segment, .head => do
    .ok (.getGate (← readSegment "gatekey" segment))
  | .gate segment, .put => do
    let key ← readSegment "gatekey" segment
    let (enabled, ()) ← readRecord gateChangeShape (← readBody body)
    .ok (.updateGate key enabled)
  | .gate segment, .delete => do
    .ok (.deleteGate (← readSegment "gatekey" segment))
  | .config segment, .get | .config segment, .head => do
    .ok (.getConfig (← readSegment "key" segment))
  | .config segment, .put => do
    let key ← readSegment "key" segment
    let value ← readValue (← readBody body)
    .ok (.setConfig key value)
  | .config segment, .delete => do
    .ok (.deleteConfig (← readSegment "key" segment))
  | endpoint, _ => .error (.wrongMethod endpoint.methods)

/-- The operation that a request asks for. -/
def Request.decode (peers : PeerList) (request : Request) : Decoded Operation :=
  match Endpoint.ofPath? request.target.path with
  | none => .error .unknownPath
  | some endpoint =>
    let known := endpoint.methods.contains request.method
    if endpoint.group.admits (peers.access request.tag request.remote) then
      endpoint.decode request.method request.target.query request.body
    else .error (.forbidden (if known then none else some endpoint.methods))

/-! ## Answering -/

/-- Answers a request. -/
def Request.answer (peers : PeerList) (request : Request) (db : Database) : Response × Database :=
  match request.decode peers with
  | .error refusal => (refusal.response.sentFor request.method, db)
  | .ok op =>
    let (result, db) := op.run db
    ((Response.ofOperation op result).sentFor request.method, db)

/-- Answers requests one after another. -/
def Request.answerAll (peers : PeerList) : List Request → Database → List Response × Database
  | [], db => ([], db)
  | request :: requests, db =>
    let (response, db) := request.answer peers db
    let (responses, db) := answerAll peers requests db
    (response :: responses, db)

end Http

end ControlPlane
