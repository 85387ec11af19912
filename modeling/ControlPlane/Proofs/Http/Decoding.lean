import ControlPlane.Http.Api
import ControlPlane.Proofs.Service.OperationScope

/-!
# What a request asks for

A request that becomes an operation does so in one of sixteen ways, one for each operation
(`Endpoint.Means`): the endpoint and the method say which operation it is, and the segment, the query
and the body say what it is about.
-/

namespace ControlPlane

namespace Http

/-! ## Parts of requests and responses -/

theorem of_readBody {body body' : ByteArray} (h : readBody body = .ok body') :
    body' = body ∧ body.size ≤ maxBodySize := by
  unfold readBody at h
  split at h
  · cases h
  · cases h
    exact ⟨rfl, by omega⟩

theorem of_readLockRequest {body : ByteArray} {request : LockRequest}
    (h : readLockRequest body = .ok request) : LockRequest.parse body = .ok request := by
  unfold readLockRequest at h
  split at h
  · next hparse => cases h; exact hparse
  · cases h

theorem of_readRecord {shape : Json.Shape} {body : ByteArray} {values : Json.Values shape.fields}
    (h : readRecord shape body = .ok values) : shape.parse body.data.toList = .ok values := by
  unfold readRecord at h
  split at h
  · next hparse => cases h; exact hparse
  · cases h

theorem of_readValue {body : ByteArray} {value : String} (h : readValue body = .ok value) :
    Utf8.decode body = .ok value := by
  unfold readValue at h
  split at h
  · next hdecode => cases h; exact hdecode
  · cases h

/-- The status does not depend on the method. -/
theorem Response.status_sentFor (response : Response) (method : Method) :
    (response.sentFor method).status = response.status := by
  cases method <;> rfl

/-! ## Operations -/

/-- The methods that read. -/
def Method.reads : Method → Bool
  | .get | .head => true
  | _ => false

/-- What a method means at an endpoint, with a query and a body. -/
inductive Endpoint.Means (query : List UInt8) (body : ByteArray) :
    Endpoint → Method → Operation → Prop where
  /-- The states are listed. -/
  | listStates {method : Method} (hreads : method.reads) : Means query body .states method .listStates
  /-- The state named by the segment is read. -/
  | getState {segment : List UInt8} {method : Method} {name : String} (hreads : method.reads)
    (hname : readSegment "name" segment = .ok name) :
    Means query body (.state segment) method (.getState name)
  /-- The body is written as the state named by the segment, with the token in the query. -/
  | putState {segment : List UInt8} {name token : String}
    (hname : readSegment "name" segment = .ok name) (htoken : readToken query = .ok token)
    (hbody : body.size ≤ maxBodySize) :
    Means query body (.state segment) .put (.putState name token body)
  /-- The state named by the segment is removed. -/
  | deleteState {segment : List UInt8} {name : String}
    (hname : readSegment "name" segment = .ok name) :
    Means query body (.state segment) .delete (.deleteState name)
  /-- The locks are listed. -/
  | listLocks {method : Method} (hreads : method.reads) : Means query body .locks method .listLocks
  /-- The lock on the name in the segment is read. -/
  | getLock {segment : List UInt8} {method : Method} {name : String} (hreads : method.reads)
    (hname : readSegment "name" segment = .ok name) :
    Means query body (.lock segment) method (.getLock name)
  /-- The lock on the name in the segment is taken by the body. -/
  | acquire {segment : List UInt8} {name : String} {request : LockRequest}
    (hname : readSegment "name" segment = .ok name) (hbody : body.size ≤ maxBodySize)
    (hparse : LockRequest.parse body = .ok request) :
    Means query body (.lock segment) .put (.acquire name request)
  /-- The lock on the name in the segment is given back by the token in the body. -/
  | release {segment : List UInt8} {name : String} {request : LockRequest}
    (hname : readSegment "name" segment = .ok name) (hbody : body.size ≤ maxBodySize)
    (hparse : LockRequest.parse body = .ok request) :
    Means query body (.unlock segment) .put (.release name request.token)
  /-- The gates are listed. -/
  | listGates {method : Method} (hreads : method.reads) : Means query body .gates method .listGates
  /-- The gate in the body is added. -/
  | createGate {key : String} {enabled : Bool} (hbody : body.size ≤ maxBodySize)
    (hparse : newGateShape.parse body.data.toList = .ok (key, enabled, ())) (hkey : key ≠ "") :
    Means query body .gates .post (.createGate key enabled)
  /-- The gate named by the segment is read. -/
  | getGate {segment : List UInt8} {method : Method} {key : String} (hreads : method.reads)
    (hkey : readSegment "gatekey" segment = .ok key) :
    Means query body (.gate segment) method (.getGate key)
  /-- The gate named by the segment is switched as the body says. -/
  | updateGate {segment : List UInt8} {key : String} {enabled : Bool}
    (hkey : readSegment "gatekey" segment = .ok key) (hbody : body.size ≤ maxBodySize)
    (hparse : gateChangeShape.parse body.data.toList = .ok (enabled, ())) :
    Means query body (.gate segment) .put (.updateGate key enabled)
  /-- The gate named by the segment is removed. -/
  | deleteGate {segment : List UInt8} {key : String}
    (hkey : readSegment "gatekey" segment = .ok key) :
    Means query body (.gate segment) .delete (.deleteGate key)
  /-- The configuration value named by the segment is read. -/
  | getConfig {segment : List UInt8} {method : Method} {key : String} (hreads : method.reads)
    (hkey : readSegment "key" segment = .ok key) :
    Means query body (.config segment) method (.getConfig key)
  /-- The configuration value named by the segment is set to the text of the body. -/
  | setConfig {segment : List UInt8} {key value : String}
    (hkey : readSegment "key" segment = .ok key) (hbody : body.size ≤ maxBodySize)
    (hvalue : Utf8.decode body = .ok value) :
    Means query body (.config segment) .put (.setConfig key value)
  /-- The configuration value named by the segment is removed. -/
  | deleteConfig {segment : List UInt8} {key : String}
    (hkey : readSegment "key" segment = .ok key) :
    Means query body (.config segment) .delete (.deleteConfig key)

theorem Endpoint.means_of_decode {endpoint : Endpoint} {method : Method} {query : List UInt8}
    {body : ByteArray} {op : Operation} (h : endpoint.decode method query body = .ok op) :
    endpoint.Means query body method op := by
  unfold Endpoint.decode at h
  split at h
  case h_5 segment =>
    obtain ⟨name, hname, h⟩ := Except.of_bind h
    obtain ⟨token, htoken, h⟩ := Except.of_bind h
    obtain ⟨payload, hpayload, h⟩ := Except.of_bind h
    cases h
    obtain ⟨rfl, hbody⟩ := of_readBody hpayload
    exact .putState hname htoken hbody
  case h_11 segment =>
    obtain ⟨name, hname, h⟩ := Except.of_bind h
    obtain ⟨body', hbody, h⟩ := Except.of_bind h
    obtain ⟨request, hrequest, h⟩ := Except.of_bind h
    cases h
    obtain ⟨rfl, hsize⟩ := of_readBody hbody
    exact .acquire hname hsize (of_readLockRequest hrequest)
  case h_12 segment =>
    obtain ⟨name, hname, h⟩ := Except.of_bind h
    obtain ⟨body', hbody, h⟩ := Except.of_bind h
    obtain ⟨request, hrequest, h⟩ := Except.of_bind h
    cases h
    obtain ⟨rfl, hsize⟩ := of_readBody hbody
    exact .release hname hsize (of_readLockRequest hrequest)
  case h_15 =>
    obtain ⟨body', hbody, h⟩ := Except.of_bind h
    obtain ⟨⟨key, enabled, _⟩, hrecord, h⟩ := Except.of_bind h
    obtain ⟨hbytes, hsize⟩ := of_readBody hbody
    rw [hbytes] at hrecord
    dsimp only at h
    split at h
    · cases h
    · next hkey =>
      cases h
      exact .createGate hsize (of_readRecord hrecord) hkey
  case h_18 segment =>
    obtain ⟨key, hkey, h⟩ := Except.of_bind h
    obtain ⟨body', hbody, h⟩ := Except.of_bind h
    obtain ⟨⟨enabled, _⟩, hrecord, h⟩ := Except.of_bind h
    cases h
    obtain ⟨rfl, hsize⟩ := of_readBody hbody
    exact .updateGate hkey hsize (of_readRecord hrecord)
  case h_22 segment =>
    obtain ⟨key, hkey, h⟩ := Except.of_bind h
    obtain ⟨body', hbody, h⟩ := Except.of_bind h
    obtain ⟨value, hvalue, h⟩ := Except.of_bind h
    cases h
    obtain ⟨rfl, hsize⟩ := of_readBody hbody
    exact .setConfig hkey hsize (of_readValue hvalue)
  -- the others have a segment at most
  all_goals first
    | (cases h; done)
    | (cases h; constructor; rfl)
    | (obtain ⟨name, hname, h⟩ := Except.of_bind h
       cases h
       constructor <;> first | exact hname | rfl)

/-- A request that becomes an operation names an endpoint that admits it and means the operation. -/
theorem Request.means_of_decode {peers : PeerList} {request : Request} {op : Operation}
    (h : request.decode peers = .ok op) :
    ∃ endpoint, Endpoint.ofPath? request.target.path = some endpoint ∧
      endpoint.group.admits (peers.access request.tag request.remote) ∧
      endpoint.Means request.target.query request.body request.method op := by
  unfold Request.decode at h
  split at h
  · cases h
  · next endpoint hpath =>
    dsimp only at h
    split at h
    · next hadmits => exact ⟨endpoint, hpath, hadmits, endpoint.means_of_decode h⟩
    · cases h

theorem Request.answer_of_decode {peers : PeerList} {request : Request} {op : Operation}
    (h : request.decode peers = .ok op) (db : Database) :
    request.answer peers db =
      ((Response.ofOperation op (op.run db).1).sentFor request.method, (op.run db).2) := by
  rw [answer, h]

theorem Request.answer_of_refused {peers : PeerList} {request : Request} {refusal : Refusal}
    (h : request.decode peers = .error refusal) (db : Database) :
    request.answer peers db = (refusal.response.sentFor request.method, db) := by
  rw [answer, h]

/-! ## Related databases -/

section

variable {peers : PeerList} {R : Database → Database → Prop}

theorem Request.answerAll_cons (request : Request) (requests : List Request) (db : Database) :
    answerAll peers (request :: requests) db =
      ((request.answer peers db).1 :: (answerAll peers requests (request.answer peers db).2).1,
        (answerAll peers requests (request.answer peers db).2).2) := rfl

/-- A request whose operation keeps a relation between databases is answered alike on related ones. -/
theorem Request.answer_respects {request : Request}
    (hkept : ∀ op, request.decode peers = .ok op → op.Kept R) {db db' : Database} (hR : R db db') :
    (request.answer peers db).1 = (request.answer peers db').1 ∧
      R (request.answer peers db).2 (request.answer peers db').2 := by
  unfold answer
  cases hdecode : request.decode peers with
  | error refusal => exact ⟨rfl, hR⟩
  | ok op =>
    obtain ⟨hreply, hleft⟩ := Operation.run_respects (hkept op hdecode) hR
    dsimp only
    rw [hreply]
    exact ⟨rfl, hleft⟩

theorem Request.answerAll_respects {requests : List Request}
    (hkept : ∀ request ∈ requests, ∀ op, request.decode peers = .ok op → op.Kept R) :
    ∀ {db db' : Database}, R db db' →
      (answerAll peers requests db).1 = (answerAll peers requests db').1 ∧
        R (answerAll peers requests db).2 (answerAll peers requests db').2 := by
  induction requests with
  | nil => exact fun hR => ⟨rfl, hR⟩
  | cons request requests ih =>
    intro db db' hR
    obtain ⟨hresponse, hleft⟩ := answer_respects (hkept request List.mem_cons_self) hR
    obtain ⟨hresponses, hend⟩ := ih (fun r hr => hkept r (List.mem_cons_of_mem request hr)) hleft
    refine ⟨?_, hend⟩
    rw [answerAll_cons, answerAll_cons, hresponse, hresponses]

end

end Http

end ControlPlane
