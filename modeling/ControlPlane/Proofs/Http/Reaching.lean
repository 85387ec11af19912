import ControlPlane.Proofs.Http.RequestEffect

/-!
# Requests that reach an endpoint

A request reaches an endpoint if its path names the endpoint and the endpoint admits it. The method
then says which operation is run there, and the answer is the response to that operation
(`Request.Reaches.answer`). What a client is answered about the lock or the state of a name therefore
depends on the records under that name alone.
-/

namespace ControlPlane

namespace Http

variable {peers : PeerList} {request : Request} {endpoint : Endpoint} {op : Operation} {db : Database}
  {segment : List UInt8} {name : String}

/-- Whether a request reaches an endpoint: its path names the endpoint, and the endpoint admits it. -/
structure Request.Reaches (peers : PeerList) (request : Request) (endpoint : Endpoint) : Prop where
  /-- The path names the endpoint. -/
  path : Endpoint.ofPath? request.target.path = some endpoint
  /-- The endpoint is open to the class of the request. -/
  admitted : endpoint.group.admits (peers.access request.tag request.remote)

/-! ## Operations -/

/-- A segment that holds the bytes of a name is read as the name. -/
theorem Names.readSegment (h : Names segment name) (parameter : String) :
    readSegment parameter segment = .ok name := by
  obtain ⟨hbytes, hne⟩ := h
  have hdecode : Utf8.decode ⟨(percentDecode segment).toArray⟩ = .ok name := by
    rw [← hbytes]
    exact RowForm.decode_toUTF8 name
  unfold Http.readSegment
  rw [hdecode]
  exact if_neg hne

theorem Method.eq_of_reads {method : Method} (h : method.reads) : method = .get ∨ method = .head := by
  cases method with
  | get => exact Or.inl rfl
  | head => exact Or.inr rfl
  | _ => cases h

/-- What a method means at an endpoint is what the endpoint decodes. -/
theorem Endpoint.Means.decode {method : Method} {query : List UInt8} {body : ByteArray}
    (h : endpoint.Means query body method op) : endpoint.decode method query body = .ok op := by
  have hread (hbody : body.size ≤ maxBodySize) : readBody body = .ok body :=
    if_neg (Nat.not_lt.mpr hbody)
  have hlock {lockRequest : LockRequest} (hparse : LockRequest.parse body = .ok lockRequest) :
      readLockRequest body = .ok lockRequest := by
    rw [readLockRequest, hparse]
  have hrecord {shape : Json.Shape} {values : Json.Values shape.fields}
      (hparse : shape.parse body.data.toList = .ok values) :
      readRecord shape body = .ok values := by
    rw [readRecord, hparse]
  cases h with
  | listStates hreads | listLocks hreads | listGates hreads =>
    rcases Method.eq_of_reads hreads with rfl | rfl <;> rfl
  | getState hreads hname | getLock hreads hname | getGate hreads hname | getConfig hreads hname =>
    rcases Method.eq_of_reads hreads with rfl | rfl
    all_goals
      unfold Endpoint.decode
      dsimp only
      rw [hname]
      rfl
  | putState hname htoken hbody =>
    unfold Endpoint.decode
    dsimp only
    rw [hname, htoken, hread hbody]
    rfl
  | deleteState hname | deleteGate hname | deleteConfig hname =>
    unfold Endpoint.decode
    dsimp only
    rw [hname]
    rfl
  | acquire hname hbody hparse | release hname hbody hparse =>
    unfold Endpoint.decode
    dsimp only
    rw [hname, hread hbody]
    simp only [bind, Except.bind]
    rw [hlock hparse]
  | createGate hbody hparse hkey =>
    unfold Endpoint.decode
    dsimp only
    rw [hread hbody]
    simp only [bind, Except.bind]
    rw [hrecord hparse]
    exact if_neg hkey
  | updateGate hkey hbody hparse =>
    unfold Endpoint.decode
    dsimp only
    rw [hkey, hread hbody]
    simp only [bind, Except.bind]
    rw [hrecord hparse]
  | setConfig hkey hbody hvalue =>
    unfold Endpoint.decode
    dsimp only
    rw [hkey, hread hbody]
    simp only [bind, Except.bind]
    rw [readValue, hvalue]

namespace Request

theorem Reaches.decode (h : request.Reaches peers endpoint) :
    request.decode peers =
      endpoint.decode request.method request.target.query request.body := by
  unfold Request.decode
  rw [h.path]
  exact if_pos h.admitted

/-- A request that reaches an endpoint is answered by the operation that its method means there. -/
theorem Reaches.answer (h : request.Reaches peers endpoint)
    (hmeans : endpoint.Means request.target.query request.body request.method op) (db : Database) :
    request.answer peers db =
      ((Response.ofOperation op (op.run db).1).sentFor request.method, (op.run db).2) :=
  answer_of_decode (h.decode.trans hmeans.decode) db

/-! ## The state and the lock of a name -/

section

variable (h : db.Intact) (hname : Names segment name)
include h hname

theorem Reaches.answer_getState (hreaches : request.Reaches peers (.state segment))
    (hmethod : request.method = .get) :
    request.answer peers db = match db.record? .state name with
      | some entry => (.document 200 entry.payload, db)
      | none => (.ofError (.notFound .state name), db) := by
  have hmeans : (Endpoint.state segment).Means request.target.query request.body request.method
      (.getState name) := by
    rw [hmethod]
    exact .getState rfl (hname.readSegment "name")
  rw [hreaches.answer hmeans, Operation.run_getState h, hmethod]
  cases db.record? .state name <;> rfl

/-- A state is written with the token in the query. -/
theorem Reaches.answer_putState (hreaches : request.Reaches peers (.state segment))
    (hmethod : request.method = .put) {token : String}
    (htoken : readToken request.target.query = .ok token) (hbody : request.body.size ≤ maxBodySize) :
    request.answer peers db = match db.record? .lock name with
      | some lock =>
        if lock.token = token then (.success .null, db.keep .state ⟨name, request.body⟩)
        else (.document 409 lock.holder.toUTF8, db)
      | none => (.success .null, db.keep .state ⟨name, request.body⟩) := by
  have hmeans : (Endpoint.state segment).Means request.target.query request.body request.method
      (.putState name token request.body) := by
    rw [hmethod]
    exact .putState (hname.readSegment "name") htoken hbody
  rw [hreaches.answer hmeans, Operation.run_putState h, hmethod]
  cases db.record? .lock name with
  | none => rfl
  | some lock =>
    dsimp only
    by_cases ht : lock.token = token
    · rw [if_pos ht, if_pos ht]
      rfl
    · rw [if_neg ht, if_neg ht]
      rfl

theorem Reaches.answer_getLock (hreaches : request.Reaches peers (.lock segment))
    (hmethod : request.method = .get) :
    request.answer peers db = match db.record? .lock name with
      | some lock => (.document 200 lock.holder.toUTF8, db)
      | none => (.ofError (.notFound .lock name), db) := by
  have hmeans : (Endpoint.lock segment).Means request.target.query request.body request.method
      (.getLock name) := by
    rw [hmethod]
    exact .getLock rfl (hname.readSegment "name")
  rw [hreaches.answer hmeans, Operation.run_getLock h, hmethod]
  cases db.record? .lock name <;> rfl

/-- A lock is taken by a document that is accepted. -/
theorem Reaches.answer_acquire (hreaches : request.Reaches peers (.lock segment))
    (hmethod : request.method = .put) (hbody : request.body.size ≤ maxBodySize)
    {lockRequest : LockRequest} (hparse : LockRequest.parse request.body = .ok lockRequest) :
    request.answer peers db = match db.record? .lock name with
      | some lock => (.document 423 lock.holder.toUTF8, db)
      | none => (.success .null, db.keep .lock (lockRequest.lockOn name)) := by
  have hmeans : (Endpoint.lock segment).Means request.target.query request.body request.method
      (.acquire name lockRequest) := by
    rw [hmethod]
    exact .acquire (hname.readSegment "name") hbody hparse
  rw [hreaches.answer hmeans, Operation.run_acquire h, hmethod]
  cases db.record? .lock name <;> rfl

/-- A lock is given back by the token of a document that is accepted. -/
theorem Reaches.answer_release (hreaches : request.Reaches peers (.unlock segment))
    (hmethod : request.method = .put) (hbody : request.body.size ≤ maxBodySize)
    {lockRequest : LockRequest} (hparse : LockRequest.parse request.body = .ok lockRequest) :
    request.answer peers db = match db.record? .lock name with
      | some lock =>
        if lock.token = lockRequest.token then (.success .null, db.drop .lock name)
        else (.document 409 lock.holder.toUTF8, db)
      | none => (.success .null, db) := by
  have hmeans : (Endpoint.unlock segment).Means request.target.query request.body request.method
      (.release name lockRequest.token) := by
    rw [hmethod]
    exact .release (hname.readSegment "name") hbody hparse
  rw [hreaches.answer hmeans, Operation.run_release h, hmethod]
  cases db.record? .lock name with
  | none => rfl
  | some lock =>
    dsimp only
    by_cases ht : lock.token = lockRequest.token
    · rw [if_pos ht, if_pos ht]
      rfl
    · rw [if_neg ht, if_neg ht]
      rfl

end

end Request

end Http

end ControlPlane
