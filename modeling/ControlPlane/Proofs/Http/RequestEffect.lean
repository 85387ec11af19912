import ControlPlane.Proofs.Http.LockListing
import ControlPlane.Proofs.Service.OperationEffect

/-!
# What a request changes

A request changes the store only if it writes and is answered by status 200, and then it changes one
row at most, whatever the store holds (`Endpoint.Effect`). Everything else that a request may meet, a
refusal, a failure of its operation or a method that reads, leaves the store as it is.
-/

namespace ControlPlane

namespace Http

variable {peers : PeerList} {request : Request} {db db' : Database}

/-! ## Which answers are successes -/

theorem Response.status_ofError (e : ClusterError) : (ofError e).status ≠ 200 := by
  intro h
  cases e <;> cases h

theorem Refusal.status_response (refusal : Refusal) : refusal.response.status ≠ 200 := by
  intro h
  cases refusal with
  | forbidden allowed => cases allowed <;> cases h
  | malformed fault => exact Response.status_ofError _ h
  | unknownPath | wrongMethod | duplicateToken | bodyTooLarge => cases h

/-- An operation that reads changes nothing. -/
theorem run_of_reads {op : Operation} (h : op.writes = none) (db : Database) :
    (op.run db).2 = db := by
  cases op with
  | listStates | getState | listLocks | getLock | listGates | getGate | getConfig => rfl
  | putState | deleteState | acquire | release => cases h
  | createGate | updateGate | deleteGate | setConfig | deleteConfig => cases h

/-- An operation that writes and succeeds is answered by a success. -/
theorem status_of_writes {op : Operation} {reply : Reply} (hwrites : op.writes ≠ none)
    (h : op.run db = (.ok reply, db')) : (Response.ofOperation op (.ok reply)).status = 200 := by
  cases op with
  | listStates | getState | listLocks | getLock | listGates | getGate | getConfig =>
    exact absurd rfl hwrites
  | acquire => rfl
  | putState | deleteState | release | createGate | updateGate | deleteGate | setConfig
  | deleteConfig =>
    obtain ⟨_, -, rfl⟩ := Operation.of_run_commit rfl h
    rfl

theorem Endpoint.Means.method_of_writes {endpoint : Endpoint} {method : Method}
    {query : List UInt8} {body : ByteArray} {op : Operation}
    (h : endpoint.Means query body method op) (hwrites : op.writes ≠ none) :
    method ∈ [Method.put, .post, .delete] := by
  cases h with
  | listStates | getState | listLocks | getLock | listGates | getGate | getConfig =>
    exact absurd rfl hwrites
  | putState | acquire | release | updateGate | setConfig => simp
  | createGate => simp
  | deleteState | deleteGate | deleteConfig => simp

/-- A request that is not answered by status 200, or that does not write, changes nothing. -/
theorem Request.answer_unchanged
    (h : (request.answer peers db).1.status ≠ 200 ∨ request.method ∉ [Method.put, .post, .delete]) :
    (request.answer peers db).2 = db := by
  unfold answer at h ⊢
  cases hdecode : request.decode peers with
  | error refusal => rfl
  | ok op =>
    rw [hdecode] at h
    dsimp only at h ⊢
    rw [Response.status_sentFor] at h
    by_cases hwrites : op.writes = none
    · exact run_of_reads hwrites db
    · obtain ⟨endpoint, -, -, hmeans⟩ := means_of_decode hdecode
      cases hresult : (op.run db).1 with
      | error e => exact Operation.run_error hresult
      | ok reply =>
        have hrun : op.run db = (.ok reply, (op.run db).2) := by
          rw [← hresult]
        rw [hresult] at h
        rcases h with hstatus | hmethod
        · exact absurd (status_of_writes hwrites hrun) hstatus
        · exact absurd (hmeans.method_of_writes hwrites) hmethod

/-! ## What a success has changed -/

/-- Whether a segment, percent-decoded, holds the bytes of a name, which is not empty. -/
def Names (segment : List UInt8) (name : String) : Prop :=
  name.toUTF8.data.toList = percentDecode segment ∧ name ≠ ""

theorem names_of_readSegment {parameter name : String} {segment : List UInt8}
    (h : readSegment parameter segment = .ok name) : Names segment name := by
  unfold readSegment at h
  split at h
  · cases h
  · next text htext =>
    split at h
    · cases h
    · next hne =>
      cases h
      refine ⟨?_, hne⟩
      rw [Utf8.toUTF8_of_decode htext]

open Database in
/-- What a method that succeeds at an endpoint has changed, given the body. -/
inductive Endpoint.Effect (body : ByteArray) (db db' : Database) : Endpoint → Method → Prop where
  /-- The body is the state. -/
  | putState {segment : List UInt8} {name : String} (hname : Names segment name)
    (h : Writes .state ⟨name, body⟩ db db') : Effect body db db' (.state segment) .put
  /-- There was a state, and it is gone. -/
  | deleteState {segment : List UInt8} {name : String} (hname : Names segment name)
    (hheld : db.row? RecordKind.state.table name ≠ none) (h : Removes .state name db db') :
    Effect body db db' (.state segment) .delete
  /-- There was no lock, and now there is that of the body. -/
  | acquire {segment : List UInt8} {name token holder : String} (hname : Names segment name)
    (hparse : LockRequest.parse body = .ok ⟨token, holder⟩) (hbody : holder.toUTF8 = body)
    (hfree : db.row? RecordKind.lock.table name = none)
    (h : Writes .lock ⟨name, token, holder⟩ db db') : Effect body db db' (.lock segment) .put
  /-- If there was a lock it is gone. -/
  | release {segment : List UInt8} {name : String} (hname : Names segment name)
    (h : Removes .lock name db db') : Effect body db db' (.unlock segment) .put
  /-- There was no gate, and now there is that of the body. -/
  | createGate {key : String} {enabled : Bool}
    (hparse : newGateShape.parse body.data.toList = .ok (key, enabled, ()))
    (hfree : db.row? RecordKind.gate.table key = none) (h : Writes .gate ⟨key, enabled⟩ db db') :
    Effect body db db' .gates .post
  /-- The gate found is switched as the body says, under the key that it carries. -/
  | updateGate {segment : List UInt8} {key : String} {gate : Gate} {enabled : Bool}
    (hkey : Names segment key) (hparse : gateChangeShape.parse body.data.toList = .ok (enabled, ()))
    (hgate : db.record? .gate key = some gate)
    (h : Writes .gate { gate with enabled := enabled } db db') :
    Effect body db db' (.gate segment) .put
  /-- There was a gate, and it is gone. -/
  | deleteGate {segment : List UInt8} {key : String} (hkey : Names segment key)
    (hheld : db.row? RecordKind.gate.table key ≠ none) (h : Removes .gate key db db') :
    Effect body db db' (.gate segment) .delete
  /-- The text of the body is the value. -/
  | setConfig {segment : List UInt8} {key value : String} (hkey : Names segment key)
    (hbody : value.toUTF8 = body) (h : Writes .config ⟨key, value⟩ db db') :
    Effect body db db' (.config segment) .put
  /-- There was a value, and it is gone. -/
  | deleteConfig {segment : List UInt8} {key : String} (hkey : Names segment key)
    (hheld : db.row? RecordKind.config.table key ≠ none) (h : Removes .config key db db') :
    Effect body db db' (.config segment) .delete

/-- What an operation that was asked for has changed if it succeeds. -/
theorem Endpoint.Means.effect {endpoint : Endpoint} {method : Method} {query : List UInt8}
    {body : ByteArray} {op : Operation} {reply : Reply} (hmeans : endpoint.Means query body method op)
    (hmethod : method ∈ [Method.put, .post, .delete]) (hfits : op.Fits)
    (h : op.run db = (.ok reply, db')) : endpoint.Effect body db db' method := by
  have hwrites : ¬ method.reads := by
    simp only [List.mem_cons, List.not_mem_nil, or_false] at hmethod
    rcases hmethod with rfl | rfl | rfl <;> decide
  cases hmeans with
  | listStates hreads | getState hreads | listLocks hreads | getLock hreads | listGates hreads
  | getGate hreads | getConfig hreads => exact absurd hreads hwrites
  | putState hname =>
    exact .putState (names_of_readSegment hname) (Operation.writes_of_putState h hfits)
  | deleteState hname =>
    obtain ⟨hheld, hremoves⟩ := Operation.removes_of_deleteState h
    exact .deleteState (names_of_readSegment hname) hheld hremoves
  | acquire hname _ hparse =>
    obtain ⟨hfree, hacquire⟩ := Operation.writes_of_acquire h hfits
    obtain ⟨hholder, -⟩ := LockRequest.of_parse hparse
    exact .acquire (names_of_readSegment hname) hparse hholder hfree hacquire
  | release hname =>
    exact .release (names_of_readSegment hname) (Operation.removes_of_release h)
  | createGate _ hparse _ =>
    obtain ⟨hfree, hcreate⟩ := Operation.writes_of_createGate h hfits
    exact .createGate hparse hfree hcreate
  | updateGate hkey _ hparse =>
    obtain ⟨gate, hgate, hupdate⟩ := Operation.writes_of_updateGate h
    exact .updateGate (names_of_readSegment hkey) hparse hgate hupdate
  | deleteGate hkey =>
    obtain ⟨hheld, hremoves⟩ := Operation.removes_of_deleteGate h
    exact .deleteGate (names_of_readSegment hkey) hheld hremoves
  | setConfig hkey _ hvalue =>
    exact .setConfig (names_of_readSegment hkey) (Utf8.toUTF8_of_decode hvalue)
      (Operation.writes_of_setConfig h hfits)
  | deleteConfig hkey =>
    obtain ⟨hheld, hremoves⟩ := Operation.removes_of_deleteConfig h
    exact .deleteConfig (names_of_readSegment hkey) hheld hremoves

theorem Request.effect_of_success (harrives : request.Arrives)
    (hstatus : (request.answer peers db).1.status = 200)
    (hmethod : request.method ∈ [Method.put, .post, .delete]) :
    ∃ endpoint, Endpoint.ofPath? request.target.path = some endpoint ∧
      endpoint.Effect request.body db (request.answer peers db).2 request.method := by
  unfold answer at hstatus ⊢
  cases hdecode : request.decode peers with
  | error refusal =>
    rw [hdecode] at hstatus
    dsimp only at hstatus
    rw [Response.status_sentFor] at hstatus
    exact absurd hstatus refusal.status_response
  | ok op =>
    rw [hdecode] at hstatus
    dsimp only at hstatus ⊢
    rw [Response.status_sentFor] at hstatus
    cases hresult : (op.run db).1 with
    | error e =>
      rw [hresult] at hstatus
      exact absurd hstatus (Response.status_ofError e)
    | ok reply =>
      obtain ⟨endpoint, hpath, -, hmeans⟩ := means_of_decode hdecode
      have hrun : op.run db = (.ok reply, (op.run db).2) := by
        rw [← hresult]
      exact ⟨endpoint, hpath, hmeans.effect hmethod (fits_of_decode harrives hdecode) hrun⟩

/-! ## Every request -/

/--
Whatever the store holds, a request that is not answered by status 200 or that does not write leaves
the store as it is, and one that writes and is answered by status 200 has the `Endpoint.Effect` of its
method at the endpoint that its path names: at most one row of one table differs. After every history
of requests to a new store every gate carries the key under which it stands, so the row that a change
of a gate writes is then the one named.
-/
theorem request_effect (peers : PeerList) :
    (∀ (request : Request) (db : Database),
      (request.answer peers db).1.status ≠ 200 ∨ request.method ∉ [Method.put, .post, .delete] →
      (request.answer peers db).2 = db) ∧
    (∀ (request : Request) (db : Database), request.Arrives →
      (request.answer peers db).1.status = 200 → request.method ∈ [Method.put, .post, .delete] →
      ∃ endpoint, Endpoint.ofPath? request.target.path = some endpoint ∧
        endpoint.Effect request.body db (request.answer peers db).2 request.method) ∧
    ∀ history : List Request, (∀ request ∈ history, request.Arrives) →
      ∀ (key : String) (gate : Gate),
        (Request.answerAll peers history Schema.fresh).2.record? .gate key = some gate →
        gate.key = key := by
  refine ⟨fun _ _ => Request.answer_unchanged, ?_, ?_⟩
  · intro request db harrives hstatus hmethod
    exact Request.effect_of_success harrives hstatus hmethod
  · intro history harrive key gate hgate
    have hserved := Served.fresh.answerAll peers harrive
    exact (hserved.intact.of_record? hgate).1

/-- The body that switches a gate. -/
def gateChange (enabled : Bool) : String := "\x7b\"enabled\":" ++ toString enabled ++ "\x7d"

/-- A gate is added and switched, and a gate that does not exist is not. -/
theorem request_effect_switched :
    let peers : PeerList := ⟨[]⟩
    let adding := fromSocket .post "/1.0/feature-gates" "\x7b\"gate-key\":\"a\",\"enabled\":true\x7d"
    let switching := fromSocket .put "/1.0/feature-gates/a" (gateChange false)
    let missing := fromSocket .put "/1.0/feature-gates/b" (gateChange false)
    let db := (Request.answerAll peers [adding] Schema.fresh).2
    (∃ endpoint, Endpoint.ofPath? switching.target.path = some endpoint ∧
      endpoint.Effect switching.body db (switching.answer peers db).2 .put) ∧
    (missing.answer peers db).2 = db ∧
    ∀ gate, db.record? .gate "a" = some gate → gate.key = "a" := by
  intro peers adding switching missing db
  obtain ⟨hunchanged, heffect, hkeys⟩ := request_effect peers
  refine ⟨?_, ?_, ?_⟩
  · have harrives : switching.Arrives := ⟨"/1.0/feature-gates/a", by decide +kernel⟩
    exact heffect switching db harrives (by decide +kernel) (by decide +kernel)
  · exact hunchanged missing db (Or.inl (by decide +kernel))
  · intro gate hgate
    refine hkeys [adding] ?_ "a" gate hgate
    intro request hr
    rw [List.mem_singleton] at hr
    subst hr
    exact ⟨"/1.0/feature-gates", by decide +kernel⟩

/--
Two rows hold a gate with the key `b`, one of them under the key `a`. Switching the gate under `a`
is answered by status 200 and changes the row under `b` alone.
-/
theorem misplaced_gate_stays :
    let misplaced := RecordKind.gate.encode ⟨"b", true⟩
    let gates : Rows ByteArray := ((∅ : Rows ByteArray).insert "a" misplaced).insert "b" misplaced
    let db := Schema.fresh.put RecordKind.gate.table (.bytes gates)
    let answered := (fromSocket .put "/1.0/feature-gates/a" (gateChange false)).answer ⟨[]⟩ db
    answered.1.status = 200 ∧
    answered.2.row? RecordKind.gate.table "a" = some misplaced ∧
    db.row? RecordKind.gate.table "b" = some misplaced ∧
    answered.2.row? RecordKind.gate.table "b" = some (RecordKind.gate.encode ⟨"b", false⟩) := by
  intro misplaced gates db answered
  refine ⟨?_, ?_, ?_, ?_⟩
  · decide +kernel
  · decide +kernel
  · decide +kernel
  · decide +kernel

end Http

end ControlPlane
