import ControlPlane.Proofs.Http.Reaching

/-!
# Lock documents come back as they were sent

The body that took a lock is what every client is shown of the lock, byte for byte, for as long as the
lock is held (`LockEcho`). Sent back it gives the lock back: the token is read from the same bytes both
times. A lock is held from the request that took it until a request to unlock its name succeeds, and
nothing else that clients ask for touches it (`Request.record?_lock_kept`).
-/

namespace ControlPlane

/-- A lock that was taken by a document gives the document back. -/
theorem Lock.Accepted.parse_holder {lock : Lock} (h : lock.Accepted) :
    LockRequest.parse lock.holder.toUTF8 = .ok ⟨lock.token, lock.holder⟩ := by
  obtain ⟨body, hbody⟩ := h
  have hholder : lock.holder.toUTF8 = body := (LockRequest.of_parse hbody).1
  rw [hholder]
  exact hbody

namespace Http

variable {peers : PeerList} {request : Request} {db : Database} {segment : List UInt8}
  {name : String} {lock : Lock}

/-! ## Taking and keeping a lock -/

/-- Whether a request is one to unlock a name. -/
def Request.Unlocks (request : Request) (name : String) : Prop :=
  request.method = .put ∧
    ∃ segment, Endpoint.ofPath? request.target.path = some (.unlock segment) ∧ Names segment name

/-- A request for a lock that succeeds has taken it by its body. -/
theorem Request.record?_lock_taken (h : Served db) (harrives : request.Arrives)
    (hpath : Endpoint.ofPath? request.target.path = some (.lock segment)) (hname : Names segment name)
    (hmethod : request.method = .put) (hstatus : (request.answer peers db).1.status = 200) :
    ∃ lockRequest, LockRequest.parse request.body = .ok lockRequest ∧
      request.body.size ≤ maxBodySize ∧
      (request.answer peers db).2.record? .lock name = some (lockRequest.lockOn name) := by
  cases hdecode : request.decode peers with
  | error refusal =>
    rw [answer_of_refused hdecode, Response.status_sentFor] at hstatus
    exact absurd hstatus refusal.status_response
  | ok op =>
    obtain ⟨endpoint, hpath', hadmitted, hmeans⟩ := means_of_decode hdecode
    rw [hpath] at hpath'
    cases hpath'
    rw [hmethod] at hmeans
    cases hmeans with
    | getLock hreads => cases hreads
    | @acquire _ name' lockRequest hname' hbody hparse =>
      have hsame : name' = name := by
        rw [hname.readSegment "name"] at hname'
        exact (Except.ok.inj hname').symm
      subst hsame
      have hfits := fits_of_decode harrives hdecode
      have hreaches : request.Reaches peers (.lock segment) := ⟨hpath, hadmitted⟩
      have hanswer := hreaches.answer_acquire h.intact hname hmethod hbody hparse
      refine ⟨lockRequest, hparse, hbody, ?_⟩
      cases hlock : db.record? .lock name' with
      | none =>
        rw [hlock] at hanswer
        rw [hanswer]
        dsimp only
        rw [Database.record?_keep_same .lock hfits]
        exact if_pos rfl
      | some lock =>
        rw [hlock] at hanswer
        rw [hanswer] at hstatus
        cases hstatus

/-- A lock stays as it is through every request but one to unlock its name that succeeds. -/
theorem Request.record?_lock_kept (h : Served db) (harrives : request.Arrives)
    (hlock : db.record? .lock name = some lock)
    (hunlock : request.Unlocks name → (request.answer peers db).1.status ≠ 200) :
    (request.answer peers db).2.record? .lock name = some lock := by
  cases hdecode : request.decode peers with
  | error refusal =>
    rw [answer_of_refused hdecode]
    exact hlock
  | ok op =>
    have hstep := Operation.lockStep_of_intact h.intact (fits_of_decode harrives hdecode) name
    rw [answer_of_decode hdecode] at hunlock ⊢
    rcases hstep.stays lock hlock with hstays | ⟨-, hop⟩
    · exact hstays
    -- the holder gave the lock back, and that succeeds
    · obtain ⟨endpoint, hpath, -, hmeans⟩ := means_of_decode hdecode
      subst hop
      generalize hmethod : request.method = method at hmeans
      generalize htoken : lock.token = token at hmeans
      obtain ⟨hdone, -⟩ := hstep.given_back lock hlock rfl
      cases hmeans with
      | release hname _ _ =>
        refine absurd ?_ (hunlock ⟨hmethod, _, hpath, names_of_readSegment hname⟩)
        rw [Response.status_sentFor, hdone]
        rfl

/-- A lock is held for as long as no request to unlock its name has succeeded. -/
theorem Request.record?_lock_keptAll {requests : List Request} :
    ∀ {db : Database}, Served db → (∀ request ∈ requests, request.Arrives) →
      db.record? .lock name = some lock →
      (∀ entry ∈ requests.zip (answerAll peers requests db).1,
        entry.1.Unlocks name → entry.2.status ≠ 200) →
      (answerAll peers requests db).2.record? .lock name = some lock := by
  induction requests with
  | nil => exact fun _ _ hlock _ => hlock
  | cons request requests ih =>
    intro db h harrive hlock hunlock
    have harrives := harrive request List.mem_cons_self
    have hkept := record?_lock_kept h harrives hlock
      (hunlock (request, (request.answer peers db).1) List.mem_cons_self)
    exact ih (h.answer peers harrives) (fun r hr => harrive r (List.mem_cons_of_mem request hr)) hkept
      fun entry hentry => hunlock entry (List.mem_cons_of_mem _ hentry)

/-! ## What is shown of a lock -/

/-- What clients are answered about a name that is locked by a document. -/
structure LockEcho (peers : PeerList) (name : String) (document : ByteArray) (db : Database) :
    Prop where
  /-- Reading the lock answers the document. -/
  read : ∀ (request : Request) (segment : List UInt8), request.Reaches peers (.lock segment) →
    Names segment name → request.method = .get →
    request.answer peers db = (.document 200 document, db)
  /-- Whoever asks for the lock by a document that is accepted is refused with the document. -/
  refused : ∀ (request : Request) (segment : List UInt8), request.Reaches peers (.lock segment) →
    Names segment name → request.method = .put → request.body.size ≤ maxBodySize →
    (∃ lockRequest, LockRequest.parse request.body = .ok lockRequest) →
    request.answer peers db = (.document 423 document, db)
  /-- Whoever is told that the name is locked is shown the document. -/
  conflict : ∀ (request : Request) (endpoint : Endpoint) (segment : List UInt8),
    Endpoint.ofPath? request.target.path = some endpoint →
    endpoint ∈ [Endpoint.state segment, .lock segment, .unlock segment] → Names segment name →
    (request.answer peers db).1.status = 423 ∨ (request.answer peers db).1.status = 409 →
    (request.answer peers db).1 = .document (request.answer peers db).1.status document
  /-- The document, sent as it is, gives the lock back. -/
  replayed : ∀ (request : Request) (segment : List UInt8), request.Reaches peers (.unlock segment) →
    Names segment name → request.method = .put → request.body = document →
    (request.answer peers db).1 = .success .null ∧
      (request.answer peers db).2.record? .lock name = none ∧
      (request.answer peers db).2.row? RecordKind.lock.table name = none

theorem Refusal.status_ne_conflict (refusal : Refusal) :
    ¬ (refusal.response.status = 423 ∨ refusal.response.status = 409) := by
  rintro (h | h)
  all_goals
    cases refusal with
    | forbidden allowed => cases allowed <;> cases h
    | unknownPath | wrongMethod | duplicateToken | bodyTooLarge | malformed => cases h

/-- A conflict about a locked name shows the document of the lock. -/
theorem Request.conflict_of_locked (h : db.Intact) (hlock : db.record? .lock name = some lock)
    {endpoint : Endpoint} (hpath : Endpoint.ofPath? request.target.path = some endpoint)
    (hendpoint : endpoint ∈ [Endpoint.state segment, .lock segment, .unlock segment])
    (hname : Names segment name)
    (hstatus : (request.answer peers db).1.status = 423 ∨
      (request.answer peers db).1.status = 409) :
    (request.answer peers db).1 =
      .document (request.answer peers db).1.status lock.holder.toUTF8 := by
  cases hdecode : request.decode peers with
  | error refusal =>
    rw [answer_of_refused hdecode, Response.status_sentFor] at hstatus
    exact absurd hstatus refusal.status_ne_conflict
  | ok op =>
    obtain ⟨endpoint', hpath', -, hmeans⟩ := means_of_decode hdecode
    rw [hpath] at hpath'
    cases hpath'
    rw [answer_of_decode hdecode] at hstatus ⊢
    dsimp only at hstatus ⊢
    rw [Response.status_sentFor] at hstatus ⊢
    have hsame {name' : String} (hname' : readSegment "name" segment = .ok name') : name' = name := by
      rw [hname.readSegment "name"] at hname'
      exact (Except.ok.inj hname').symm
    generalize request.method = method at hmeans hstatus ⊢
    simp only [List.mem_cons, List.not_mem_nil, or_false] at hendpoint
    rcases hendpoint with rfl | rfl | rfl
    · cases hmeans with
      | getState _ hname' =>
        rw [Operation.run_getState h] at hstatus
        split at hstatus <;> rcases hstatus with hs | hs <;> cases hs
      | putState hname' _ _ =>
        cases hsame hname'
        rw [Operation.run_putState h, hlock] at hstatus ⊢
        dsimp only at hstatus ⊢
        split at hstatus
        · rcases hstatus with hs | hs <;> cases hs
        · next hne =>
          rw [if_neg hne]
          rfl
      | deleteState hname' =>
        rw [Operation.run_deleteState h] at hstatus
        split at hstatus <;> rcases hstatus with hs | hs <;> cases hs
    · cases hmeans with
      | getLock _ hname' =>
        cases hsame hname'
        rw [Operation.run_getLock h, hlock] at hstatus
        rcases hstatus with hs | hs <;> cases hs
      | acquire hname' _ _ =>
        cases hsame hname'
        rw [Operation.run_acquire h, hlock]
        rfl
    · cases hmeans with
      | release hname' _ _ =>
        cases hsame hname'
        rw [Operation.run_release h, hlock] at hstatus ⊢
        dsimp only at hstatus ⊢
        split at hstatus
        · rcases hstatus with hs | hs <;> cases hs
        · next hne =>
          rw [if_neg hne]
          rfl

/-- What was accepted and holds the lock is what clients are shown. -/
theorem lockEcho_of_held (h : Served db) (hlock : db.record? .lock name = some lock)
    (hsize : lock.holder.toUTF8.size ≤ maxBodySize) :
    LockEcho peers name lock.holder.toUTF8 db where
  read := by
    intro request segment hreaches hname hmethod
    rw [hreaches.answer_getLock h.intact hname hmethod, hlock]
  refused := by
    rintro request segment hreaches hname hmethod hbody ⟨lockRequest, hparse⟩
    rw [hreaches.answer_acquire h.intact hname hmethod hbody hparse, hlock]
  conflict := by
    intro request endpoint segment hpath hendpoint hname hstatus
    exact Request.conflict_of_locked h.intact hlock hpath hendpoint hname hstatus
  replayed := by
    intro request segment hreaches hname hmethod hbody
    have hparse : LockRequest.parse request.body = .ok ⟨lock.token, lock.holder⟩ := by
      rw [hbody]
      exact (h.accepted name lock hlock).parse_holder
    have hanswer : request.answer peers db = (.success .null, db.drop .lock name) := by
      rw [hreaches.answer_release h.intact hname hmethod (hbody ▸ hsize) hparse, hlock]
      exact if_pos rfl
    have hgone : (db.drop .lock name).record? .lock name = none := by
      rw [Database.record?_drop_same]
      exact if_pos rfl
    rw [hanswer]
    refine ⟨rfl, hgone, ?_⟩
    rw [(h.intact.drop .lock name).row?_eq_map .lock name, hgone]
    rfl

/-! ## Every history -/

/--
After every history of requests to a new store every row in the table of locks holds a lock of the
name under which it stands, and the document of the lock is read as the token and the document that
the row holds. If a request then takes the lock on a name by its body, clients are shown the body, byte
for byte, until a request to unlock the name succeeds, and the body is good for such a request.
-/
theorem lock_document_echo (peers : PeerList) (history : List Request)
    (harrive : ∀ request ∈ history, request.Arrives) :
    let db := (Request.answerAll peers history Schema.fresh).2
    (∀ (name : String) (row : ByteArray), db.row? RecordKind.lock.table name = some row →
      ∃ lock : Lock, row = RecordKind.lock.encode lock ∧ lock.name = name ∧
        LockRequest.parse lock.holder.toUTF8 = .ok ⟨lock.token, lock.holder⟩) ∧
    ∀ (taking : Request) (segment : List UInt8) (name : String), taking.Arrives →
      Endpoint.ofPath? taking.target.path = some (.lock segment) → Names segment name →
      taking.method = .put → (taking.answer peers db).1.status = 200 →
      let taken := (taking.answer peers db).2
      ∀ later : List Request, (∀ request ∈ later, request.Arrives) →
        (∀ entry ∈ later.zip (Request.answerAll peers later taken).1,
          entry.1.Unlocks name → entry.2.status ≠ 200) →
        LockEcho peers name taking.body (Request.answerAll peers later taken).2 := by
  intro db
  have hdb : Served db := Served.fresh.answerAll peers harrive
  refine ⟨?_, ?_⟩
  · intro name row hrow
    rw [hdb.intact.row?_eq_map .lock name] at hrow
    obtain ⟨lock, hlock, hencode⟩ := Option.map_eq_some_iff.1 hrow
    exact ⟨lock, hencode.symm, (hdb.intact.of_record? hlock).1,
      (hdb.accepted name lock hlock).parse_holder⟩
  · intro taking segment name harrives hpath hname hmethod hstatus taken later hlater hunlock
    obtain ⟨lockRequest, hparse, hsize, htaken⟩ :=
      Request.record?_lock_taken hdb harrives hpath hname hmethod hstatus
    have hserved : Served taken := hdb.answer peers harrives
    have hheld := Request.record?_lock_keptAll hserved hlater htaken hunlock
    have hholder : lockRequest.holder.toUTF8 = taking.body := (LockRequest.of_parse hparse).1
    have hecho : LockEcho peers name lockRequest.holder.toUTF8 _ :=
      lockEcho_of_held (hserved.answerAll peers hlater) hheld (hholder ▸ hsize)
    exact hholder ▸ hecho

/-- A document with white space around its members, an escape in its token and a member besides. -/
def spaciousDocument : String := " \x7b \"Info\" : [1, null] ,\n\"ID\":\"\\u0074\" \x7d\t"

/-- `plan` is locked, a write and a request to unlock it are refused, and then it is unlocked by what
was shown. -/
theorem lock_document_echo_spacious :
    let taken := ((fromSocket .put "/1.0/lock/plan" spaciousDocument).answer ⟨[]⟩ Schema.fresh).2
    let later := [fromSocket .put "/1.0/state/plan" "x",
      fromSocket .put "/1.0/unlock/plan" (tokenDocument "u")]
    let db := (Request.answerAll ⟨[]⟩ later taken).2
    (fromSocket .get "/1.0/lock/plan" "").answer ⟨[]⟩ db =
      (.document 200 spaciousDocument.toUTF8, db) ∧
    ((fromSocket .put "/1.0/unlock/plan" spaciousDocument).answer ⟨[]⟩ db).2.record? .lock
      "plan" = none := by
  intro taken later db
  have harrive : ∀ request ∈ later, request.Arrives := by
    intro request hr
    rw [List.mem_cons, List.mem_singleton] at hr
    rcases hr with rfl | rfl
    · exact ⟨"/1.0/state/plan", by decide +kernel⟩
    · exact ⟨"/1.0/unlock/plan", by decide +kernel⟩
  have hname : Names "plan".toUTF8.data.toList "plan" := ⟨by decide +kernel, by decide⟩
  have hrefused : ∀ entry ∈ later.zip (Request.answerAll ⟨[]⟩ later taken).1,
      entry.2.status ≠ 200 := by
    decide +kernel
  have hecho := (lock_document_echo ⟨[]⟩ [] (fun _ hr => absurd hr List.not_mem_nil)).2
    (fromSocket .put "/1.0/lock/plan" spaciousDocument) _ "plan"
    ⟨"/1.0/lock/plan", by decide +kernel⟩ (by decide +kernel) hname rfl (by decide +kernel)
    later harrive (fun entry hentry _ => hrefused entry hentry)
  refine ⟨?_, ?_⟩
  · exact hecho.read _ _ ⟨by decide +kernel, by decide +kernel⟩ hname rfl
  · have hreaches : (fromSocket .put "/1.0/unlock/plan" spaciousDocument).Reaches ⟨[]⟩
        (.unlock "plan".toUTF8.data.toList) := ⟨by decide +kernel, by decide +kernel⟩
    exact (hecho.replayed _ _ hreaches hname rfl rfl).2.1

end Http

end ControlPlane
