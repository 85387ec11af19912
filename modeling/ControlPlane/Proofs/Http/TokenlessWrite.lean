import ControlPlane.Proofs.Http.Reaching

/-!
# Writes without a token

A write of a state that brings no token is taken to bring the empty one (`readToken_of_isTokenless`).
A lock keeps such a write out unless its own token is empty, and a lock document may well have an
empty token: whoever locks a name by such a document has not locked it against writes without one.
-/

namespace ControlPlane

namespace Http

/-- Whether a query brings no token: none of its fields is named `ID`. -/
def IsTokenless (query : List UInt8) : Prop := ∀ field ∈ formFields query, field.1 ≠ "ID"

variable {peers : PeerList} {request : Request} {db : Database} {segment : List UInt8} {name : String}

theorem readToken_of_isTokenless {query : List UInt8} (h : IsTokenless query) :
    readToken query = .ok "" := by
  have hnone : (formFields query).filter (·.1 = "ID") = [] := by
    rw [List.filter_eq_nil_iff]
    intro field hfield hid
    exact h field hfield (of_decide_eq_true hid)
  unfold readToken
  rw [hnone]

namespace Request

/-- The size of the body is looked at before the store is. -/
theorem Reaches.answer_tooLarge (hreaches : request.Reaches peers (.state segment))
    (hname : Names segment name) (hmethod : request.method = .put) {token : String}
    (htoken : readToken request.target.query = .ok token) (hbody : maxBodySize < request.body.size)
    (db : Database) : request.answer peers db = (Refusal.bodyTooLarge.response, db) := by
  have hread : readBody request.body = .error .bodyTooLarge := if_pos hbody
  have hdecode : request.decode peers = .error .bodyTooLarge := by
    rw [hreaches.decode, hmethod]
    unfold Endpoint.decode
    dsimp only
    rw [hname.readSegment "name", htoken, hread]
    rfl
  rw [answer_of_refused hdecode, hmethod]
  rfl

end Request

/--
While a name is locked, after whatever history of requests to a new store, a write of its state that
brings no token is refused with the document of the lock and changes nothing, as long as the token of
the lock is not empty. If it is empty the write goes through under the lock. A body that is too large
is refused before the lock is looked at.
-/
theorem tokenless_write (peers : PeerList) (history : List Request)
    (harrive : ∀ request ∈ history, request.Arrives) :
    let db := (Request.answerAll peers history Schema.fresh).2
    ∀ (name : String) (lock : Lock), db.record? .lock name = some lock →
    ∀ (request : Request) (segment : List UInt8), request.Arrives →
      request.Reaches peers (.state segment) → Names segment name → request.method = .put →
      IsTokenless request.target.query →
      (maxBodySize < request.body.size →
        request.answer peers db = (Refusal.bodyTooLarge.response, db)) ∧
      (request.body.size ≤ maxBodySize → lock.token ≠ "" →
        request.answer peers db = (.document 409 lock.holder.toUTF8, db)) ∧
      (request.body.size ≤ maxBodySize → lock.token = "" →
        (request.answer peers db).1 = .success .null ∧
        (request.answer peers db).2.record? .state name = some ⟨name, request.body⟩ ∧
        (request.answer peers db).2.record? .lock name = some lock) := by
  intro db name lock hlock request segment harrives hreaches hname hmethod htokenless
  have hdb : db.Intact := (Served.fresh.answerAll peers harrive).intact
  have htoken := readToken_of_isTokenless htokenless
  refine ⟨?_, ?_, ?_⟩
  · intro hbody
    exact hreaches.answer_tooLarge hname hmethod htoken hbody db
  · intro hbody hne
    rw [hreaches.answer_putState hdb hname hmethod htoken hbody, hlock]
    exact if_neg hne
  · intro hbody hempty
    have hmeans : (Endpoint.state segment).Means request.target.query request.body .put
        (.putState name "" request.body) := .putState (hname.readSegment "name") htoken hbody
    have hdecode : request.decode peers = .ok (.putState name "" request.body) := by
      rw [hreaches.decode, hmethod, hmeans.decode]
    have hfits : (Operation.putState name "" request.body).Fits :=
      Request.fits_of_decode harrives hdecode
    have hanswer : request.answer peers db =
        (.success .null, db.keep .state ⟨name, request.body⟩) := by
      rw [hreaches.answer_putState hdb hname hmethod htoken hbody, hlock]
      exact if_pos hempty
    rw [hanswer]
    refine ⟨rfl, ?_, ?_⟩
    · rw [Database.record?_keep_same .state hfits]
      exact if_pos rfl
    · rw [db.record?_keep_other .state _ (by decide) name]
      exact hlock

/-- `plan` is locked by a token, and a write without one is refused with the document. -/
theorem tokenless_write_plan :
    let db := (Request.answerAll ⟨[]⟩ [fromSocket .put "/1.0/lock/plan" (tokenDocument "t")]
      Schema.fresh).2
    (fromSocket .put "/1.0/state/plan" "x").answer ⟨[]⟩ db =
      (.document 409 (tokenDocument "t").toUTF8, db) := by
  have harrive : ∀ request ∈ [fromSocket .put "/1.0/lock/plan" (tokenDocument "t")],
      request.Arrives := by
    intro request hr
    rw [List.mem_singleton] at hr
    subst hr
    exact ⟨"/1.0/lock/plan", by decide +kernel⟩
  have harrives : (fromSocket .put "/1.0/state/plan" "x").Arrives :=
    ⟨"/1.0/state/plan", by decide +kernel⟩
  have hreaches : (fromSocket .put "/1.0/state/plan" "x").Reaches ⟨[]⟩
      (.state "plan".toUTF8.data.toList) := ⟨by decide +kernel, by decide +kernel⟩
  have hname : Names "plan".toUTF8.data.toList "plan" := ⟨by decide +kernel, by decide⟩
  have htokenless : IsTokenless (fromSocket .put "/1.0/state/plan" "x").target.query := by
    unfold IsTokenless
    decide +kernel
  exact (tokenless_write ⟨[]⟩ _ harrive "plan" ⟨"plan", "t", tokenDocument "t"⟩ (by decide +kernel)
    _ _ harrives hreaches hname rfl htokenless).2.1 (by decide +kernel) (by decide)

/-- A lock with the empty token is held, and a write without a token goes through under it. -/
theorem empty_token_lets_writes_through :
    (Request.answerAll ⟨[]⟩ [fromSocket .put "/1.0/lock/plan" (tokenDocument ""),
      fromSocket .put "/1.0/state/plan" "x", fromSocket .get "/1.0/state/plan" "",
      fromSocket .get "/1.0/lock/plan" ""] Schema.fresh).1 =
    [.success .null, .success .null, .document 200 "x".toUTF8,
      .document 200 (tokenDocument "").toUTF8] := by
  decide +kernel

end Http

end ControlPlane
