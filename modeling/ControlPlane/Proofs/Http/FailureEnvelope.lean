import ControlPlane.Proofs.Http.Reaching
import ControlPlane.Proofs.Json.PrintedValue
import ControlPlane.Proofs.Service.Obstruction

/-!
# What a failure shows

A request to an endpoint with one of its methods that is not answered by status 200 meets one of three
things (`failure_shows`): a lock in the way, and then it is shown the document of the lock; the error
envelope, which is read back as the message and the status (`Response.IsEnvelope`); or one of two
refusals in plain text (`Endpoint.RefusesPlainly`), for a token that is given twice and for a body that
is too large. The two are met exactly where the name in the path can be read, and before the rest of
the body is looked at.
-/

namespace ControlPlane

namespace Http

/-! ## The error envelope -/

/-- Whether a response is the error envelope of a message: a JSON object of the type, the message and
the status. -/
structure Response.IsEnvelope (response : Response) (message : String) : Prop where
  /-- The body is JSON. -/
  contentType : response.contentType = some jsonType
  /-- The members are written in a fixed order. -/
  body : response.body = ("\x7b\"type\":\"error\",\"error\":" ++ Json.printText message ++
    ",\"error_code\":" ++ toString response.status ++ "\x7d").toUTF8
  /-- The members are read back. -/
  members : ∃ value, Json.Value.parse response.body.data.toList = .ok value ∧
    value.member? "type" = some (.text "error") ∧ value.member? "error" = some (.text message) ∧
    value.member? "error_code" = some (.number (.whole response.status))

theorem Response.isEnvelope_failure {status : Nat} (h : status ≤ Json.significandLimit)
    (message : String) : (failure status message).IsEnvelope message := by
  let members : List (String × Json.Value) := [("type", .text "error"), ("error", .text message),
    ("error_code", .number (.whole status))]
  have hmembers : List.Forall₂ (Json.MemberReadsAs 0) members members := by
    refine .cons ⟨rfl, Json.readsAs_text 0 _⟩ (.cons ⟨rfl, Json.readsAs_text 0 _⟩ (.cons ⟨rfl, ?_⟩ .nil))
    exact Json.readsAs_whole 0 h
  have hparse := (Json.readsAs_object hmembers).parse (by decide)
  have hstart : "\x7b" ++ Json.printText "type" ++ ":" ++ Json.printText "error" ++ "," ++
      Json.printText "error" ++ ":" = "\x7b\"type\":\"error\",\"error\":" := by
    decide +kernel
  have hcode : "," ++ Json.printText "error_code" ++ ":" = ",\"error_code\":" := by
    decide +kernel
  have hprint : Json.Value.print (.object members) = "\x7b\"type\":\"error\",\"error\":" ++
      Json.printText message ++ ",\"error_code\":" ++ toString status ++ "\x7d" := by
    rw [← hstart, ← hcode]
    simp only [members, Json.Value.print, Json.printMembers, Json.joinWithCommas,
      String.intercalate_cons_cons, String.intercalate_singleton, String.append_assoc]
    rfl
  refine ⟨rfl, congrArg String.toUTF8 hprint, ⟨_, hparse, ?_, ?_, ?_⟩⟩
  · rw [Json.member?_ofMembers]
    rfl
  · rw [Json.member?_ofMembers]
    rfl
  · rw [Json.member?_ofMembers]
    rfl

/-! ## Refusals in plain text -/

/-- Whether a query gives the token more than once. -/
def RepeatsToken (query : List UInt8) : Prop :=
  1 < ((formFields query).filter (·.1 = "ID")).length

/-- Whether the segment of an endpoint, if it has one, holds a name. -/
def Endpoint.IsNamed (endpoint : Endpoint) : Prop :=
  ∀ segment ∈ endpoint.segment?, ∃ name, Names segment name

/-- The refusal in plain text that a method meets at an endpoint, with a query and a body. -/
inductive Endpoint.RefusesPlainly (query : List UInt8) (body : ByteArray) :
    Endpoint → Method → Refusal → Prop where
  /-- A state is written with the token given more than once. -/
  | duplicateToken {segment : List UInt8} {name : String} (hname : Names segment name)
    (htoken : RepeatsToken query) : RefusesPlainly query body (.state segment) .put .duplicateToken
  /-- The body is too large, and what is looked at before it is in order. -/
  | bodyTooLarge {endpoint : Endpoint} {method : Method} (hmethod : method ∈ [Method.put, .post])
    (hname : endpoint.IsNamed)
    (htoken : ∀ segment, endpoint = .state segment → ¬ RepeatsToken query)
    (hbody : maxBodySize < body.size) : RefusesPlainly query body endpoint method .bodyTooLarge

variable {query : List UInt8} {body : ByteArray} {endpoint : Endpoint} {method : Method}
  {refusal : Refusal}

theorem readToken_of_repeats (h : RepeatsToken query) : readToken query = .error .duplicateToken := by
  unfold RepeatsToken at h
  unfold readToken
  split
  · next hnone => simp [hnone] at h
  · next hone => simp [hone] at h
  · rfl

theorem readToken_of_not_repeats (h : ¬ RepeatsToken query) : ∃ token, readToken query = .ok token := by
  unfold RepeatsToken at h
  unfold readToken
  generalize (formFields query).filter (·.1 = "ID") = fields at h ⊢
  match fields with
  | [] => exact ⟨_, rfl⟩
  | [_] => exact ⟨_, rfl⟩
  | _ :: _ :: _ => simp at h

theorem readToken_error_iff :
    readToken query = .error refusal ↔ refusal = .duplicateToken ∧ RepeatsToken query := by
  by_cases h : RepeatsToken query
  · simp [readToken_of_repeats h, h, eq_comm]
  · obtain ⟨token, htoken⟩ := readToken_of_not_repeats h
    simp [htoken, h]

theorem readBody_error_iff :
    readBody body = .error refusal ↔ refusal = .bodyTooLarge ∧ maxBodySize < body.size := by
  unfold readBody
  by_cases h : maxBodySize < body.size
  · simp [h, eq_comm]
  · simp [h]

/-! ## Faults of the input -/

theorem malformed_of_readSegment {parameter : String} {segment : List UInt8}
    (h : readSegment parameter segment = .error refusal) : ∃ fault, refusal = .malformed fault := by
  unfold readSegment at h
  split at h
  · cases h
    exact ⟨_, rfl⟩
  · split at h
    · cases h
      exact ⟨_, rfl⟩
    · cases h

theorem malformed_of_readLockRequest (h : readLockRequest body = .error refusal) :
    ∃ fault, refusal = .malformed fault := by
  unfold readLockRequest at h
  split at h
  · cases h
  · cases h
    exact ⟨_, rfl⟩

theorem malformed_of_readRecord {shape : Json.Shape} (h : readRecord shape body = .error refusal) :
    ∃ fault, refusal = .malformed fault := by
  unfold readRecord at h
  split at h
  · cases h
  · cases h
    exact ⟨_, rfl⟩

theorem malformed_of_readValue (h : readValue body = .error refusal) :
    ∃ fault, refusal = .malformed fault := by
  unfold readValue at h
  split at h
  · cases h
  · cases h
    exact ⟨_, rfl⟩

namespace Endpoint

theorem not_repeats_of_readToken {token : String} (h : readToken query = .ok token) :
    ¬ RepeatsToken query := by
  intro htwice
  rw [readToken_of_repeats htwice] at h
  cases h

theorem isNamed_of_readSegment {segment : List UInt8} {parameter name : String}
    (hsegment : endpoint.segment? = some segment) (h : readSegment parameter segment = .ok name) :
    endpoint.IsNamed := by
  intro segment' hsegment'
  obtain rfl : segment = segment' := Option.some.inj (hsegment.symm.trans hsegment')
  exact ⟨name, names_of_readSegment h⟩

/-- A method of an endpoint is refused in plain text or for a fault of the input. -/
theorem of_decode_error (hmethod : method ∈ endpoint.methods)
    (h : endpoint.decode method query body = .error refusal) :
    endpoint.RefusesPlainly query body method refusal ∨ ∃ fault, refusal = .malformed fault := by
  have hlarge {endpoint : Endpoint} {method : Method} (hput : method ∈ [Method.put, .post])
      (hname : endpoint.IsNamed)
      (htoken : ∀ segment, endpoint = .state segment → ¬ RepeatsToken query)
      (h : readBody body = .error refusal) :
      endpoint.RefusesPlainly query body method refusal ∨ ∃ fault, refusal = .malformed fault := by
    obtain ⟨rfl, hbody⟩ := readBody_error_iff.mp h
    exact Or.inl (.bodyTooLarge hput hname htoken hbody)
  unfold decode at h
  split at h
  case h_5 segment =>
    obtain h | ⟨name, hname, h⟩ := Except.error_of_bind h
    · exact Or.inr (malformed_of_readSegment h)
    obtain h | ⟨token, htoken, h⟩ := Except.error_of_bind h
    · obtain ⟨rfl, htwice⟩ := readToken_error_iff.mp h
      exact Or.inl (.duplicateToken (names_of_readSegment hname) htwice)
    obtain h | ⟨payload, -, h⟩ := Except.error_of_bind h
    · exact hlarge (by simp) (isNamed_of_readSegment rfl hname)
        (fun _ _ => not_repeats_of_readToken htoken) h
    · cases h
  case h_11 segment | h_12 segment =>
    obtain h | ⟨name, hname, h⟩ := Except.error_of_bind h
    · exact Or.inr (malformed_of_readSegment h)
    obtain h | ⟨body', -, h⟩ := Except.error_of_bind h
    · exact hlarge (by simp) (isNamed_of_readSegment rfl hname) nofun h
    obtain h | ⟨request, -, h⟩ := Except.error_of_bind h
    · exact Or.inr (malformed_of_readLockRequest h)
    · cases h
  case h_15 =>
    obtain h | ⟨body', -, h⟩ := Except.error_of_bind h
    · exact hlarge (by simp) nofun nofun h
    obtain h | ⟨⟨key, enabled, _⟩, -, h⟩ := Except.error_of_bind h
    · exact Or.inr (malformed_of_readRecord h)
    dsimp only at h
    split at h
    · cases h
      exact Or.inr ⟨_, rfl⟩
    · cases h
  case h_18 segment =>
    obtain h | ⟨key, hkey, h⟩ := Except.error_of_bind h
    · exact Or.inr (malformed_of_readSegment h)
    obtain h | ⟨body', -, h⟩ := Except.error_of_bind h
    · exact hlarge (by simp) (isNamed_of_readSegment rfl hkey) nofun h
    obtain h | ⟨⟨enabled, _⟩, -, h⟩ := Except.error_of_bind h
    · exact Or.inr (malformed_of_readRecord h)
    · cases h
  case h_22 segment =>
    obtain h | ⟨key, hkey, h⟩ := Except.error_of_bind h
    · exact Or.inr (malformed_of_readSegment h)
    obtain h | ⟨body', -, h⟩ := Except.error_of_bind h
    · exact hlarge (by simp) (isNamed_of_readSegment rfl hkey) nofun h
    obtain h | ⟨value, -, h⟩ := Except.error_of_bind h
    · exact Or.inr (malformed_of_readValue h)
    · cases h
  case h_24 =>
    -- every method of an endpoint has been dealt with
    exfalso
    clear h hlarge
    cases endpoint <;> simp_all [methods]
  -- the others have a segment at most
  all_goals first
    | cases h
    | (obtain h | ⟨name, hname, h⟩ := Except.error_of_bind h
       · exact Or.inr (malformed_of_readSegment h)
       · cases h)

/-- Where its conditions hold the refusal is met. -/
theorem RefusesPlainly.decode (h : endpoint.RefusesPlainly query body method refusal)
    (hmethod : method ∈ endpoint.methods) :
    endpoint.decode method query body = .error refusal := by
  cases h with
  | duplicateToken hname htoken =>
    unfold Endpoint.decode
    dsimp only
    rw [hname.readSegment "name", readToken_of_repeats htoken]
    rfl
  | bodyTooLarge hput hname htoken hbody =>
    have hread : readBody body = .error .bodyTooLarge := if_pos hbody
    have hput' : method = .put ∨ method = .post := by simpa using hput
    rcases hput' with rfl | rfl
    · cases endpoint with
      | states | locks | gates => simp [methods] at hmethod
      | state segment =>
        obtain ⟨name, hname⟩ := hname segment rfl
        obtain ⟨token, htoken⟩ := readToken_of_not_repeats (htoken segment rfl)
        unfold Endpoint.decode
        dsimp only
        rw [hname.readSegment "name", htoken, hread]
        rfl
      | lock segment | unlock segment | gate segment | config segment =>
        obtain ⟨name, hname⟩ := hname segment rfl
        unfold Endpoint.decode
        dsimp only
        rw [hname.readSegment, hread]
        rfl
    · cases endpoint with
      | gates =>
        unfold Endpoint.decode
        dsimp only
        rw [hread]
        rfl
      | states | locks | state | lock | unlock | gate | config => simp [methods] at hmethod

theorem RefusesPlainly.contentType (h : endpoint.RefusesPlainly query body method refusal) :
    refusal.response.contentType = some plainType := by
  cases h <;> rfl

/-- A method that is refused in plain text is shown the body. -/
theorem RefusesPlainly.sentFor (h : endpoint.RefusesPlainly query body method refusal)
    (response : Response) : response.sentFor method = response := by
  cases h with
  | duplicateToken => rfl
  | bodyTooLarge hput =>
    have hput' : method = .put ∨ method = .post := by simpa using hput
    rcases hput' with rfl | rfl <;> rfl

end Endpoint

/-! ## Failures -/

/-- What a failure shows that is not refused in plain text. -/
inductive Endpoint.Failure (db : Database) : Endpoint → Method → Response → Prop where
  /-- The lock is taken already, and its document is shown. -/
  | alreadyLocked {segment : List UInt8} {name : String} {lock : Lock} (hname : Names segment name)
    (hlock : db.record? .lock name = some lock) :
    Failure db (.lock segment) .put (.document 423 lock.holder.toUTF8)
  /-- The state is locked, and the document of the lock is shown. -/
  | stateLocked {segment : List UInt8} {name : String} {lock : Lock} (hname : Names segment name)
    (hlock : db.record? .lock name = some lock) :
    Failure db (.state segment) .put (.document 409 lock.holder.toUTF8)
  /-- The lock is held under another token, and its document is shown. -/
  | otherHolder {segment : List UInt8} {name : String} {lock : Lock} (hname : Names segment name)
    (hlock : db.record? .lock name = some lock) :
    Failure db (.unlock segment) .put (.document 409 lock.holder.toUTF8)
  /-- The message is shown in the error envelope. -/
  | envelope {endpoint : Endpoint} {method : Method} {response : Response} {message : String}
    (h : response.IsEnvelope message) : Failure db endpoint method response

variable {db : Database} {e : ClusterError}

/-- An error that names no lock is shown in the envelope. -/
theorem Response.isEnvelope_ofError (h : e.lock? = none) : (ofError e).IsEnvelope e.message := by
  cases e with
  | alreadyLocked | lockConflict => cases h
  | notFound | alreadyExists | invalidInput | internal => exact isEnvelope_failure (by decide) _

/-- What an operation fails with is shown. -/
theorem Endpoint.Means.failure_of_error {op : Operation}
    (hmeans : endpoint.Means query body method op) (h : (op.run db).1 = .error e) :
    endpoint.Failure db method (Response.ofError e) := by
  by_cases hlock : e.lock? = none
  · exact .envelope (Response.isEnvelope_ofError hlock)
  · have hobstructed := Operation.obstructed_of_run h hlock
    cases hobstructed with
    | acquire hheld =>
      cases hmeans with
      | acquire hname => exact .alreadyLocked (names_of_readSegment hname) hheld
    | putState hheld =>
      cases hmeans with
      | putState hname => exact .stateLocked (names_of_readSegment hname) hheld
    | release hheld =>
      cases hmeans with
      | release hname => exact .otherHolder (names_of_readSegment hname) hheld

theorem lock?_of_document {lock : Lock} (h : lock.document = .error e) : e.lock? = none := by
  unfold Lock.document at h
  split at h
  · cases h
  · cases h
    rfl

/-- Of the replies only a listing of locks may be shown as a failure. -/
theorem Response.isEnvelope_ofReply {reply : Reply} (h : (ofReply reply).status ≠ 200) :
    ∃ message, (ofReply reply).IsEnvelope message := by
  cases reply with
  | done | names | state | lock | gates | gate | value => exact absurd rfl h
  | locks locks =>
    unfold ofReply at h ⊢
    dsimp only at h ⊢
    rcases mapM_document locks with ⟨documents, -, hall⟩ | ⟨_, lock, _, e, -, -, hlock, hall⟩
    · rw [hall] at h
      exact absurd rfl h
    · rw [hall]
      exact ⟨e.message, isEnvelope_ofError (lock?_of_document hlock)⟩

theorem Endpoint.Means.failure {op : Operation} (hmeans : endpoint.Means query body method op)
    (h : (Response.ofOperation op (op.run db).1).status ≠ 200) :
    endpoint.Failure db method (Response.ofOperation op (op.run db).1) := by
  cases hrun : (op.run db).1 with
  | error e => exact hmeans.failure_of_error hrun
  | ok reply =>
    rw [hrun] at h
    have hreply : Response.ofOperation op (.ok reply) = .success .null ∨
        Response.ofOperation op (.ok reply) = .ofReply reply := by
      cases op <;> simp [Response.ofOperation]
    rcases hreply with hreply | hreply
    · rw [hreply] at h
      exact absurd rfl h
    · rw [hreply] at h ⊢
      obtain ⟨message, hmessage⟩ := Response.isEnvelope_ofReply h
      exact .envelope hmessage

/--
A request to an endpoint with one of its methods meets a refusal in plain text exactly where the
endpoint admits it and the conditions of the refusal hold. Every other answer of a status that is not
200 is the document of the lock under the name in the path, with status 423 if a lock was to be taken
and with 409 if a state was to be written or a lock given back, or it is the error envelope, with the
status in it. A request for all but the body is shown the same without the body.
-/
theorem failure_shows (peers : PeerList) (request : Request) (db : Database) (endpoint : Endpoint)
    (hpath : Endpoint.ofPath? request.target.path = some endpoint)
    (hmethod : request.method ∈ endpoint.methods) :
    let admitted := endpoint.group.admits (peers.access request.tag request.remote)
    let refuses := endpoint.RefusesPlainly request.target.query request.body request.method
    (∀ refusal, admitted → refuses refusal →
      request.answer peers db = (refusal.response, db) ∧
      refusal.response.contentType = some plainType) ∧
    ((request.answer peers db).1.status ≠ 200 → (admitted → ∀ refusal, ¬ refuses refusal) →
      ∃ response, (request.answer peers db).1 = response.sentFor request.method ∧
        endpoint.Failure db request.method response) := by
  intro admitted refuses
  refine ⟨?_, ?_⟩
  · intro refusal hadmitted hrefuses
    have hreaches : request.Reaches peers endpoint := ⟨hpath, hadmitted⟩
    have hdecode : request.decode peers = .error refusal := by
      rw [hreaches.decode, hrefuses.decode hmethod]
    rw [Request.answer_of_refused hdecode, hrefuses.sentFor]
    exact ⟨rfl, hrefuses.contentType⟩
  · intro hstatus hplain
    by_cases hadmitted : admitted
    · have hreaches : request.Reaches peers endpoint := ⟨hpath, hadmitted⟩
      cases hdecode : request.decode peers with
      | error refusal =>
        have hendpoint := hdecode
        rw [hreaches.decode] at hendpoint
        rw [Request.answer_of_refused hdecode]
        refine ⟨refusal.response, rfl, ?_⟩
        rcases Endpoint.of_decode_error hmethod hendpoint with hrefuses | ⟨fault, rfl⟩
        · exact absurd hrefuses (hplain hadmitted refusal)
        · exact .envelope (Response.isEnvelope_ofError (e := .invalidInput fault) rfl)
      | ok op =>
        have hmeans := Endpoint.means_of_decode (hreaches.decode.symm.trans hdecode)
        rw [Request.answer_of_decode hdecode] at hstatus ⊢
        rw [Response.status_sentFor] at hstatus
        exact ⟨_, rfl, hmeans.failure hstatus⟩
    · have hknown : endpoint.methods.contains request.method = true := List.contains_iff_mem.mpr hmethod
      have hdecode : request.decode peers = .error (.forbidden none) := by
        unfold Request.decode
        rw [hpath]
        dsimp only
        rw [if_neg hadmitted, hknown]
        rfl
      rw [Request.answer_of_refused hdecode]
      exact ⟨_, rfl, .envelope (Response.isEnvelope_failure (by decide) _)⟩

/-- A gate is added by a body that is no record, and the complaint is shown in the envelope. -/
theorem failure_shows_complaint :
    let adding := fromSocket .post "/1.0/feature-gates" "\x7b\"gate-key\":\"a\"\x7d"
    (adding.answer ⟨[]⟩ Schema.fresh).1.status = 400 ∧
    ∃ response, (adding.answer ⟨[]⟩ Schema.fresh).1 = response.sentFor .post ∧
      Endpoint.gates.Failure Schema.fresh .post response := by
  intro adding
  have hstatus : (adding.answer ⟨[]⟩ Schema.fresh).1.status = 400 := by
    decide +kernel
  refine ⟨hstatus, ?_⟩
  have hshows := failure_shows ⟨[]⟩ adding Schema.fresh .gates (by decide +kernel) (by decide)
  refine hshows.2 ?_ ?_
  · rw [hstatus]
    decide
  · intro _ refusal hrefuses
    cases hrefuses with
    | bodyTooLarge _ _ _ hbody => exact absurd hbody (by decide +kernel)

/-- A write of a state with the token given twice, while nothing is locked, is answered by status 400
and a body that is no JSON. -/
theorem repeated_token_is_shown_plainly :
    let target : Target := ⟨"/1.0/state/plan".toUTF8.data.toList, "ID=a&ID=b".toUTF8.data.toList⟩
    let writing : Request := ⟨.put, target, "x".toUTF8, some .socket, none⟩
    let shown := (writing.answer ⟨[]⟩ Schema.fresh).1
    Endpoint.ofPath? target.path = some (.state "plan".toUTF8.data.toList) ∧
    shown.status = 400 ∧
    shown.body = "Failed to deserialize query string: duplicate field \x60ID\x60".toUTF8 ∧
    (Json.Value.parse shown.body.data.toList).toOption.isNone := by
  decide +kernel

end Http

end ControlPlane
