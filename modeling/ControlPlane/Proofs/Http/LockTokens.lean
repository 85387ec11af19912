import ControlPlane.Proofs.Http.LockEcho
import ControlPlane.Proofs.Json.ObjectRead
import ControlPlane.Proofs.Service.LockForm

/-!
# The tokens that are shown

A lock document is read for its token when a lock is taken or given back, and in full when the locks
are listed. The two readings agree: where an object is read in full, its token is found just if it has
`ID` once and with a string, and the token is what the object that is read has under `ID`
(`LockRequest.parse_iff_of_document`). So what a listing shows as the `ID` of a lock is the token by
which the lock is given back, and there is no other (`Shown`).
-/

namespace ControlPlane

namespace Json

open Ascii

/-- A text that holds an array of one string is read as a list. -/
theorem list_of_parse {text : String} {s : Input} {value : Value} (hlist : IsListWith text s)
    (h : Value.parse s = .ok value) : ∃ items, value = .list items := by
  obtain ⟨rest, hread, -⟩ := of_parseWith h
  cases hlist with
  | @spaced before inner bytes outer behind hbefore hinner hspells houter _ =>
    have hitem := Derives.item hinner (.text hspells) houter
    have hbytes : inner ++ quote :: (bytes ++ quote :: (outer ++ closeBracket :: behind)) =
        inner ++ (quote :: (bytes ++ [quote]) ++ outer) ++ closeBracket :: behind := by simp
    rw [hbytes] at hread
    obtain ⟨items, hitems⟩ := list_of_readValue hbefore hitem hread
    exact ⟨items, (Prod.mk.inj hitems).1⟩

end Json

theorem Lock.parse_of_document {lock : Lock} {value : Json.Value} (h : lock.document = .ok value) :
    Json.Value.parse lock.holder.toUTF8.data.toList = .ok value := by
  unfold Lock.document at h
  cases hparse : Json.Value.parse lock.holder.toUTF8.data.toList with
  | error complaint => rw [hparse] at h; cases h
  | ok value' =>
    rw [hparse] at h
    cases h
    rfl

/--
Where the document of a request is read in full as an object, it is the request of a body just if it
is the body, has `ID` once, and the object that is read has the token under `ID`.
-/
theorem LockRequest.parse_iff_of_document {request : LockRequest} {name : String}
    {members : List (String × Json.Value)}
    (h : (request.lockOn name).document = .ok (.object members)) (body : ByteArray) :
    LockRequest.parse body = .ok request ↔ request.holder.toUTF8 = body ∧
      Json.HasOnce "ID" body.data.toList ∧
      (Json.Value.object members).member? "ID" = some (.text request.token) := by
  have hread : Json.Value.parse request.holder.toUTF8.data.toList = .ok (.object members) :=
    Lock.parse_of_document h
  constructor
  · intro hparse
    have hgives := gives_of_parse hparse
    obtain ⟨rfl, -⟩ := of_parse hparse
    rcases hgives with hobject | hlist
    · exact ⟨rfl, (Json.isObjectWith_iff hread "ID" request.token).mp hobject⟩
    · obtain ⟨items, hitems⟩ := Json.list_of_parse hlist hread
      cases hitems
  · rintro ⟨rfl, hmember⟩
    exact parse_of_gives (.inl ((Json.isObjectWith_iff hread "ID" request.token).mpr hmember))

namespace Http

variable {peers : PeerList} {request : Request} {db : Database} {lock : Lock}

/-- What is shown of a lock, and what the token that is shown is good for. -/
structure Shown (peers : PeerList) (db : Database) (lock : Lock) (document : Json.Value) : Prop where
  /-- The document of the lock is shown. -/
  read : lock.document = .ok document
  /-- An object shows the token of the lock as its `ID`. -/
  token : ∀ members, document = .object members →
    document.member? "ID" = some (.text lock.token)
  /-- A request to unlock the name gives the lock back if its token is the one that is shown, and is
  refused otherwise. -/
  unlocks : ∀ (token : String), document.member? "ID" = some (.text token) →
    ∀ (request : Request) (segment : List UInt8) (lockRequest : LockRequest),
      request.Reaches peers (.unlock segment) → Names segment lock.name → request.method = .put →
      request.body.size ≤ maxBodySize → LockRequest.parse request.body = .ok lockRequest →
      request.answer peers db =
        if lockRequest.token = token then (.success .null, db.drop .lock lock.name)
        else (.document 409 lock.holder.toUTF8, db)

theorem token_of_document (h : lock.Accepted) {members : List (String × Json.Value)}
    (hdocument : lock.document = .ok (.object members)) :
    (Json.Value.object members).member? "ID" = some (.text lock.token) := by
  have hread : (LockRequest.lockOn ⟨lock.token, lock.holder⟩ lock.name).document =
      .ok (.object members) := hdocument
  exact ((LockRequest.parse_iff_of_document hread _).mp h.parse_holder).2.2

/-- The document of a lock that is held shows the token. -/
theorem shown_of_held (h : Served db) (hlock : db.record? .lock lock.name = some lock)
    {document : Json.Value} (hdocument : lock.document = .ok document) :
    Shown peers db lock document where
  read := hdocument
  token := by
    rintro members rfl
    exact token_of_document (h.accepted _ _ hlock) hdocument
  unlocks := by
    intro token hmember request segment lockRequest hreaches hname hmethod hbody hparse
    have htoken : lock.token = token := by
      cases document with
      | object members =>
        rw [token_of_document (h.accepted _ _ hlock) hdocument] at hmember
        cases hmember
        rfl
      | null | bool | number | text | list => cases hmember
    rw [hreaches.answer_release h.intact hname hmethod hbody hparse, hlock, ← htoken]
    by_cases ht : lock.token = lockRequest.token
    · rw [if_pos ht.symm]
      exact if_pos ht
    · rw [if_neg (Ne.symm ht)]
      exact if_neg ht

/-- The documents that a listing shows, each for its lock. -/
theorem forall₂_shown (h : Served db) {locks : List Lock} {documents : List Json.Value}
    (hheld : ∀ lock ∈ locks, db.record? .lock lock.name = some lock)
    (hmap : locks.map Lock.document = documents.map .ok) :
    List.Forall₂ (Shown peers db) locks documents := by
  induction locks generalizing documents with
  | nil =>
    obtain rfl := List.map_eq_nil_iff.mp hmap.symm
    exact .nil
  | cons lock locks ih =>
    cases documents with
    | nil => cases hmap
    | cons document documents =>
      obtain ⟨hdocument, hdocuments⟩ := List.cons.inj hmap
      exact .cons (shown_of_held h (hheld lock List.mem_cons_self) hdocument)
        (ih (fun lock' hmem => hheld lock' (List.mem_cons_of_mem lock hmem)) hdocuments)

/--
Where the document of a request is read in full as an object, the two readings of it agree: the request
is read from a body just if the document is the body, has `ID` once, and the object has the token under
it. After every history of requests to a new store a listing of locks that succeeds shows, of every lock
that is held, the one token by which it is given back, and a name that is not locked is locked by every
document with one string `ID`.
-/
theorem shown_tokens_unlock :
    (∀ (body : ByteArray) (lockRequest : LockRequest) (name : String)
      (members : List (String × Json.Value)),
      (lockRequest.lockOn name).document = .ok (.object members) →
      (LockRequest.parse body = .ok lockRequest ↔ lockRequest.holder.toUTF8 = body ∧
        Json.HasOnce "ID" body.data.toList ∧
        (Json.Value.object members).member? "ID" = some (.text lockRequest.token))) ∧
    ∀ (peers : PeerList) (history : List Request), (∀ request ∈ history, request.Arrives) →
      let db := (Request.answerAll peers history Schema.fresh).2
      (∀ request : Request, request.Reaches peers .locks → request.method = .get →
        (request.answer peers db).1.status = 200 →
        ∃ (locks : List Lock) (documents : List Json.Value),
          (∀ name lock, db.record? .lock name = some lock ↔ lock ∈ locks ∧ lock.name = name) ∧
          request.answer peers db = (.success (.list documents), db) ∧
          List.Forall₂ (Shown peers db) locks documents) ∧
      ∀ (request : Request) (segment : List UInt8) (name : String) (lockRequest : LockRequest)
        (members : List (String × Json.Value)), request.Reaches peers (.lock segment) →
        Names segment name → request.method = .put → request.body.size ≤ maxBodySize →
        lockRequest.holder.toUTF8 = request.body →
        (lockRequest.lockOn name).document = .ok (.object members) →
        Json.HasOnce "ID" request.body.data.toList →
        (Json.Value.object members).member? "ID" = some (.text lockRequest.token) →
        db.record? .lock name = none →
        request.answer peers db = (.success .null, db.keep .lock (lockRequest.lockOn name)) := by
  refine ⟨fun body lockRequest name members h => LockRequest.parse_iff_of_document h body, ?_⟩
  intro peers history harrive db
  have hdb : Served db := Served.fresh.answerAll peers harrive
  have hheld : ∀ lock ∈ db.records .lock, db.record? .lock lock.name = some lock :=
    fun _ hl => hdb.intact.mem_records.mp hl
  refine ⟨?_, ?_⟩
  · intro request hreaches hmethod hstatus
    have hanswer := Request.answer_locks hdb.intact hmethod hreaches.path hreaches.admitted
    have hlisting : Listing (db.records .lock) (.ofReply (.locks (db.records .lock))) :=
      listing_of_accepted fun lock hl => hdb.accepted lock.name lock (hheld lock hl)
    rw [hanswer] at hstatus ⊢
    generalize Response.ofReply (.locks (db.records .lock)) = response at hstatus hlisting ⊢
    cases hlisting with
    | failed => cases hstatus
    | @shown documents hmap =>
      exact ⟨db.records .lock, documents, fun _ _ => hdb.intact.record?_iff, rfl,
        forall₂_shown hdb hheld hmap⟩
  · intro request segment name lockRequest members hreaches hname hmethod hbody hholder hdocument
      honce hmember hfree
    have hparse : LockRequest.parse request.body = .ok lockRequest :=
      (LockRequest.parse_iff_of_document hdocument _).mpr ⟨hholder, honce, hmember⟩
    rw [hreaches.answer_acquire hdb.intact hname hmethod hbody hparse, hfree]

/-- A document with an escaped token under an escaped key, another member twice, and `ID` inside it. -/
def intricateDocument : String :=
  "\x7b\"a\":\x7b\"ID\":1\x7d,\n\"\\u0049D\":\"\\ud83d\\ude00\",\"a\":0\x7d"

/-- `plan` is locked by the document, its token is listed, and what is listed unlocks it. -/
theorem shown_tokens_unlock_intricate :
    let locking := fromSocket .put "/1.0/lock/plan" intricateDocument
    let db := (Request.answerAll ⟨[]⟩ [locking] Schema.fresh).2
    (locking.answer ⟨[]⟩ Schema.fresh).1 = .success .null ∧
    ∃ document documents, (fromSocket .get "/1.0/lock" "").answer ⟨[]⟩ db =
        (.success (.list documents), db) ∧
      document ∈ documents ∧ document.member? "ID" = some (.text "😀") ∧
      (fromSocket .put "/1.0/unlock/plan" (tokenDocument "😀")).answer ⟨[]⟩ db =
        (.success .null, db.drop .lock "plan") := by
  intro locking db
  let lock : Lock := ⟨"plan", "😀", intricateDocument⟩
  have hname : Names "plan".toUTF8.data.toList "plan" := ⟨by decide +kernel, by decide⟩
  obtain ⟨hagree, hserved⟩ := shown_tokens_unlock
  have hshows : (lock.document.toOption.bind (Json.Value.member? "ID")).isSome := by decide +kernel
  obtain ⟨members, hdocument⟩ : ∃ members, lock.document = .ok (.object members) := by
    cases hread : lock.document with
    | error e =>
      rw [hread] at hshows
      cases hshows
    | ok value =>
      rw [hread] at hshows
      cases value with
      | object members => exact ⟨members, rfl⟩
      | null | bool | number | text | list => cases hshows
  obtain ⟨-, honce, hmember⟩ :=
    (hagree intricateDocument.toUTF8 ⟨"😀", intricateDocument⟩ "plan" members hdocument).mp
      (by decide +kernel)
  have hlocking : locking.answer ⟨[]⟩ Schema.fresh = (.success .null, Schema.fresh.keep .lock lock) :=
    (hserved ⟨[]⟩ [] (fun _ hr => absurd hr List.not_mem_nil)).2 locking _ "plan"
      ⟨"😀", intricateDocument⟩ members ⟨by decide +kernel, by decide +kernel⟩ hname rfl
      (by decide +kernel) rfl hdocument honce hmember (by decide +kernel)
  have hheld : db.record? .lock "plan" = some lock := by
    have hdb : db = Schema.fresh.keep .lock lock := congrArg Prod.snd hlocking
    have hfits : RecordKind.lock.Fits lock :=
      ⟨by decide +kernel, by decide +kernel, by decide +kernel⟩
    rw [hdb, Database.record?_keep_same .lock hfits]
    exact if_pos rfl
  have harrive : ∀ request ∈ [locking], request.Arrives := by
    intro request hr
    obtain rfl := List.mem_singleton.mp hr
    exact ⟨"/1.0/lock/plan", by decide +kernel⟩
  obtain ⟨locks, documents, hlisted, hanswer, hshown⟩ := (hserved ⟨[]⟩ [locking] harrive).1
    (fromSocket .get "/1.0/lock" "") ⟨by decide +kernel, by decide +kernel⟩ rfl (by decide +kernel)
  obtain ⟨i, hi, hget⟩ := List.mem_iff_getElem.mp ((hlisted "plan" lock).mp hheld).1
  obtain ⟨document, hmem, hat⟩ : ∃ document ∈ documents, Shown ⟨[]⟩ db lock document :=
    ⟨_, List.get_mem documents ⟨i, hshown.length_eq ▸ hi⟩, hget ▸ hshown.get hi _⟩
  have htoken : document.member? "ID" = some (.text "😀") :=
    hat.token members (Except.ok.inj (hat.read.symm.trans hdocument))
  refine ⟨congrArg Prod.fst hlocking, document, documents, hanswer, hmem, htoken, ?_⟩
  refine (hat.unlocks "😀" htoken _ _ ⟨"😀", tokenDocument "😀"⟩
    ⟨by decide +kernel, by decide +kernel⟩ hname rfl (by decide +kernel) (by decide +kernel)).trans ?_
  exact if_pos rfl

end Http

end ControlPlane
