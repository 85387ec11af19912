import ControlPlane.Proofs.Http.PercentEncoding
import ControlPlane.Proofs.Service.LockForm
import ControlPlane.Proofs.Service.Subjects

/-!
# Names and tokens through their encodings

A name reaches the service percent-encoded in a path, and a token reaches it in two ways: as a string
of a lock document, and percent-encoded in a query. All of it is decoded to the same texts, so whoever
has locked a name by a token can write its state with the token, and nobody can with another
(`Held`). Requests with another name neither change nor see what is kept under the name.
-/

namespace ControlPlane

/-- A document that gives a token under `ID`, however it is written, is accepted with the token. -/
theorem LockRequest.parse_of_isObjectWith {document token : String}
    (h : Json.IsObjectWith "ID" token (Utf8.bytes document)) :
    LockRequest.parse document.toUTF8 = .ok ⟨token, document⟩ :=
  parse_of_gives (.inl h)

namespace Http

/-- Whether a request goes to a target, given by its text. -/
def Request.GoesTo (request : Request) (uri : String) : Prop :=
  Target.ofText? uri = some request.target

/-- Whether states and locks are open to a request. -/
def Request.ReachesDocuments (peers : PeerList) (request : Request) : Prop :=
  EndpointGroup.documents.admits (peers.access request.tag request.remote)

variable {peers : PeerList} {request : Request} {db : Database} {name token : String}

/-! ## Where requests go -/

theorem length_le_of_goesTo {uri : String} (h : request.GoesTo uri) :
    (Utf8.bytes uri).length ≤ maxTargetLength := by
  by_contra hlength
  unfold Request.GoesTo Target.ofText? at h
  dsimp only at h
  rw [← Utf8.bytes, if_pos (Nat.lt_of_not_le hlength)] at h
  cases h

/-- The collections whose members are the states and the locks, and what their members are. -/
inductive IsDocumentRoute : String → (List UInt8 → Endpoint) → Prop
  /-- States. -/
  | state : IsDocumentRoute "state" .state
  /-- Locks. -/
  | lock : IsDocumentRoute "lock" .lock
  /-- Locks to be given back. -/
  | unlock : IsDocumentRoute "unlock" .unlock

theorem IsDocumentRoute.bytes {collection : String} {route : List UInt8 → Endpoint}
    (h : IsDocumentRoute collection route) :
    (∀ b ∈ Utf8.bytes collection, isPathByte b) ∧ Ascii.slash ∉ Utf8.bytes collection := by
  cases h <;> exact ⟨List.all_eq_true.mp (by decide), by decide⟩

theorem IsDocumentRoute.ofPath? {collection : String} {route : List UInt8 → Endpoint}
    (h : IsDocumentRoute collection route) (hname : name ≠ "") :
    Endpoint.ofPath? (memberPath collection name) =
      some (route (percentEncode (Utf8.bytes name))) := by
  rw [ofPath?_memberPath h.bytes.2 hname]
  cases h <;> rfl

/-- A request to a member reaches it. -/
theorem IsDocumentRoute.reaches {collection : String} {route : List UInt8 → Endpoint}
    (h : IsDocumentRoute collection route) (hname : name ≠ "")
    (hgoes : request.GoesTo (memberUri collection name)) (hadmitted : request.ReachesDocuments peers) :
    request.Reaches peers (route (percentEncode (Utf8.bytes name))) := by
  have htarget := ofText?_memberUri h.bytes.1 (length_le_of_goesTo hgoes)
  rw [hgoes] at htarget
  refine ⟨?_, ?_⟩
  · rw [Option.some.inj htarget]
    exact h.ofPath? hname
  · cases h <;> exact hadmitted

/-- A request to a state with a token reaches the state and gives the token. -/
theorem reaches_of_tokenUri (hname : name ≠ "") (hgoes : request.GoesTo (tokenUri name token))
    (hadmitted : request.ReachesDocuments peers) :
    request.Reaches peers (.state (percentEncode (Utf8.bytes name))) ∧
      readToken request.target.query = .ok token := by
  have htarget := ofText?_tokenUri (length_le_of_goesTo hgoes)
  rw [hgoes] at htarget
  rw [Option.some.inj htarget]
  refine ⟨⟨?_, hadmitted⟩, readToken_tokenQuery token⟩
  rw [Option.some.inj htarget]
  exact IsDocumentRoute.state.ofPath? hname

/-! ## A name that is locked -/

/-- What a name that is locked by a token is like to the holder of the token and to others, given the
document of the lock. -/
structure Held (peers : PeerList) (name token : String) (document : ByteArray) (db : Database) :
    Prop where
  /-- The holder writes the state, which is then read as it was written, and the lock stays. -/
  write : ∀ request : Request, request.GoesTo (tokenUri name token) →
    request.ReachesDocuments peers → request.method = .put → request.body.size ≤ maxBodySize →
    let written := (request.answer peers db).2
    (request.answer peers db).1 = .success .null ∧ written.Intact ∧
      written.record? .lock name = db.record? .lock name ∧
      ∀ reading : Request, reading.GoesTo (memberUri "state" name) →
        reading.ReachesDocuments peers → reading.method = .get →
        reading.answer peers written = (.document 200 request.body, written)
  /-- Whoever writes with another token is refused, and nothing changes. -/
  refuse : ∀ (request : Request) (other : String), other ≠ token →
    request.GoesTo (tokenUri name other) → request.ReachesDocuments peers → request.method = .put →
    request.body.size ≤ maxBodySize → request.answer peers db = (.document 409 document, db)

theorem held_of_record? (h : db.Intact) (hname : name ≠ "") {lock : Lock}
    (hlock : db.record? .lock name = some lock) :
    Held peers name lock.token lock.holder.toUTF8 db where
  write := by
    intro request hgoes hopen hmethod hbody written
    obtain ⟨hreaches, htoken⟩ := reaches_of_tokenUri hname hgoes hopen
    have hnames := names_percentEncode hname
    have hmeans : (Endpoint.state (percentEncode (Utf8.bytes name))).Means request.target.query
        request.body .put (.putState name lock.token request.body) :=
      .putState (hnames.readSegment "name") htoken hbody
    have hdecode : request.decode peers = .ok (.putState name lock.token request.body) := by
      rw [hreaches.decode, hmethod, hmeans.decode]
    have hfits : RecordKind.state.Fits ⟨name, request.body⟩ :=
      Request.fits_of_decode ⟨_, hgoes⟩ hdecode
    have hanswer : request.answer peers db =
        (.success .null, db.keep .state ⟨name, request.body⟩) := by
      rw [hreaches.answer_putState h hnames hmethod htoken hbody, hlock]
      exact if_pos rfl
    have hwritten : written = db.keep .state ⟨name, request.body⟩ := congrArg Prod.snd hanswer
    have hintact : written.Intact := hwritten ▸ h.keep .state hfits
    have hstate : written.record? .state name = some ⟨name, request.body⟩ := by
      rw [hwritten, Database.record?_keep_same .state hfits]
      exact if_pos rfl
    refine ⟨congrArg Prod.fst hanswer, hintact, ?_, ?_⟩
    · rw [hwritten]
      exact db.record?_keep_other .state _ (by decide) name
    · intro reading hgoes' hopen' hmethod'
      have hreaches' := IsDocumentRoute.state.reaches hname hgoes' hopen'
      rw [hreaches'.answer_getState hintact hnames hmethod', hstate]
  refuse := by
    intro request other hne hgoes hopen hmethod hbody
    obtain ⟨hreaches, htoken⟩ := reaches_of_tokenUri hname hgoes hopen
    rw [hreaches.answer_putState h (names_percentEncode hname) hmethod htoken hbody, hlock]
    exact if_neg (Ne.symm hne)

/-! ## Other names -/

/-- What is asked for at a state or a lock is about its name. -/
theorem IsDocumentRoute.subject {collection : String} {route : List UInt8 → Endpoint}
    (h : IsDocumentRoute collection route) {segment query : List UInt8} {method : Method}
    {body : ByteArray} {op : Operation} (hmeans : (route segment).Means query body method op) :
    ∃ name, Names segment name ∧ op.subject = some (.document name) := by
  cases h with
  | state =>
    cases hmeans with
    | getState _ hname | putState hname _ _ | deleteState hname =>
      exact ⟨_, names_of_readSegment hname, rfl⟩
  | lock =>
    cases hmeans with
    | getLock _ hname | acquire hname _ _ => exact ⟨_, names_of_readSegment hname, rfl⟩
  | unlock =>
    cases hmeans with
    | release hname _ _ => exact ⟨_, names_of_readSegment hname, rfl⟩

/-- What a request to a state or a lock comes to: a refusal whatever is stored, or an operation on its
name. -/
theorem IsDocumentRoute.decode {collection : String} {route : List UInt8 → Endpoint}
    (h : IsDocumentRoute collection route) (hpath : request.target.path = memberPath collection name)
    (peers : PeerList) :
    (∃ refusal, request.decode peers = .error refusal) ∨
      ∃ op, request.decode peers = .ok op ∧ op.subject = some (.document name) := by
  cases hdecode : request.decode peers with
  | error refusal => exact Or.inl ⟨refusal, rfl⟩
  | ok op =>
    right
    refine ⟨op, rfl, ?_⟩
    obtain ⟨endpoint, hendpoint, -, hmeans⟩ := Request.means_of_decode hdecode
    rw [hpath] at hendpoint
    by_cases hname : name = ""
    · subst hname
      have hnone : Endpoint.ofPath? (memberPath collection "") = none := by
        cases h <;> decide
      rw [hnone] at hendpoint
      cases hendpoint
    · rw [h.ofPath? hname] at hendpoint
      cases hendpoint
      obtain ⟨name', hnames, hsubject⟩ := h.subject hmeans
      have hsame : name' = name := by
        refine bytes_injective ?_
        exact hnames.1.trans (percentDecode_percentEncode _)
      rw [← hsame]
      exact hsubject

/-- Whether two databases differ at most in the state and the lock of a name. -/
def AgreeBeside (name : String) (db db' : Database) : Prop :=
  ∀ place : Place, place.subject ≠ .document name → Query.row place db = Query.row place db'

/-- A request with another name leaves the rows of a name as they are, and is answered whatever they
are. -/
theorem answer_of_other {collection : String} {route : List UInt8 → Endpoint}
    (h : IsDocumentRoute collection route) {other : String} (hother : other ≠ name)
    (hpath : request.target.path = memberPath collection other) (db : Database) :
    (∀ place ∈ (Subject.document name).places, Query.row place (request.answer peers db).2 =
      Query.row place db) ∧
    ∀ db', AgreeBeside name db db' →
      (request.answer peers db).1 = (request.answer peers db').1 := by
  rcases h.decode hpath peers with ⟨refusal, hdecode⟩ | ⟨op, hdecode, hsubject⟩
  · refine ⟨?_, ?_⟩
    · intro place _
      rw [Request.answer_of_refused hdecode]
    · intro db' _
      rw [Request.answer_of_refused hdecode, Request.answer_of_refused hdecode]
  · have hne : op.subject ≠ some (.document name) := by
      rw [hsubject]
      intro he
      cases he
      exact hother rfl
    refine ⟨?_, ?_⟩
    · intro place hplace
      rw [Request.answer_of_decode hdecode]
      exact Operation.run_agreeAt hne (fun key hkey => by cases hkey) place hplace
    · intro db' hagree
      have hplaces : db.AgreeAt (Subject.document other).places db' := by
        intro place hplace
        refine hagree place ?_
        rw [Subject.mem_places.mp hplace]
        intro he
        cases he
        exact hother rfl
      have hresult := (Operation.run_alteredAlike hsubject trivial trivial hplaces).1
      rw [Request.answer_of_decode hdecode, Request.answer_of_decode hdecode]
      dsimp only
      rw [hresult]

/-! ## Every name and every token -/

/--
A target that encodes a name, and a token if there is one, is read whenever it is not too long. On
every database that is intact, as all are that requests leave behind, a name that is not locked is
locked by whatever document spells the token, and the lock is the one row that changes. While a name is
locked its holder can write and others cannot (`Held`). Requests that encode another name leave the
rows of the name alone and are answered whatever these are.
-/
theorem encoded_names_and_tokens (peers : PeerList) {name : String} (hname : name ≠ "")
    (token : String) :
    ((∀ collection ∈ ["state", "lock", "unlock"],
        (memberUri collection name).utf8ByteSize ≤ maxTargetLength →
        ∃ target, Target.ofText? (memberUri collection name) = some target) ∧
      ((tokenUri name token).utf8ByteSize ≤ maxTargetLength →
        ∃ target, Target.ofText? (tokenUri name token) = some target)) ∧
    (∀ (db : Database) (document : String) (request : Request), db.Intact →
      db.record? .lock name = none → Json.IsObjectWith "ID" token (Utf8.bytes document) →
      request.GoesTo (memberUri "lock" name) → request.ReachesDocuments peers →
      request.method = .put → request.body = document.toUTF8 → request.body.size ≤ maxBodySize →
      (request.answer peers db).1 = .success .null ∧ (request.answer peers db).2.Intact ∧
        Database.Writes .lock ⟨name, token, document⟩ db (request.answer peers db).2) ∧
    (∀ (db : Database) (lock : Lock), db.Intact → db.record? .lock name = some lock →
      lock.token = token → Held peers name token lock.holder.toUTF8 db) ∧
    ∀ (collection other : String) (request : Request) (db : Database),
      collection ∈ ["state", "lock", "unlock"] → other ≠ name →
      request.target.path = Utf8.bytes (memberUri collection other) →
      (∀ place ∈ (Subject.document name).places, Query.row place (request.answer peers db).2 =
        Query.row place db) ∧
      ∀ db', AgreeBeside name db db' →
        (request.answer peers db).1 = (request.answer peers db').1 := by
  have hroute {collection : String} (h : collection ∈ ["state", "lock", "unlock"]) :
      ∃ route, IsDocumentRoute collection route := by
    simp only [List.mem_cons, List.not_mem_nil, or_false] at h
    rcases h with rfl | rfl | rfl
    · exact ⟨_, .state⟩
    · exact ⟨_, .lock⟩
    · exact ⟨_, .unlock⟩
  refine ⟨⟨?_, ?_⟩, ?_, ?_, ?_⟩
  · intro collection hcollection hlength
    obtain ⟨route, h⟩ := hroute hcollection
    exact ⟨_, ofText?_memberUri h.bytes.1 hlength⟩
  · intro hlength
    exact ⟨_, ofText?_tokenUri hlength⟩
  · intro db document request h hfree hdocument hgoes hopen hmethod hbody hsize
    have hparse : LockRequest.parse request.body = .ok ⟨token, document⟩ := by
      rw [hbody]
      exact LockRequest.parse_of_isObjectWith hdocument
    have hnames := names_percentEncode hname
    have hreaches := IsDocumentRoute.lock.reaches hname hgoes hopen
    have hmeans : (Endpoint.lock (percentEncode (Utf8.bytes name))).Means request.target.query
        request.body .put (.acquire name ⟨token, document⟩) :=
      .acquire (hnames.readSegment "name") hsize hparse
    have hdecode : request.decode peers = .ok (.acquire name ⟨token, document⟩) := by
      rw [hreaches.decode, hmethod, hmeans.decode]
    have hfits : (Operation.acquire name ⟨token, document⟩).Fits :=
      Request.fits_of_decode ⟨_, hgoes⟩ hdecode
    have hrun : (Operation.acquire name ⟨token, document⟩).run db =
        (.ok (.lock ⟨name, token, document⟩), db.keep .lock ⟨name, token, document⟩) := by
      rw [Operation.run_acquire h, hfree]
      rfl
    have hanswer := hreaches.answer_acquire h hnames hmethod hsize hparse
    rw [hfree] at hanswer
    rw [hanswer]
    exact ⟨rfl, h.keep .lock hfits, (Operation.writes_of_acquire hrun hfits).2⟩
  · rintro db lock h hlock rfl
    exact held_of_record? h hname hlock
  · intro collection other request db hcollection hother hpath
    obtain ⟨route, h⟩ := hroute hcollection
    rw [bytes_memberUri] at hpath
    exact answer_of_other h hother hpath db

/-- A name with the signs that have a meaning in targets, a control and a character beyond ASCII. -/
def awkwardName : String := "a/b%2F c+d&e=f?g#h\té"

/-- A document that gives the token `+é` with an escape, behind another member. -/
def escapedDocument : String := "\x7b\"Info\":[null],\"ID\":\"+\\u00e9\"\x7d"

open Ascii Json in
theorem escapedDocument_gives : IsObjectWith "ID" "+é" (Utf8.bytes escapedDocument) := by
  have hnone : IsBlanks [] := isBlanks_nil
  have hinfo : Spells "Info" (Utf8.bytes "Info") := spells_self (by decide)
  have hkey : Spells "ID" (Utf8.bytes "ID") := spells_self (by decide)
  have htoken : Spells "+é" [plus, backslash, 0x75, 0x30, 0x30, 0x65, 0x39] :=
    .cons (.plain (by decide) (by decide) (by decide))
      (.cons (.hex (.digits (by decide) (by decide) (by decide) (by decide) (by decide))) .nil)
  have hinfoValue : Derives .value [openBracket, 0x6E, 0x75, 0x6C, 0x6C, closeBracket] :=
    .list (.item hnone (.word List.mem_cons_self) hnone)
  have hmembers := Derives.memberComma (.spaced hnone hinfo hnone) hnone hinfoValue hnone
    (.member (.spaced hnone hkey hnone) hnone (.text htoken) hnone)
  have hothers : ∀ entry ∈ [("Info".toList.map some, [openBracket, 0x6E, 0x75, 0x6C, 0x6C,
      closeBracket])] ++ [], ∃ other : String, other ≠ "ID" ∧ entry.1 = other.toList.map some := by
    intro entry hentry
    exact ⟨"Info", by decide, congrArg Prod.fst (List.mem_singleton.1 hentry)⟩
  obtain ⟨object, hobject, hbytes⟩ : ∃ object, IsObjectWith "ID" "+é" object ∧
      Utf8.bytes escapedDocument = object :=
    ⟨_, .spaced hnone hmembers (.entry htoken hothers) hnone, by decide +kernel⟩
  rw [hbytes]
  exact hobject

/-- A request of a local client to a target, given by its text. -/
def sentTo (method : Method) (uri body : String) : Request :=
  ⟨method, (Target.ofText? uri).getD ⟨[], []⟩, body.toUTF8, some .socket, none⟩

theorem reachesDocuments_sentTo (method : Method) (uri body : String) :
    (sentTo method uri body).ReachesDocuments peers := rfl

/--
The awkward name is locked by a document that escapes its token, in a new store. The holder writes the
state and reads it back, and a stranger, whose token is decoded from a space, is refused.
-/
theorem encoded_names_and_tokens_awkward :
    let locking := sentTo .put "/1.0/lock/a%2Fb%252F%20c%2Bd%26e%3Df%3Fg%23h%09%C3%A9"
      escapedDocument
    let writing := sentTo .put
      "/1.0/state/a%2Fb%252F%20c%2Bd%26e%3Df%3Fg%23h%09%C3%A9?ID=%2B%C3%A9" "x"
    let straying := sentTo .put
      "/1.0/state/a%2Fb%252F%20c%2Bd%26e%3Df%3Fg%23h%09%C3%A9?ID=%20%C3%A9" "y"
    let reading := sentTo .get "/1.0/state/a%2Fb%252F%20c%2Bd%26e%3Df%3Fg%23h%09%C3%A9" ""
    let locked := (locking.answer ⟨[]⟩ Schema.fresh).2
    let written := (writing.answer ⟨[]⟩ locked).2
    locked.record? .lock awkwardName = some ⟨awkwardName, "+é", escapedDocument⟩ ∧
      (writing.answer ⟨[]⟩ locked).1 = .success .null ∧
      reading.answer ⟨[]⟩ written = (.document 200 "x".toUTF8, written) ∧
      straying.answer ⟨[]⟩ written = (.document 409 escapedDocument.toUTF8, written) := by
  intro locking writing straying reading locked written
  have hname : awkwardName ≠ "" := by decide
  have hlockingGoes : locking.GoesTo (memberUri "lock" awkwardName) := by
    unfold Request.GoesTo
    decide +kernel
  have hwritingGoes : writing.GoesTo (tokenUri awkwardName "+é") := by
    unfold Request.GoesTo
    decide +kernel
  have hstrayingGoes : straying.GoesTo (tokenUri awkwardName " é") := by
    unfold Request.GoesTo
    decide +kernel
  have hreadingGoes : reading.GoesTo (memberUri "state" awkwardName) := by
    unfold Request.GoesTo
    decide +kernel
  obtain ⟨-, hlocking, hheld, -⟩ := encoded_names_and_tokens ⟨[]⟩ hname "+é"
  obtain ⟨-, hintact, hwrites⟩ := hlocking Schema.fresh escapedDocument locking
    Schema.fresh_intact (by decide +kernel) escapedDocument_gives hlockingGoes
    (reachesDocuments_sentTo _ _ _) rfl rfl (by decide +kernel)
  have hlocked : locked.record? .lock awkwardName = some ⟨awkwardName, "+é", escapedDocument⟩ :=
    hwrites.record
  obtain ⟨hwriting, hintact', hstays, hreading⟩ :=
    (hheld locked _ hintact hlocked rfl).write writing hwritingGoes (reachesDocuments_sentTo _ _ _)
      rfl (by decide +kernel)
  refine ⟨hlocked, hwriting, hreading reading hreadingGoes (reachesDocuments_sentTo _ _ _) rfl, ?_⟩
  exact (hheld written _ hintact' (hstays.trans hlocked) rfl).refuse straying " é" (by decide)
    hstrayingGoes (reachesDocuments_sentTo _ _ _) rfl (by decide +kernel)

end Http

end ControlPlane
