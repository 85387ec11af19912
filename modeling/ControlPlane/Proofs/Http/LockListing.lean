import ControlPlane.Proofs.Http.DecodedFits
import ControlPlane.Proofs.Service.LockDocument
import ControlPlane.Proofs.Service.LockLifeCycle

/-!
# The listing of locks

Every lock that is held was taken by a document that was accepted (`Served`), whatever was asked
before. The listing of locks therefore shows their documents in the order of the names, or fails
with the first that has a flaw (`Listing`). It succeeds just if none of them has one.
-/

namespace ControlPlane

/-- Whether there is a body that takes a lock as it is. -/
def Lock.Accepted (lock : Lock) : Prop :=
  ∃ body, LockRequest.parse body = .ok ⟨lock.token, lock.holder⟩

namespace Http

/-! ## What requests leave behind -/

/-- What holds of a store that is written by requests alone. -/
structure Served (db : Database) : Prop where
  /-- Every table is well kept. -/
  intact : db.Intact
  /-- Every lock was taken by a document that was accepted. -/
  accepted : ∀ name lock, db.record? .lock name = some lock → lock.Accepted

namespace Served

variable {db : Database}

theorem fresh : Served Schema.fresh where
  intact := Schema.fresh_intact
  accepted := by
    intro name lock hl
    rw [Schema.record?_fresh] at hl
    cases hl

theorem run (h : Served db) {op : Operation} (hop : op.Fits)
    (hacquire : ∀ name request, op = .acquire name request →
      ∃ body, LockRequest.parse body = .ok request) : Served (op.run db).2 where
  intact := Operation.run_intact h.intact hop
  accepted := by
    intro name lock hl
    have hstep := Operation.lockStep_of_intact h.intact hop name
    -- a lock that was not held before is the one asked for, and any other was held just as it is
    cases hbefore : db.record? .lock name with
    | none =>
      obtain ⟨request, rfl, rfl⟩ := hstep.appears lock hbefore hl
      exact hacquire name request rfl
    | some lock' =>
      rcases hstep.stays lock' hbefore with hs | ⟨hs, -⟩
      · rw [hs] at hl
        cases hl
        exact h.accepted name lock hbefore
      · rw [hs] at hl
        cases hl

theorem answer (h : Served db) (peers : PeerList) {request : Request} (harrives : request.Arrives) :
    Served (request.answer peers db).2 := by
  unfold Request.answer
  cases hd : request.decode peers with
  | error refusal => exact h
  | ok op =>
    refine h.run (Request.fits_of_decode harrives hd) ?_
    rintro name lockRequest rfl
    obtain ⟨endpoint, -, hasks⟩ := Request.asks_of_decode hd
    exact ⟨request.body, hasks.2.2⟩

theorem answerAll (peers : PeerList) {requests : List Request}
    (harrive : ∀ request ∈ requests, request.Arrives) :
    ∀ {db : Database}, Served db → Served (Request.answerAll peers requests db).2 := by
  induction requests with
  | nil => exact fun h => h
  | cons request requests ih =>
    intro db h
    exact ih (fun r hr => harrive r (List.mem_cons_of_mem request hr))
      (h.answer peers (harrive request List.mem_cons_self))

end Served

/-! ## What a listing answers -/

/-- What is answered to a listing of locks. -/
inductive Listing (locks : List Lock) : Response → Prop where
  /-- The documents are shown in the order of the locks. -/
  | shown {documents : List Json.Value} (h : locks.map Lock.document = documents.map .ok) :
    Listing locks (.success (.list documents))
  /-- The first lock whose document cannot be read is named, with the flaw of the document. -/
  | failed {before after : List Lock} {lock : Lock} {complaint : Json.Complaint}
    (hlocks : locks = before ++ lock :: after)
    (hbefore : ∀ readable ∈ before, ∃ document, readable.document = .ok document)
    (hlock : lock.document = .error (.internal (.document lock.name complaint)))
    (hflaw : lock.HasFlaw complaint.kind) :
    Listing locks
      (.failure 500 (ClusterError.internal (.document lock.name complaint)).message)

/-- Documents are read one after another, up to the first that cannot be read. -/
theorem mapM_document (locks : List Lock) :
    (∃ documents, locks.map Lock.document = documents.map .ok ∧
      locks.mapM (·.document) = .ok documents) ∨
    ∃ before lock after e, locks = before ++ lock :: after ∧
      (∀ readable ∈ before, ∃ document, readable.document = .ok document) ∧
      lock.document = .error e ∧ locks.mapM (·.document) = .error e := by
  induction locks with
  | nil => exact Or.inl ⟨[], rfl, rfl⟩
  | cons lock locks ih =>
    rw [List.mapM_cons]
    cases hd : lock.document with
    | error e =>
      right
      refine ⟨[], lock, locks, e, rfl, ?_, hd, rfl⟩
      intro readable hr
      cases hr
    | ok document =>
      rcases ih with ⟨documents, hmap, hall⟩ | ⟨before, first, after, e, rfl, hbefore, he, hall⟩
      · left
        refine ⟨document :: documents, ?_, ?_⟩
        · rw [List.map_cons, List.map_cons, hd, hmap]
        · rw [hall]
          rfl
      · right
        refine ⟨lock :: before, first, after, e, rfl, ?_, he, ?_⟩
        · intro readable hr
          rcases List.mem_cons.1 hr with rfl | hr
          · exact ⟨document, hd⟩
          · exact hbefore readable hr
        · rw [hall]
          rfl

theorem listing_of_accepted {locks : List Lock} (h : ∀ lock ∈ locks, lock.Accepted) :
    Listing locks (.ofReply (.locks locks)) := by
  unfold Response.ofReply
  rcases mapM_document locks with
    ⟨documents, hmap, hall⟩ | ⟨before, lock, after, e, hlocks, hbefore, he, hall⟩
  · dsimp only
    rw [hall]
    exact .shown hmap
  · dsimp only
    rw [hall]
    have hmem : lock ∈ locks := by
      rw [hlocks]
      simp
    obtain ⟨body, hbody⟩ := h lock hmem
    rcases LockRequest.document_of_parse hbody rfl with ⟨value, hv⟩ | ⟨complaint, hc, hflaw⟩
    · rw [hv] at he
      cases he
    · rw [hc] at he
      cases he
      exact .failed hlocks hbefore hc hflaw

/-- A listing of locks succeeds just if no document has a flaw. -/
theorem Listing.status_iff {locks : List Lock} (h : ∀ lock ∈ locks, lock.Accepted) {response : Response}
    (hlisting : Listing locks response) :
    response.status = 200 ↔ ∀ lock ∈ locks, ∀ kind, ¬ lock.HasFlaw kind := by
  cases hlisting with
  | @shown documents hmap =>
    refine ⟨fun _ lock hmem => ?_, fun _ => rfl⟩
    obtain ⟨body, hbody⟩ := h lock hmem
    refine (LockRequest.document_iff_of_parse hbody rfl).mp ?_
    have hread : lock.document ∈ documents.map .ok := hmap ▸ List.mem_map_of_mem hmem
    obtain ⟨document, -, hdocument⟩ := List.mem_map.mp hread
    exact ⟨document, hdocument.symm⟩
  | @failed before after lock complaint hlocks _ _ hflaw =>
    refine ⟨nofun, fun hflawless => ?_⟩
    have hmem : lock ∈ locks := by simp [hlocks]
    exact absurd hflaw (hflawless lock hmem complaint.kind)

theorem Request.answer_locks {peers : PeerList} {request : Request} {db : Database}
    (h : db.Intact) (hmethod : request.method = .get)
    (hpath : Endpoint.ofPath? request.target.path = some .locks)
    (hadmits : EndpointGroup.documents.admits (peers.access request.tag request.remote)) :
    request.answer peers db = (.ofReply (.locks (db.records .lock)), db) := by
  have hdecode : request.decode peers = .ok .listLocks := by
    unfold Request.decode
    rw [hpath]
    dsimp only
    rw [show Endpoint.locks.group = .documents from rfl, hadmits, hmethod]
    rfl
  unfold Request.answer
  rw [hdecode]
  dsimp only
  rw [Operation.run_listLocks h, hmethod]
  rfl

/--
The document of a lock that was accepted can be read in full just if it has no flaw, which is a number
out of range, an array or object nested too deeply, or half a surrogate pair alone in a string. Otherwise
it is an internal error that names the lock and a flaw of the document. A number is in range if the digits
before the point and the exponent add up to no more than 307. After every history of requests to a new
store a listing of locks is a `Listing` of the locks that are held, each of them once and in ascending
order of the names, and changes nothing; it succeeds just if the document of none of them has a flaw.
-/
theorem lock_listing :
    (∀ (body : ByteArray) (lockRequest : LockRequest) (name : String),
      LockRequest.parse body = .ok lockRequest →
        let lock := lockRequest.lockOn name
        ((∃ document, lock.document = .ok document) ↔ ∀ kind, ¬ lock.HasFlaw kind) ∧
        ((∃ document, lock.document = .ok document) ∨
          ∃ complaint, lock.document = .error (.internal (.document name complaint)) ∧
            lock.HasFlaw complaint.kind ∧ complaint.kind ∈ Json.unreadableFaults)) ∧
    (∀ (whole fraction exponent : List UInt8) (power : Int), Json.IsWhole whole →
      Json.IsFraction fraction → Json.IsPower power exponent → whole.length + power ≤ 307 →
      ¬ Json.OutOfRange (whole ++ fraction ++ exponent)) ∧
    ∀ (peers : PeerList) (history : List Request), (∀ request ∈ history, request.Arrives) →
      let db := (Request.answerAll peers history Schema.fresh).2
      ∀ request : Request, request.method = .get →
        Endpoint.ofPath? request.target.path = some .locks →
        EndpointGroup.documents.admits (peers.access request.tag request.remote) →
        ∃ locks : List Lock,
          locks.Pairwise (fun a b => a.name < b.name) ∧
          (∀ name lock, db.record? .lock name = some lock ↔ lock ∈ locks ∧ lock.name = name) ∧
          Listing locks (request.answer peers db).1 ∧
          ((request.answer peers db).1.status = 200 ↔
            ∀ lock ∈ locks, ∀ kind, ¬ lock.HasFlaw kind) ∧
          (request.answer peers db).2 = db := by
  refine ⟨?_, ?_, ?_⟩
  · intro body lockRequest name hparse
    refine ⟨LockRequest.document_iff_of_parse hparse rfl, ?_⟩
    have hlock : (lockRequest.lockOn name).holder = lockRequest.holder := rfl
    rcases LockRequest.document_of_parse hparse hlock with hread | ⟨complaint, hcomplaint, hflaw⟩
    · exact .inl hread
    · exact .inr ⟨complaint, hcomplaint, hflaw, hflaw.kind_mem⟩
  · exact fun _ _ _ _ hwhole hfraction hpower => Json.not_outOfRange hwhole hfraction hpower
  · intro peers history harrive db request hmethod hpath hadmits
    have hdb : Served db := Served.fresh.answerAll peers harrive
    have haccepted : ∀ lock ∈ db.records .lock, lock.Accepted := fun lock hl =>
      hdb.accepted lock.name lock (hdb.intact.mem_records.mp hl)
    have hlisting := listing_of_accepted haccepted
    rw [Request.answer_locks hdb.intact hmethod hpath hadmits]
    refine ⟨db.records .lock, hdb.intact.records_ascending .lock, ?_, hlisting, ?_, rfl⟩
    · exact fun _ _ => hdb.intact.record?_iff
    · exact hlisting.status_iff haccepted

/-- A request over the control socket. -/
def fromSocket (method : Method) (path body : String) : Request :=
  ⟨method, ⟨path.toUTF8.data.toList, []⟩, body.toUTF8, some .socket, none⟩

/-- A document with the token and nothing else. -/
def tokenDocument (token : String) : String := "\x7b\"ID\":\"" ++ token ++ "\"\x7d"

/-- A document with a member besides the token. -/
def documentWith (member : String) : String := "\x7b\"ID\":\"t\",\"Info\":" ++ member ++ "\x7d"

/-- What a document with a member besides the token is read as. -/
def valueWith (member : Json.Value) : Json.Value :=
  .object [("ID", .text "t"), ("Info", member)]

theorem parse_documentWith {text : String} {member : Json.Value} (hprint : text = member.print)
    (h : Json.ReadsAs 1 text member) :
    Json.Value.parse (documentWith text).toUTF8.data.toList = .ok (valueWith member) := by
  have hmembers : List.Forall₂ (Json.MemberReadsAs 1) [("ID", .text "t"), ("Info", member)]
      [("ID", .text "t"), ("Info", member)] :=
    .cons ⟨rfl, Json.readsAs_text 1 "t"⟩ (.cons ⟨rfl, hprint ▸ h⟩ .nil)
  have hparse := (Json.readsAs_object hmembers).parse (by decide)
  have hordered : [("ID", Json.Value.text "t"), ("Info", member)].Pairwise fun a b => a.1 < b.1 := by
    simp only [List.pairwise_cons, List.mem_singleton, forall_eq, List.not_mem_nil, false_implies,
      implies_true, List.Pairwise.nil, and_true]
    decide
  rw [Json.ofMembers_of_perm (.refl _) hordered] at hparse
  have hstart : "\x7b" ++ Json.printText "ID" ++ ":" ++ Json.printText "t" ++ "," ++
      Json.printText "Info" ++ ":" = "\x7b\"ID\":\"t\",\"Info\":" := by
    decide +kernel
  have htext : documentWith text = (valueWith member).print := by
    subst hprint
    unfold documentWith
    rw [← hstart]
    simp only [valueWith, Json.Value.print, Json.printMembers, Json.joinWithCommas,
      String.intercalate_cons_cons, String.intercalate_singleton, String.append_assoc]
  rw [htext]
  exact hparse

theorem document_with (name : String) {text : String} {member : Json.Value} (hprint : text = member.print)
    (h : Json.ReadsAs 1 text member) :
    (⟨name, "t", documentWith text⟩ : Lock).document = .ok (valueWith member) := by
  unfold Lock.document
  rw [parse_documentWith hprint h]

/-- Two locks are taken, and both documents are listed in the order of the names. A number with an
exponent of three digits may be in range. -/
theorem lock_listing_two_held :
    let db := (Request.answerAll ⟨[]⟩ [fromSocket .put "/1.0/lock/b" (documentWith "[]"),
      fromSocket .put "/1.0/lock/a" (documentWith "true")] Schema.fresh).2
    let response := ((fromSocket .get "/1.0/lock" "").answer ⟨[]⟩ db).1
    response.status = 200 ∧
    response = .success (.list [valueWith (.bool true), valueWith (.list [])]) ∧
    ¬ Json.OutOfRange "1e300".toUTF8.data.toList := by
  intro db response
  let held : List Lock := [⟨"a", "t", documentWith "true"⟩, ⟨"b", "t", documentWith "[]"⟩]
  have harrive : ∀ request ∈ [fromSocket .put "/1.0/lock/b" (documentWith "[]"),
      fromSocket .put "/1.0/lock/a" (documentWith "true")], request.Arrives := by
    intro request hr
    rw [List.mem_cons, List.mem_singleton] at hr
    rcases hr with rfl | rfl
    · exact ⟨"/1.0/lock/b", by decide +kernel⟩
    · exact ⟨"/1.0/lock/a", by decide +kernel⟩
  obtain ⟨hreads, hnumbers, hlists⟩ := lock_listing
  obtain ⟨locks, hascending, hheld, hlisting, hstatus, -⟩ := hlists ⟨[]⟩ _ harrive
    (fromSocket .get "/1.0/lock" "") rfl (by decide +kernel) (by decide +kernel)
  have hlocks : locks = held := by
    have hintact : db.Intact := (Served.fresh.answerAll ⟨[]⟩ harrive).intact
    have hrecords : db.records .lock = held := by decide +kernel
    have hsorted : held.Pairwise fun a b => a.name < b.name := by decide
    have hnodup {l : List Lock} (h : l.Pairwise fun a b => a.name < b.name) : l.Nodup :=
      h.imp fun hlt heq => absurd (congrArg Lock.name heq) (ne_of_lt hlt)
    refine List.Perm.eq_of_pairwise (fun a b _ _ hab hba => absurd hab (lt_asymm hba)) hascending
      hsorted ((List.perm_ext_iff_of_nodup (hnodup hascending) (hnodup hsorted)).mpr fun lock => ?_)
    rw [← hrecords, hintact.mem_records]
    exact ⟨fun hmem => (hheld lock.name lock).mpr ⟨hmem, rfl⟩, fun h => ((hheld lock.name lock).mp h).1⟩
  have ha : Lock.document ⟨"a", "t", documentWith "true"⟩ = .ok (valueWith (.bool true)) :=
    document_with "a" rfl (Json.readsAs_bool 1 true)
  have hb : Lock.document ⟨"b", "t", documentWith "[]"⟩ = .ok (valueWith (.list [])) :=
    document_with "b" rfl (Json.readsAs_list .nil)
  have hflawless : ∀ lock ∈ locks, ∀ kind, ¬ lock.HasFlaw kind := by
    rw [hlocks]
    intro lock hmem
    simp only [held, List.mem_cons, List.not_mem_nil, or_false] at hmem
    rcases hmem with rfl | rfl
    · exact (hreads (documentWith "true").toUTF8 ⟨"t", documentWith "true"⟩ "a"
        (by decide +kernel)).1.mp ⟨_, ha⟩
    · exact (hreads (documentWith "[]").toUTF8 ⟨"t", documentWith "[]"⟩ "b"
        (by decide +kernel)).1.mp ⟨_, hb⟩
  have hok : response.status = 200 := hstatus.mpr hflawless
  refine ⟨hok, ?_, ?_⟩
  · have hheld : Listing held response := hlocks ▸ hlisting
    clear_value response
    cases hheld with
    | failed => cases hok
    | @shown documents hmap =>
      have hshown : held.map Lock.document =
          [valueWith (.bool true), valueWith (.list [])].map .ok := by
        simp only [held, List.map_cons, List.map_nil, ha, hb]
      rw [List.map_injective_iff.mpr (fun _ _ => Except.ok.inj) (hmap.symm.trans hshown)]
  · have hbytes : "1e300".toUTF8.data.toList = [0x31] ++ [] ++ [0x65, 0x33, 0x30, 0x30] := by
      decide +kernel
    have hmark : (0x65 : UInt8) ∈ ([0x65, 0x45] : List UInt8) := by decide
    have hdigits : Json.IsDigits [0x33, 0x30, 0x30] :=
      ⟨by decide, List.all_eq_true.mp (by decide)⟩
    have hpower : Json.IsPower 300 [0x65, 0x33, 0x30, 0x30] := .up hmark List.mem_cons_self hdigits
    rw [hbytes]
    exact hnumbers _ _ _ 300 (.digits (by decide) (by decide) nofun) .none hpower (by decide)

/-- An array in an array, as deeply as is said. -/
def nestedArray (depth : Nat) : String :=
  String.join (List.replicate depth "[") ++ String.join (List.replicate depth "]")

/-- Why the document of a lock cannot be read. -/
def documentFault? (lock : Lock) : Option Json.FaultKind :=
  match lock.document with
  | .error (.internal (.document _ complaint)) => some complaint.kind
  | _ => none

/--
For each of the faults there is a document that is accepted and cannot be read. While a lock is held
by such a document the listing of locks fails, whatever other locks are held.
-/
theorem accepted_lock_breaks_listing :
    (["1e999", nestedArray 127, "\"\\uDC00\"", "\"\\uD800\""].map fun member =>
      (LockRequest.parse (documentWith member).toUTF8).toOption.bind fun request =>
        documentFault? (request.lockOn "plan")) = Json.unreadableFaults.map some ∧
    (Request.answerAll ⟨[]⟩ [fromSocket .put "/1.0/lock/plan" (documentWith "1e999"),
      fromSocket .put "/1.0/lock/other" (documentWith "[]"),
      fromSocket .get "/1.0/lock" ""] Schema.fresh).1.map (·.status) = [200, 200, 500] := by
  refine ⟨?_, ?_⟩
  · decide +kernel
  · decide +kernel

end Http

end ControlPlane
