import ControlPlane.Proofs.Http.LockListing
import ControlPlane.Proofs.Http.PercentEncoding
import ControlPlane.Proofs.Http.Reaching
import ControlPlane.Proofs.Json.PrintedRecord
import ControlPlane.Proofs.Service.Subjects
import Mathlib.Data.List.Perm.Basic

/-!
# Values over the wire

What a listing of gates shows can be posted element by element to another service, in any order, and the
listing there is the same to the byte. An element is taken as it is shown and as it is printed by whoever
has read it. A configuration value that is written is shown as a string that is read as just this value,
whatever characters it has.
-/

namespace ControlPlane

namespace Http

open Json

/-! ## Envelopes -/

/-- What is shown in the envelope of a success is read back. -/
theorem Response.parse_success {room : Nat} {metadata value : Value}
    (h : ReadsAs room metadata.print value) (hroom : room < depthLimit) :
    ∃ envelope, Value.parse (success metadata).body.data.toList = .ok envelope ∧
      envelope.member? "metadata" = some value := by
  have hmembers : List.Forall₂ (MemberReadsAs room)
      [("type", .text "sync"), ("status", .text "Success"), ("status_code", .number (.whole 200)),
        ("metadata", metadata)]
      [("type", .text "sync"), ("status", .text "Success"), ("status_code", .number (.whole 200)),
        ("metadata", value)] :=
    .cons ⟨rfl, readsAs_text room _⟩ (.cons ⟨rfl, readsAs_text room _⟩
      (.cons ⟨rfl, readsAs_whole room (by decide)⟩ (.cons ⟨rfl, h⟩ .nil)))
  refine ⟨_, (readsAs_object hmembers).parse hroom, ?_⟩
  rw [member?_ofMembers]
  rfl

/-! ## Gates -/

/-- A gate as it is read: its members are in the order of their keys. -/
def gateValue (gate : Gate) : Value :=
  .object [("enabled", .bool gate.enabled), ("gate-key", .text gate.key)]

theorem readsAs_gateJson (gate : Gate) : ReadsAs 1 (gateJson gate).print (gateValue gate) := by
  have hmembers : List.Forall₂ (MemberReadsAs 0)
      [("gate-key", .text gate.key), ("enabled", .bool gate.enabled)]
      [("gate-key", .text gate.key), ("enabled", .bool gate.enabled)] :=
    .cons ⟨rfl, readsAs_text 0 _⟩ (.cons ⟨rfl, readsAs_bool 0 _⟩ .nil)
  have hordered : ([("enabled", .bool gate.enabled), ("gate-key", .text gate.key)] :
      List (String × Value)).Pairwise fun a b => a.1 < b.1 := by
    simp only [List.pairwise_cons, List.mem_singleton, forall_eq, List.not_mem_nil, false_imp_iff,
      implies_true, List.Pairwise.nil, and_true]
    decide
  have hvalue := ofMembers_of_perm (List.Perm.swap _ _ []) hordered
  unfold gateValue
  rw [← hvalue]
  exact readsAs_object hmembers

theorem take_gateKey (gate : Gate) (seen : Option Bool) (rest : Input) :
    Gathered.take newGateShape.fields (none, seen, ()) "gate-key"
        (Ascii.colon :: (Utf8.bytes (Value.print (.text gate.key)) ++ rest)) =
      .ok ((some gate.key, seen, ()), rest) :=
  take_printed ⟨"gate-key", .text⟩ [⟨"enabled", .bool⟩] (seen, ()) gate.key rest

theorem take_enabled (gate : Gate) (seen : Option String) (rest : Input) :
    Gathered.take newGateShape.fields (seen, none, ()) "enabled"
        (Ascii.colon :: (Utf8.bytes (Value.print (.bool gate.enabled)) ++ rest)) =
      .ok ((seen, some gate.enabled, ()), rest) :=
  take_behind ⟨"gate-key", .text⟩ (by decide)
    (take_printed ⟨"enabled", .bool⟩ [] () gate.enabled rest) seen

/-- A gate is read as it is shown. -/
theorem parse_gateJson (gate : Gate) :
    newGateShape.parse (Utf8.bytes (gateJson gate).print) = .ok (gate.key, gate.enabled, ()) :=
  Shape.parse_print (.cons (take_gateKey gate none) (.cons (take_enabled gate _) (.nil _))) rfl

/-- A gate is read as it is printed by whoever has read it. -/
theorem parse_gateValue (gate : Gate) :
    newGateShape.parse (Utf8.bytes (gateValue gate).print) = .ok (gate.key, gate.enabled, ()) :=
  Shape.parse_print (.cons (take_enabled gate none) (.cons (take_gateKey gate _) (.nil _))) rfl

theorem readsAs_gates (gates : List Gate) :
    ReadsAs 2 (Value.print (.list (gates.map gateJson))) (.list (gates.map gateValue)) := by
  refine readsAs_list ?_
  rw [List.forall₂_map_left_iff, List.forall₂_map_right_iff, List.forall₂_same]
  exact fun gate _ => readsAs_gateJson gate

/-! ## Adding gates -/

/-- Whether a request adds a gate by its element of a listing, as it is shown there or as it is printed
by whoever has read it. -/
structure Request.Posts (peers : PeerList) (gate : Gate) (request : Request) : Prop where
  /-- It is admitted to the gates. -/
  reaches : request.Reaches peers .gates
  /-- It adds. -/
  method : request.method = .post
  /-- It has the element as its body. -/
  body : request.body = (gateJson gate).print.toUTF8 ∨
    request.body = (gateValue gate).print.toUTF8
  /-- The body is not too large. -/
  size : request.body.size ≤ maxBodySize

variable {peers : PeerList} {request : Request} {db : Database} {rows : Rows ByteArray}

/-- A gate with a new name is added. -/
theorem Request.Posts.answer {gate : Gate} (h : request.Posts peers gate)
    (hname : gate.key ≠ "") (hrows : Query.rows .gate db = .ok rows) (hnew : rows[gate.key]? = none) :
    request.answer peers db = (.success .null, db.put RecordKind.gate.table
      (.bytes (rows.insert gate.key (RecordKind.gate.encode gate)))) := by
  have hparse : newGateShape.parse request.body.data.toList = .ok (gate.key, gate.enabled, ()) := by
    rcases h.body with hbody | hbody
    · rw [hbody]
      exact parse_gateJson gate
    · rw [hbody]
      exact parse_gateValue gate
  have hmeans : Endpoint.gates.Means request.target.query request.body request.method
      (.createGate gate.key gate.enabled) := by
    rw [h.method]
    exact .createGate h.size hparse hname
  rw [h.reaches.answer hmeans, Operation.run_createGate_of_rows hrows hnew, h.method]
  rfl

/-- Gates with new and different names are all added, and the rows are then those from before and those
of the gates. The induction is on the requests. -/
theorem rows_of_posts {gates : List Gate} {posts : List Request}
    (h : List.Forall₂ (Request.Posts peers) gates posts)
    (hnames : ∀ gate ∈ gates, gate.key ≠ "") (hdistinct : gates.Pairwise fun a b => a.key ≠ b.key)
    (hrows : Query.rows .gate db = .ok rows) (hnew : ∀ gate ∈ gates, rows[gate.key]? = none) :
    (Request.answerAll peers posts db).1 = List.replicate posts.length (.success .null) ∧
      ∃ rows', Query.rows .gate (Request.answerAll peers posts db).2 = .ok rows' ∧
        ∀ key row, rows'[key]? = some row ↔ rows[key]? = some row ∨
          ∃ gate ∈ gates, gate.key = key ∧ RecordKind.gate.encode gate = row := by
  induction h generalizing db rows with
  | nil => exact ⟨rfl, rows, hrows, by simp⟩
  | @cons gate post gates posts hpost _ ih =>
    obtain ⟨hfirst, hdistinct⟩ := List.pairwise_cons.mp hdistinct
    have hfree : rows[gate.key]? = none := hnew gate List.mem_cons_self
    have hanswer := hpost.answer (hnames gate List.mem_cons_self) hrows hfree
    have hlookup (key : String) : (rows.insert gate.key (RecordKind.gate.encode gate))[key]? =
        if gate.key = key then some (RecordKind.gate.encode gate) else rows[key]? := by
      simp [Std.ExtTreeMap.getElem?_insert]
    -- the key that is taken now is none of those that follow
    have hstill : ∀ later ∈ gates,
        (rows.insert gate.key (RecordKind.gate.encode gate))[later.key]? = none := by
      intro later hmem
      rw [hlookup, if_neg (hfirst later hmem)]
      exact hnew later (List.mem_cons_of_mem gate hmem)
    obtain ⟨hanswers, rows', hrows', hentries⟩ :=
      ih (fun later hmem => hnames later (List.mem_cons_of_mem gate hmem)) hdistinct
        (Query.rows_put_same db .gate _) hstill
    rw [Request.answerAll_cons, hanswer]
    refine ⟨by rw [hanswers]; rfl, rows', hrows', fun key row => ?_⟩
    rw [hentries, hlookup]
    by_cases hkey : gate.key = key
    · subst hkey
      simp [hfree]
    · simp [hkey]

/-! ## Listing gates -/

/-- A listing shows the gates that the query lists. -/
theorem Request.Reaches.answer_listGates (h : request.Reaches peers .gates)
    (hmethod : request.method = .get) (db : Database) :
    request.answer peers db =
      (.ofOperation .listGates (Reply.gates <$> Query.list .gate db), db) := by
  have hmeans : Endpoint.gates.Means request.target.query request.body request.method .listGates := by
    rw [hmethod]
    exact .listGates rfl
  rw [h.answer hmeans, hmethod]
  rfl

theorem Endpoint.Means.ne_of_createGate {endpoint : Endpoint} {query : List UInt8} {body : ByteArray}
    {method : Method} {key : String} {enabled : Bool}
    (h : endpoint.Means query body method (.createGate key enabled)) : key ≠ "" := by
  cases h with
  | createGate _ _ hkey => exact hkey

/-- A gate that a request does not add does not come into being by it. -/
theorem Request.record?_unadded {key : String} (h : db.Intact) (hnone : db.record? .gate key = none)
    (hadds : ∀ enabled, request.decode peers ≠ .ok (.createGate key enabled)) :
    (request.answer peers db).2.record? .gate key = none := by
  cases hdecode : request.decode peers with
  | error refusal => rw [answer_of_refused hdecode, hnone]
  | ok op =>
    rw [answer_of_decode hdecode]
    refine Operation.record?_gate_eq_none h.gatesInPlace hnone ?_
    rintro enabled rfl
    exact hadds enabled hdecode

theorem record?_unadded_answerAll {requests : List Request} {key : String}
    (harrive : ∀ request ∈ requests, request.Arrives)
    (hadds : ∀ request ∈ requests, ∀ enabled, request.decode peers ≠ .ok (.createGate key enabled))
    (h : Served db) (hnone : db.record? .gate key = none) :
    (Request.answerAll peers requests db).2.record? .gate key = none := by
  induction requests generalizing db with
  | nil => exact hnone
  | cons request requests ih =>
    rw [Request.answerAll_cons]
    exact ih (fun later hmem => harrive later (List.mem_cons_of_mem request hmem))
      (fun later hmem => hadds later (List.mem_cons_of_mem request hmem))
      (h.answer peers (harrive request List.mem_cons_self))
      (Request.record?_unadded h.intact hnone (hadds request List.mem_cons_self))

/-- No gate without a name comes into being. -/
theorem record?_unnamed_answerAll {requests : List Request}
    (harrive : ∀ request ∈ requests, request.Arrives) (h : Served db)
    (hnone : db.record? .gate "" = none) :
    (Request.answerAll peers requests db).2.record? .gate "" = none := by
  refine record?_unadded_answerAll harrive (fun request _ enabled hdecode => ?_) h hnone
  obtain ⟨endpoint, -, -, hmeans⟩ := Request.means_of_decode hdecode
  exact hmeans.ne_of_createGate rfl

/-- The rows of gates are those of the gates that are listed. -/
theorem getElem?_gates (h : db.Intact) (key : String) (row : ByteArray) :
    (db.rowsOf .gate)[key]? = some row ↔
      ∃ gate ∈ db.records .gate, gate.key = key ∧ RecordKind.gate.encode gate = row := by
  constructor
  · intro hrow
    obtain ⟨gate, hgate, hkey, -, hencode⟩ := h.decode_row hrow
    refine ⟨gate, h.mem_records.mpr ?_, hkey, hencode⟩
    rw [hkey, hgate]
  · rintro ⟨gate, hmem, rfl, rfl⟩
    exact (h.of_record? (h.mem_records.mp hmem)).2.2

/-- A listing is the same wherever its elements have been added to a registry without gates. -/
theorem restored_listing {left : Database} (hleft : left.Intact)
    (hunnamed : left.record? .gate "" = none) {listing : Request}
    (hlisting : listing.Reaches peers .gates) (hmethod : listing.method = .get) {peers' : PeerList}
    {db : Database} {posts sent : List Request} {again : Request}
    (hempty : Query.rows .gate db = .ok ∅)
    (hposts : List.Forall₂ (Request.Posts peers') (left.records .gate) posts) (hsent : sent.Perm posts)
    (hagain : again.Reaches peers' .gates) (hagainMethod : again.method = .get) :
    (Request.answerAll peers' sent db).1 = List.replicate sent.length (.success .null) ∧
      (again.answer peers' (Request.answerAll peers' sent db).2).1 = (listing.answer peers left).1 := by
  -- the gates in the order in which they are posted
  obtain ⟨gates, hgates, hperm⟩ := List.perm_comp_forall₂ hsent hposts.flip
  have hnames : ∀ gate ∈ gates, gate.key ≠ "" := by
    intro gate hmem hname
    have hrecord := hleft.mem_records.mp (hperm.mem_iff.mp hmem)
    rw [show RecordKind.gate.key gate = "" from hname, hunnamed] at hrecord
    cases hrecord
  have hdistinct : gates.Pairwise fun a b => a.key ≠ b.key := by
    refine (hperm.pairwise_iff fun h => Ne.symm h).mpr ?_
    exact (hleft.records_ascending .gate).imp fun h => ne_of_lt h
  obtain ⟨hanswers, rows, hrows, hentries⟩ := rows_of_posts hgates.flip hnames hdistinct hempty
    fun _ _ => Std.ExtTreeMap.getElem?_empty
  -- the order is lost in the rows: a table is given by what it holds under each key
  have hsame : rows = left.rowsOf .gate := by
    refine Std.ExtTreeMap.ext_getElem? fun key => Option.ext fun row => ?_
    rw [hentries, getElem?_gates hleft, Std.ExtTreeMap.getElem?_empty]
    simp only [reduceCtorEq, false_or, hperm.mem_iff]
  have hquery : Query.list .gate (Request.answerAll peers' sent db).2 = Query.list .gate left := by
    refine Query.list_congr ?_
    rw [hrows, hsame, hleft.query_rows .gate]
  refine ⟨hanswers, ?_⟩
  rw [hagain.answer_listGates hagainMethod, hlisting.answer_listGates hmethod, hquery]

/-! ## Configuration values -/

section

variable {segment : List UInt8} {key value : String} (hname : Names segment key)
  (hreaches : request.Reaches peers (.config segment))

include hname hreaches

theorem Request.Reaches.decode_setConfig (hmethod : request.method = .put)
    (hbody : request.body.size ≤ maxBodySize) (hvalue : Utf8.decode request.body = .ok value) :
    request.decode peers = .ok (.setConfig key value) := by
  have hmeans : (Endpoint.config segment).Means request.target.query request.body request.method
      (.setConfig key value) := by
    rw [hmethod]
    exact .setConfig (hname.readSegment "key") hbody hvalue
  rw [hreaches.decode, hmeans.decode]

/-- A value that is not text is refused. -/
theorem Request.Reaches.answer_valueNotText (hmethod : request.method = .put)
    (hbody : request.body.size ≤ maxBodySize) {fault : Utf8.Fault}
    (hvalue : Utf8.decode request.body = .error fault) (db : Database) :
    request.answer peers db =
      (.failure 400 (ClusterError.invalidInput (.valueNotText fault)).message, db) := by
  have hread : readBody request.body = .ok request.body := if_neg (Nat.not_lt.mpr hbody)
  have hdecode : request.decode peers = .error (.malformed (.valueNotText fault)) := by
    rw [hreaches.decode, hmethod]
    unfold Endpoint.decode
    dsimp only
    rw [hname.readSegment "key", hread]
    simp only [bind, Except.bind]
    rw [Http.readValue, hvalue]
  rw [answer_of_refused hdecode, hmethod]
  rfl

theorem Request.Reaches.answer_getConfig (hmethod : request.method = .get)
    (hrecord : db.record? .config key = some ⟨key, value⟩) :
    request.answer peers db = (.success (.text value), db) := by
  have hmeans : (Endpoint.config segment).Means request.target.query request.body request.method
      (.getConfig key) := by
    rw [hmethod]
    exact .getConfig rfl (hname.readSegment "key")
  have hrun : (Operation.getConfig key).run db = (.ok (.value value), db) := by
    show (Reply.value <$> ((·.value) <$> Query.get .config key : Query String) db, db) = _
    rw [Query.map_run, Query.get_eq_ok_iff.mpr hrecord]
    rfl
  rw [hreaches.answer hmeans, hrun, hmethod]
  rfl

/-- A value that is written is kept as it is. -/
theorem Request.Reaches.answer_setConfig (harrives : request.Arrives) (hmethod : request.method = .put)
    (hbody : request.body.size ≤ maxBodySize) (hvalue : Utf8.decode request.body = .ok value)
    (hrows : Query.rows .config db = .ok rows) :
    (request.answer peers db).1 = .success .null ∧
      (request.answer peers db).2.record? .config key = some ⟨key, value⟩ := by
  have hdecode := hreaches.decode_setConfig hname hmethod hbody hvalue
  have hfits : RecordKind.config.Fits ⟨key, value⟩ := Request.fits_of_decode harrives hdecode
  rw [answer_of_decode hdecode, Operation.run_setConfig_of_rows hrows, hmethod]
  exact ⟨rfl, (Database.writes_insert hrows hfits).record⟩

end

/-! ## The wire -/

theorem utf8_decode_of_forall_ne {bytes : ByteArray} (h : ∀ text : String, bytes ≠ text.toUTF8) :
    ∃ fault, Utf8.decode bytes = .error fault := by
  cases hdecode : Utf8.decode bytes with
  | error fault => exact ⟨fault, rfl⟩
  | ok text => exact absurd (Utf8.toUTF8_of_decode hdecode).symm (h text)

/--
Whatever has been asked of a new service, its listing of gates is read as the gates of its registry.
Where a registry has no gates, the elements of the listing can be posted one by one in any order, each
as it is shown or as it is printed by whoever has read it, within the limit for bodies: every one is
accepted, and the listing is the same to the byte. Every key of the configuration has a target. A text
that is written under a key is read there as just this text, and what is not text is refused without a
change.
-/
theorem values_survive_the_wire :
    (∀ (peers : PeerList) (history : List Request) (listing : Request),
      (∀ request ∈ history, request.Arrives) → listing.Reaches peers .gates → listing.method = .get →
      let left := (Request.answerAll peers history Schema.fresh).2
      let listed := (listing.answer peers left).1
      ∃ gates, Query.list .gate left = .ok gates ∧ listed = .success (.list (gates.map gateJson)) ∧
        (∃ envelope, Value.parse listed.body.data.toList = .ok envelope ∧
          envelope.member? "metadata" = some (.list (gates.map gateValue))) ∧
        ∀ (peers' : PeerList) (db : Database) (posts sent : List Request) (again : Request),
          Query.rows .gate db = .ok ∅ → List.Forall₂ (Request.Posts peers') gates posts →
          sent.Perm posts → again.Reaches peers' .gates → again.method = .get →
          (Request.answerAll peers' sent db).1 = List.replicate sent.length (.success .null) ∧
            (again.answer peers' (Request.answerAll peers' sent db).2).1 = listed) ∧
    (∀ key ≠ "", (memberUri "config" key).utf8ByteSize ≤ maxTargetLength →
      ∃ target segment, Target.ofText? (memberUri "config" key) = some target ∧
        Endpoint.ofPath? target.path = some (.config segment) ∧ Names segment key) ∧
    ∀ (peers : PeerList) (db : Database) (rows : Rows ByteArray) (segment : List UInt8) (key : String)
      (writing : Request), Query.rows .config db = .ok rows → Names segment key → writing.Arrives →
      writing.Reaches peers (.config segment) → writing.method = .put →
      writing.body.size ≤ maxBodySize →
      (∀ value : String, writing.body = value.toUTF8 →
        (writing.answer peers db).1 = .success .null ∧
        ∀ (peers' : PeerList) (segment' : List UInt8) (reading : Request), Names segment' key →
          reading.Reaches peers' (.config segment') → reading.method = .get →
          let shown := (reading.answer peers' (writing.answer peers db).2).1
          shown.status = 200 ∧ ∃ envelope, Value.parse shown.body.data.toList = .ok envelope ∧
            envelope.member? "metadata" = some (.text value)) ∧
      ((∀ value : String, writing.body ≠ value.toUTF8) →
        ∃ message, writing.answer peers db = (.failure 400 message, db)) := by
  refine ⟨?_, ?_, ?_⟩
  · intro peers history listing harrive hlisting hmethod left listed
    have hserved : Served left := Served.fresh.answerAll peers harrive
    have hunnamed : left.record? .gate "" = none :=
      record?_unnamed_answerAll harrive Served.fresh (Schema.record?_fresh .gate "")
    have hlist := hserved.intact.query_list .gate
    have hlisted : listed = .success (.list ((left.records .gate).map gateJson)) := by
      show (listing.answer peers left).1 = _
      rw [hlisting.answer_listGates hmethod, hlist]
      rfl
    refine ⟨left.records .gate, hlist, hlisted, ?_, ?_⟩
    · rw [hlisted]
      exact Response.parse_success (readsAs_gates _) (by decide)
    · intro peers' db posts sent again hempty hposts hsent hagain hagainMethod
      exact restored_listing hserved.intact hunnamed hlisting hmethod hempty hposts hsent hagain
        hagainMethod
  · intro key hkey hlength
    have hbytes : ∀ b ∈ Utf8.bytes "config", isPathByte b := List.all_eq_true.mp (by decide)
    refine ⟨_, _, ofText?_memberUri hbytes hlength, ?_, names_percentEncode hkey⟩
    rw [ofPath?_memberPath (by decide) hkey]
    rfl
  · intro peers db rows segment key writing hrows hname harrives hreaches hmethod hbody
    refine ⟨?_, ?_⟩
    · intro value hvalue
      have hdecode : Utf8.decode writing.body = .ok value := by
        rw [hvalue]
        exact RowForm.decode_toUTF8 value
      obtain ⟨hanswer, hrecord⟩ :=
        hreaches.answer_setConfig hname harrives hmethod hbody hdecode hrows
      refine ⟨hanswer, ?_⟩
      intro peers' segment' reading hname' hreaches' hmethod' shown
      have hshown : shown = .success (.text value) :=
        congrArg Prod.fst (hreaches'.answer_getConfig hname' hmethod' hrecord)
      rw [hshown]
      exact ⟨rfl, Response.parse_success (readsAs_text 0 value) (by decide)⟩
    · intro hvalue
      obtain ⟨fault, hdecode⟩ := utf8_decode_of_forall_ne hvalue
      exact ⟨_, hreaches.answer_valueNotText hname hmethod hbody hdecode db⟩

/-- A text with a quote, a backslash, a control character, a line break and a character beyond ASCII. -/
def awkwardText : String := "a\"\\\x01\né"

/--
Two gates, one of them with an awkward key, are listed and posted to a new service in the opposite
order, one as it is printed by a reader. The new service lists the two gates as well. The awkward text
comes back as a configuration value.
-/
theorem values_survive_the_wire_awkward :
    let gates : List Gate := [⟨awkwardText, true⟩, ⟨"b", false⟩]
    let posting (value : Value) := fromSocket .post "/1.0/feature-gates" value.print
    let listing := fromSocket .get "/1.0/feature-gates" ""
    let left := (Request.answerAll ⟨[]⟩ (gates.map (posting ∘ gateJson)) Schema.fresh).2
    let sent := [posting (gateValue ⟨"b", false⟩), posting (gateJson ⟨awkwardText, true⟩)]
    let restored := Request.answerAll ⟨[]⟩ sent Schema.fresh
    let writing := fromSocket .put "/1.0/config/k" awkwardText
    let shown := ((fromSocket .get "/1.0/config/k" "").answer ⟨[]⟩
      (writing.answer ⟨[]⟩ Schema.fresh).2).1
    ((listing.answer ⟨[]⟩ left).1 = .success (.list (gates.map gateJson)) ∧
      restored.1 = List.replicate 2 (.success .null) ∧
      (listing.answer ⟨[]⟩ restored.2).1 = (listing.answer ⟨[]⟩ left).1) ∧
    ∃ envelope, Value.parse shown.body.data.toList = .ok envelope ∧
      envelope.member? "metadata" = some (.text awkwardText) := by
  intro gates posting listing left sent restored writing shown
  obtain ⟨hgates, -, hvalues⟩ := values_survive_the_wire
  have hrows (kind : RecordKind) : Query.rows kind Schema.fresh = .ok ∅ := by
    rw [Schema.fresh_intact.query_rows kind, Schema.rowsOf_fresh]
  refine ⟨?_, ?_⟩
  · have htarget : Target.ofText? "/1.0/feature-gates" = some listing.target := by decide +kernel
    have harrive : ∀ request ∈ gates.map (posting ∘ gateJson), request.Arrives := by
      intro request hmem
      obtain ⟨gate, -, rfl⟩ := List.mem_map.mp hmem
      exact ⟨"/1.0/feature-gates", htarget⟩
    have hlisting : listing.Reaches ⟨[]⟩ .gates := ⟨by decide +kernel, by decide +kernel⟩
    have hreaches (value : Value) : (posting value).Reaches ⟨[]⟩ .gates :=
      ⟨hlisting.path, hlisting.admitted⟩
    obtain ⟨gates', hlist, hshows, -, hrestored⟩ :=
      hgates ⟨[]⟩ (gates.map (posting ∘ gateJson)) listing harrive hlisting rfl
    have hlisted : Query.list .gate left = .ok gates := by decide +kernel
    obtain rfl : gates' = gates := Except.ok.inj (hlist.symm.trans hlisted)
    refine ⟨hshows, hrestored ⟨[]⟩ Schema.fresh
      [posting (gateJson ⟨awkwardText, true⟩), posting (gateValue ⟨"b", false⟩)] sent listing
      (hrows .gate) (.cons ?_ (.cons ?_ .nil)) (List.Perm.swap _ _ []) hlisting rfl⟩
    · exact ⟨hreaches _, rfl, .inl rfl, by decide +kernel⟩
    · exact ⟨hreaches _, rfl, .inr rfl, by decide +kernel⟩
  · have hnames : Names (Utf8.bytes "k") "k" := ⟨by decide +kernel, by decide⟩
    obtain ⟨hwritten, -⟩ := hvalues ⟨[]⟩ Schema.fresh ∅ (Utf8.bytes "k") "k" writing (hrows .config)
      hnames ⟨"/1.0/config/k", by decide +kernel⟩ ⟨by decide +kernel, by decide +kernel⟩ rfl
      (by decide +kernel)
    obtain ⟨-, hread⟩ := hwritten awkwardText rfl
    exact (hread ⟨[]⟩ (Utf8.bytes "k") (fromSocket .get "/1.0/config/k" "") hnames
      ⟨by decide +kernel, by decide +kernel⟩ rfl).2

end Http

end ControlPlane
