import ControlPlane.Proofs.Http.Decoding
import ControlPlane.Proofs.Service.OperationScope

/-!
# Access classes are kept apart

A request whose class is not admitted where it asks is refused before anything else is looked at, so
it might as well not have been made (`Request.answerAll_admitted`), and the refusal tells nothing of
the store. A request from the host itself is admitted to states and locks alone, so what it is
answered depends on their tables only, and it leaves all others as they are
(`Request.answerAll_agree`, `Request.answerAll_outside`).
-/

namespace ControlPlane

namespace Http

variable {peers : PeerList} {request : Request} {db : Database}

/-! ## Refused requests -/

/-- Whether an endpoint is open to a class: states and locks are open to all but strangers, gates and
the configuration to the control socket and to peers. -/
def Endpoint.isOpenTo (access : Access) : Endpoint → Bool
  | .states | .state _ | .locks | .lock _ | .unlock _ => access ≠ .untrusted
  | .gates | .gate _ | .config _ => access = .socket ∨ access = .peer

theorem Endpoint.admits_eq (endpoint : Endpoint) (access : Access) :
    endpoint.group.admits access = endpoint.isOpenTo access := by
  cases endpoint <;> cases access <;> rfl

/-- Whether a request is not refused for its class: the endpoint that its path names is open to it,
or there is no such endpoint. -/
def Request.isAdmitted (peers : PeerList) (request : Request) : Bool :=
  match Endpoint.ofPath? request.target.path with
  | none => true
  | some endpoint => endpoint.isOpenTo (peers.access request.tag request.remote)

/-- An endpoint without the segment that names its member. -/
def Endpoint.route : Endpoint → Endpoint
  | .state _ => .state []
  | .lock _ => .lock []
  | .unlock _ => .unlock []
  | .gate _ => .gate []
  | .config _ => .config []
  | endpoint => endpoint

theorem Endpoint.methods_route (endpoint : Endpoint) : endpoint.route.methods = endpoint.methods := by
  cases endpoint <;> rfl

/-- The answer to a request that an endpoint refuses for its class. -/
def Endpoint.refusal (endpoint : Endpoint) (method : Method) : Response :=
  (Refusal.forbidden (if endpoint.methods.contains method then none else some endpoint.methods)).response
    |>.sentFor method

theorem Endpoint.refusal_route (endpoint : Endpoint) (method : Method) :
    endpoint.route.refusal method = endpoint.refusal method := by
  rw [refusal, endpoint.methods_route, refusal]

theorem Endpoint.status_refusal (endpoint : Endpoint) (method : Method) :
    (endpoint.refusal method).status = 403 := by
  rw [refusal, Response.status_sentFor]
  split <;> rfl

/-- A refused request is answered by what it names and how, and the store is not touched. -/
theorem Request.answer_refused (h : request.isAdmitted peers = false) :
    ∃ endpoint, Endpoint.ofPath? request.target.path = some endpoint ∧
      ∀ db, request.answer peers db = (endpoint.refusal request.method, db) := by
  unfold isAdmitted at h
  cases hpath : Endpoint.ofPath? request.target.path with
  | none =>
    rw [hpath] at h
    cases h
  | some endpoint =>
    rw [hpath] at h
    refine ⟨endpoint, rfl, fun db => ?_⟩
    have hdecode : request.decode peers = .error (.forbidden
        (if endpoint.methods.contains request.method then none else some endpoint.methods)) := by
      unfold decode
      rw [hpath]
      dsimp only at h ⊢
      rw [endpoint.admits_eq, h]
      rfl
    rw [answer, hdecode]
    rfl

/-- A request without a class of its own and without an address is refused everywhere. -/
theorem Request.isAdmitted_anonymous (htag : request.tag = none) (hremote : request.remote = none) :
    request.isAdmitted peers = (Endpoint.ofPath? request.target.path).isNone := by
  unfold isAdmitted
  rw [htag, hremote]
  cases Endpoint.ofPath? request.target.path with
  | none => rfl
  | some endpoint => cases endpoint <;> rfl

/-! ## Runs without the refused requests -/

/-- The answers to the requests that are not refused for their class, in their order. -/
def Request.admittedAnswers (peers : PeerList) (requests : List Request) (db : Database) :
    List Response :=
  ((requests.zip (answerAll peers requests db).1).filter (·.1.isAdmitted peers)).map Prod.snd

theorem Request.admittedAnswers_cons (request : Request) (requests : List Request) (db : Database) :
    admittedAnswers peers (request :: requests) db =
      if request.isAdmitted peers then
        (request.answer peers db).1 :: admittedAnswers peers requests (request.answer peers db).2
      else admittedAnswers peers requests (request.answer peers db).2 := by
  unfold admittedAnswers
  rw [answerAll, List.zip_cons_cons, List.filter_cons]
  dsimp only
  split <;> rfl

/-- Requests that are refused for their class change neither the store nor another answer. -/
theorem Request.answerAll_admitted (requests : List Request) :
    ∀ db, answerAll peers (requests.filter (·.isAdmitted peers)) db =
      (admittedAnswers peers requests db, (answerAll peers requests db).2) := by
  induction requests with
  | nil => exact fun db => rfl
  | cons request requests ih =>
    intro db
    rw [admittedAnswers_cons, List.filter_cons]
    by_cases h : request.isAdmitted peers = true
    · rw [if_pos h, if_pos h, answerAll_cons, ih (request.answer peers db).2, answerAll_cons]
    · obtain ⟨endpoint, -, hanswer⟩ := answer_refused (Bool.eq_false_iff.mpr h)
      rw [if_neg h, if_neg h, ih db, answerAll_cons, hanswer db]

/-! ## Requests from the host -/

/-- Whether a request comes from the host itself. -/
def Request.IsLocal (peers : PeerList) (request : Request) : Prop :=
  peers.access request.tag request.remote = .loopback

/-- What is asked for at an endpoint of states or locks is about their tables alone. -/
theorem Endpoint.Means.touches {endpoint : Endpoint} {method : Method} {query : List UInt8}
    {body : ByteArray} {op : Operation} (h : endpoint.Means query body method op)
    (hgroup : endpoint.group = .documents) : op.touches ⊆ [.state, .lock] := by
  cases h with
  | listStates | getState | deleteState => exact List.cons_subset_cons _ (List.nil_subset _)
  | putState =>
    intro kind hkind
    simpa [Operation.touches, or_comm] using hkind
  | listLocks | getLock | acquire | release => exact List.subset_cons_self _ _
  | listGates | getGate | createGate | updateGate | deleteGate => cases hgroup
  | getConfig | setConfig | deleteConfig => cases hgroup

theorem Request.touches_of_local {op : Operation} (hlocal : request.IsLocal peers)
    (h : request.decode peers = .ok op) : op.touches ⊆ [.state, .lock] := by
  obtain ⟨endpoint, -, hadmits, hmeans⟩ := means_of_decode h
  rw [hlocal] at hadmits
  have hgroup : endpoint.group = .documents := by
    cases hg : endpoint.group with
    | documents => rfl
    | cluster =>
      rw [hg] at hadmits
      cases hadmits
  exact hmeans.touches hgroup

theorem Request.answer_outside (hlocal : request.IsLocal peers) (db : Database) :
    db.Outside [.state, .lock] (request.answer peers db).2 := by
  unfold answer
  cases hdecode : request.decode peers with
  | error refusal => exact fun _ _ => rfl
  | ok op => exact Operation.run_outside (touches_of_local hlocal hdecode) db

theorem Request.answerAll_agree {requests : List Request}
    (hlocal : ∀ request ∈ requests, request.IsLocal peers) {db db' : Database}
    (h : db.Agree [.state, .lock] db') :
    (answerAll peers requests db).1 = (answerAll peers requests db').1 ∧
      (answerAll peers requests db).2.Agree [.state, .lock] (answerAll peers requests db').2 := by
  refine answerAll_respects (fun request hmem op hdecode => ?_) h
  refine op.kept_of_touches fun kind hkind => ?_
  exact Database.agree_keepsRows (touches_of_local (hlocal request hmem) hdecode hkind)

theorem Request.answerAll_outside {requests : List Request}
    (hlocal : ∀ request ∈ requests, request.IsLocal peers) :
    ∀ db : Database, db.Outside [.state, .lock] (answerAll peers requests db).2 := by
  induction requests with
  | nil => exact fun db name _ => rfl
  | cons request requests ih =>
    intro db name hname
    have hfirst := answer_outside (hlocal request List.mem_cons_self) db name hname
    have hrest := ih (fun r hr => hlocal r (List.mem_cons_of_mem request hr))
      (request.answer peers db).2 name hname
    exact hrest.trans hfirst

/-! ## Every run -/

/--
Leaving the requests that are refused for their class out of a run changes neither the store at its
end nor the answer to any other request. A refused request is answered by status 403, and in the same
way whatever the store holds and whatever segment, query and body the request has. A request without a
class of its own and without an address is refused wherever its path names something. Requests from
the host are answered in the same way on databases that agree on states and locks, and the tables of
gates and of the configuration stay as they are.
-/
theorem access_isolation (peers : PeerList) :
    (∀ (requests : List Request) (db : Database),
      let all := Request.answerAll peers requests db
      Request.answerAll peers (requests.filter (·.isAdmitted peers)) db =
        (((requests.zip all.1).filter (·.1.isAdmitted peers)).map Prod.snd, all.2)) ∧
    (∀ request request' : Request, request.isAdmitted peers = false →
      request'.isAdmitted peers = false → request'.method = request.method →
      (Endpoint.ofPath? request'.target.path).map Endpoint.route =
        (Endpoint.ofPath? request.target.path).map Endpoint.route →
      ∀ db db' : Database, (request.answer peers db).1.status = 403 ∧
        (request'.answer peers db').1 = (request.answer peers db).1) ∧
    (∀ request : Request, request.tag = none → request.remote = none →
      request.isAdmitted peers = (Endpoint.ofPath? request.target.path).isNone) ∧
    ∀ requests : List Request, (∀ request ∈ requests, request.IsLocal peers) →
      ∀ db db' : Database, db.Agree [.state, .lock] db' →
        (Request.answerAll peers requests db).1 = (Request.answerAll peers requests db').1 ∧
        ∀ kind : RecordKind, kind = .gate ∨ kind = .config →
          (Request.answerAll peers requests db).2.tables[kind.table]? = db.tables[kind.table]? ∧
          (Request.answerAll peers requests db').2.tables[kind.table]? = db'.tables[kind.table]? := by
  refine ⟨Request.answerAll_admitted, ?_, fun _ => Request.isAdmitted_anonymous, ?_⟩
  · intro request request' h h' hmethod hroute db db'
    obtain ⟨endpoint, hpath, hanswer⟩ := Request.answer_refused h
    obtain ⟨endpoint', hpath', hanswer'⟩ := Request.answer_refused h'
    rw [hpath, hpath', Option.map_some, Option.map_some, Option.some.injEq] at hroute
    rw [hanswer db, hanswer' db']
    refine ⟨endpoint.status_refusal request.method, ?_⟩
    dsimp only
    rw [← endpoint'.refusal_route, hroute, endpoint.refusal_route, hmethod]
  · intro requests hlocal db db' hagree
    refine ⟨(Request.answerAll_agree hlocal hagree).1, fun kind hkind => ?_⟩
    have hname : ∀ kind' ∈ [RecordKind.state, .lock], kind.table ≠ kind'.table := by
      rcases hkind with rfl | rfl <;> decide
    exact ⟨Request.answerAll_outside hlocal db _ hname, Request.answerAll_outside hlocal db' _ hname⟩

/-- A request over the loopback device. -/
def fromHost (method : Method) (path body : String) : Request :=
  ⟨method, ⟨path.toUTF8.data.toList, []⟩, body.toUTF8, some .loopback, none⟩

/-- A request without a class and without an address. -/
def fromNowhere (method : Method) (path body : String) : Request :=
  ⟨method, ⟨path.toUTF8.data.toList, []⟩, body.toUTF8, none, none⟩

/-- A stranger writes no state, and neither a stranger nor the host itself finds out how the cluster
was deployed. -/
theorem access_isolation_deployment :
    let peers : PeerList := ⟨[]⟩
    let deployed := Schema.fresh.keep .config ⟨ClusterConfig.deploymentType, ClusterConfig.selfManaged⟩
    let stranger := fromNowhere .put "/1.0/state/plan" "[]"
    let snooping := fromHost .get "/1.0/config/deployment.type" ""
    let reading := fromHost .get "/1.0/state/plan" ""
    (Request.answerAll peers [reading] deployed).2 =
      (Request.answerAll peers [stranger, snooping, reading] deployed).2 ∧
    ((fromNowhere .get "/1.0/config/other" "x").answer peers Schema.fresh).1 =
      (snooping.answer peers deployed).1 ∧
    (Request.answerAll peers [fromHost .put "/1.0/state/plan" "[]", snooping, reading] deployed).1 =
      (Request.answerAll peers [fromHost .put "/1.0/state/plan" "[]", snooping, reading]
        Schema.fresh).1 := by
  intro peers deployed stranger snooping reading
  obtain ⟨hleftOut, hrefused, -, hlocal⟩ := access_isolation peers
  refine ⟨?_, ?_, ?_⟩
  · have hkept : [stranger, snooping, reading].filter (·.isAdmitted peers) = [reading] := by
      decide +kernel
    have hrun := hleftOut [stranger, snooping, reading] deployed
    rw [hkept] at hrun
    dsimp only at hrun
    rw [hrun]
  · exact (hrefused snooping (fromNowhere .get "/1.0/config/other" "x") (by decide +kernel)
      (by decide +kernel) rfl (by decide +kernel) deployed Schema.fresh).2
  · refine (hlocal _ ?_ deployed Schema.fresh ?_).1
    · intro request hr
      simp only [List.mem_cons, List.not_mem_nil, or_false] at hr
      rcases hr with rfl | rfl | rfl <;> rfl
    · refine Database.Agree.of_tables fun kind hkind => ?_
      have hne : RecordKind.config.table ≠ kind.table := by
        simp only [List.mem_cons, List.not_mem_nil, or_false] at hkind
        rcases hkind with rfl | rfl <;> decide
      exact (Database.tables_put _ _ _ _).trans (if_neg hne)

end Http

end ControlPlane
