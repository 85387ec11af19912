import ControlPlane.Proofs.Http.DecodedFits
import ControlPlane.Proofs.Http.RequestEffect
import ControlPlane.Proofs.Http.SerialOrder
import ControlPlane.Proofs.Service.LockLifeCycle
import ControlPlane.Proofs.Service.Subjects

/-!
# Requests at the same time are as good as one after another

Requests whose steps interleave in any way get the responses, and leave the store, of the same requests
answered one after another, in an order that respects real time
(`concurrent_requests_are_linearizable`). So what holds of requests one after another holds of them all
the same: a lock has one holder at a time, nobody else writes the state meanwhile, and a gate that was
removed does not come back by being switched.
-/

namespace ControlPlane

namespace Http

namespace Server

/-- The operation that the request with a number asks for. -/
def asks (peers : PeerList) (server : Server) (id : Nat) : Option Operation :=
  (server.request? id).bind fun request => (request.decode peers).toOption

/-- Whether the request with a number has been settled on with status 200. -/
def Accepted (server : Server) (id : Nat) : Prop :=
  ∃ response, server.response? id = some response ∧ response.status = 200

variable {peers : PeerList} {server : Server} {db db' : Database} {op op' : Operation}
  {before between after ids : List Nat} {i j id : Nat}

theorem asks_of_request {request : Request} (hrequest : server.request? id = some request)
    (hop : server.asks peers id = some op) : request.decode peers = .ok op := by
  rw [asks, hrequest, Option.bind_some] at hop
  cases hdecode : request.decode peers with
  | error refusal =>
    rw [hdecode] at hop
    cases hop
  | ok op' =>
    rw [hdecode] at hop
    cases hop
    rfl

/-! ## Along the serial order -/

/-- What every request that is accepted keeps is kept, for the others leave the store as it is. -/
theorem Serves.invariant (h : Serves peers server db ids db') {P : Database → Prop} (hP : P db)
    (hkeep : ∀ id ∈ ids, server.Accepted id → ∀ op, server.asks peers id = some op →
      ∀ db, P db → P (op.run db).2) : P db' := by
  induction h with
  | nil => exact hP
  | @cons db db' id ids request hrequest hresponse _ ih =>
    refine ih ?_ fun id' hmem => hkeep id' (List.mem_cons_of_mem id hmem)
    by_cases hstatus : (request.answer peers db).1.status = 200
    · cases hdecode : request.decode peers with
      | error refusal =>
        rw [Request.answer_of_refused hdecode]
        exact hP
      | ok op =>
        have hop : server.asks peers id = some op := by
          rw [asks, hrequest, Option.bind_some, hdecode]
          rfl
        rw [Request.answer_of_decode hdecode]
        exact hkeep id List.mem_cons_self ⟨_, hresponse, hstatus⟩ op hop db hP
    · rw [Request.answer_unchanged (Or.inl hstatus)]
      exact hP

/-- A request that is accepted finds a database on which its operation succeeds. -/
theorem Serves.accepted (h : Serves peers server db (id :: ids) db')
    (hop : server.asks peers id = some op) (haccepted : server.Accepted id) :
    (∃ reply, (op.run db).1 = .ok reply) ∧ Serves peers server (op.run db).2 ids db' := by
  cases h with
  | @cons _ _ _ _ request hrequest hresponse hrest =>
    obtain ⟨response, hresponse', hstatus⟩ := haccepted
    have hanswer := Request.answer_of_decode (asks_of_request hrequest hop) db
    rw [hanswer] at hresponse hrest
    rw [hresponse] at hresponse'
    cases hresponse'
    rw [Response.status_sentFor] at hstatus
    refine ⟨?_, hrest⟩
    cases hresult : (op.run db).1 with
    | ok reply => exact ⟨reply, rfl⟩
    | error e =>
      rw [hresult] at hstatus
      exact absurd hstatus (Response.status_ofError e)

/-- Two requests that are accepted one after the other, and what becomes of the database between them. -/
theorem Serves.accepted_pair (h : Serves peers server db (before ++ i :: between ++ j :: after) db')
    (hi : server.Accepted i) (hj : server.Accepted j) (hop : server.asks peers i = some op)
    (hop' : server.asks peers j = some op') :
    ∃ db₁ db₂, Serves peers server db before db₁ ∧ (∃ reply, (op.run db₁).1 = .ok reply) ∧
      Serves peers server (op.run db₁).2 between db₂ ∧ ∃ reply, (op'.run db₂).1 = .ok reply := by
  rw [List.append_assoc] at h
  obtain ⟨db₁, hbefore, h⟩ := h.of_append
  obtain ⟨hfirst, h⟩ := Serves.accepted h hop hi
  obtain ⟨db₂, hbetween, h⟩ := h.of_append
  exact ⟨db₁, db₂, hbefore, hfirst, hbetween, (Serves.accepted h hop' hj).1⟩

/-! ## Locks and gates -/

section Fits

variable (hfits : ∀ id op, server.asks peers id = some op → op.Fits)

include hfits

theorem Serves.intact (h : Serves peers server db ids db') (hdb : db.Intact) : db'.Intact :=
  h.invariant hdb fun id _ _ op hop _ hP => Operation.run_intact hP (hfits id op hop)

/-- A lock that is taken is still held unless it has been given back. -/
theorem Serves.held_or_released (h : Serves peers server db ids db') (hdb : db.Intact) {name : String}
    {lock : Lock} (hheld : db.record? .lock name = some lock) :
    db'.record? .lock name = some lock ∨
      ∃ k ∈ ids, server.Accepted k ∧ server.asks peers k = some (.release name lock.token) := by
  by_cases hreleased : ∃ k ∈ ids, server.Accepted k ∧
      server.asks peers k = some (.release name lock.token)
  · exact Or.inr hreleased
  · left
    refine (h.invariant (P := fun db => db.Intact ∧ db.record? .lock name = some lock)
      ⟨hdb, hheld⟩ ?_).2
    rintro k hmem haccepted op hop db ⟨hdb, hheld⟩
    refine ⟨Operation.run_intact hdb (hfits k op hop), ?_⟩
    rcases (Operation.lockStep_of_intact hdb (hfits k op hop) name).stays lock hheld with
      hstays | ⟨-, rfl⟩
    · exact hstays
    · exact absurd ⟨k, hmem, haccepted, hop⟩ hreleased

/-- A lock that is taken, and still held when a later request is served, or given back before. -/
theorem Serves.taken (h : Serves peers server db (before ++ i :: between ++ j :: after) db')
    (hdb : db.Intact) (hi : server.Accepted i) (hj : server.Accepted j) {name : String}
    {request : LockRequest} (hop : server.asks peers i = some (.acquire name request))
    (hop' : server.asks peers j = some op') :
    (∃ k ∈ between, server.Accepted k ∧
        server.asks peers k = some (.release name request.token)) ∨
      ∃ db, db.Intact ∧ db.record? .lock name = some (request.lockOn name) ∧
        ∃ reply, (op'.run db).1 = .ok reply := by
  obtain ⟨db₁, db₂, hbefore, ⟨reply, hreply⟩, hbetween, hlater⟩ := h.accepted_pair hi hj hop hop'
  have hdb₁ := hbefore.intact hfits hdb
  have hstep := Operation.lockStep_of_intact hdb₁ (hfits i _ hop) name
  cases hlock : db₁.record? .lock name with
  | some lock =>
    rw [hstep.refused lock request hlock rfl] at hreply
    cases hreply
  | none =>
    have hdb₁' := Operation.run_intact hdb₁ (hfits i _ hop)
    have hheld := (hstep.taken request hlock rfl).2
    rcases hbetween.held_or_released hfits hdb₁' hheld with hheld' | hreleased
    · exact Or.inr ⟨db₂, hbetween.intact hfits hdb₁', hheld', hlater⟩
    · exact Or.inl hreleased

theorem Serves.released_between_acquires
    (h : Serves peers server db (before ++ i :: between ++ j :: after) db') (hdb : db.Intact)
    (hi : server.Accepted i) (hj : server.Accepted j) {name : String} {request request' : LockRequest}
    (hop : server.asks peers i = some (.acquire name request))
    (hop' : server.asks peers j = some (.acquire name request')) :
    ∃ k ∈ between, server.Accepted k ∧
      server.asks peers k = some (.release name request.token) := by
  rcases h.taken hfits hdb hi hj hop hop' with hreleased | ⟨db₂, hdb₂, hheld, reply, hreply⟩
  · exact hreleased
  · have hstep := Operation.lockStep_of_intact hdb₂ (hfits j _ hop') name
    rw [hstep.refused _ request' hheld rfl] at hreply
    cases hreply

theorem Serves.released_before_write
    (h : Serves peers server db (before ++ i :: between ++ j :: after) db') (hdb : db.Intact)
    (hi : server.Accepted i) (hj : server.Accepted j) {name token : String} {request : LockRequest}
    {payload : ByteArray} (hop : server.asks peers i = some (.acquire name request))
    (hop' : server.asks peers j = some (.putState name token payload))
    (hforeign : token ≠ request.token) :
    ∃ k ∈ between, server.Accepted k ∧
      server.asks peers k = some (.release name request.token) := by
  rcases h.taken hfits hdb hi hj hop hop' with hreleased | ⟨db₂, hdb₂, hheld, reply, hreply⟩
  · exact hreleased
  · have hstep := Operation.lockStep_of_intact hdb₂ (hfits j _ hop') name
    rw [hstep.guarded _ token hheld hforeign (Or.inl ⟨payload, rfl⟩)] at hreply
    cases hreply

/-- A gate that does not exist still does not unless it has been added. -/
theorem Serves.added_or_gone (h : Serves peers server db ids db') (hdb : db.Intact) {key : String}
    (hgone : db.record? .gate key = none) :
    (∃ k ∈ ids, server.Accepted k ∧
        ∃ enabled, server.asks peers k = some (.createGate key enabled)) ∨
      db'.record? .gate key = none := by
  by_cases hadded : ∃ k ∈ ids, server.Accepted k ∧
      ∃ enabled, server.asks peers k = some (.createGate key enabled)
  · exact Or.inl hadded
  · right
    refine (h.invariant (P := fun db => db.Intact ∧ db.record? .gate key = none)
      ⟨hdb, hgone⟩ ?_).2
    rintro k hmem haccepted op hop db ⟨hdb, hgone⟩
    refine ⟨Operation.run_intact hdb (hfits k op hop), ?_⟩
    refine Operation.record?_gate_eq_none hdb.gatesInPlace hgone ?_
    rintro enabled rfl
    exact hadded ⟨k, hmem, haccepted, enabled, hop⟩

theorem Serves.added_after_removal (h : Serves peers server db (before ++ i :: after) db')
    (hdb : db.Intact) (hi : server.Accepted i) {key : String}
    (hop : server.asks peers i = some (.deleteGate key)) :
    (∃ k ∈ after, server.Accepted k ∧
        ∃ enabled, server.asks peers k = some (.createGate key enabled)) ∨
      db'.record? .gate key = none := by
  obtain ⟨db₁, hbefore, h⟩ := h.of_append
  obtain ⟨⟨reply, hreply⟩, h⟩ := h.accepted hop hi
  have hdb₁ := hbefore.intact hfits hdb
  refine h.added_or_gone hfits (Operation.run_intact hdb₁ (hfits i _ hop)) ?_
  exact (Operation.removes_of_deleteGate (Prod.ext hreply rfl)).2.record

theorem Serves.added_before_switch
    (h : Serves peers server db (before ++ i :: between ++ j :: after) db') (hdb : db.Intact)
    (hi : server.Accepted i) (hj : server.Accepted j) {key : String} {enabled : Bool}
    (hop : server.asks peers i = some (.deleteGate key))
    (hop' : server.asks peers j = some (.updateGate key enabled)) :
    ∃ k ∈ between, server.Accepted k ∧
      ∃ enabled, server.asks peers k = some (.createGate key enabled) := by
  obtain ⟨db₂, hserves, h⟩ := h.of_append
  obtain ⟨⟨reply, hreply⟩, -⟩ := h.accepted hop' hj
  rcases hserves.added_after_removal hfits hdb hi hop with hadded | hgone
  · exact hadded
  · obtain ⟨gate, hfound, -⟩ := Operation.writes_of_updateGate (Prod.ext hreply rfl)
    rw [hgone] at hfound
    cases hfound

end Fits

/-- What has come between two requests that are both accepted. -/
structure Between (peers : PeerList) (server : Server) (i : Nat) (between : List Nat) (j : Nat) :
    Prop where
  /-- A lock that is taken twice was given back by its holder. -/
  released : ∀ name request request', server.asks peers i = some (.acquire name request) →
    server.asks peers j = some (.acquire name request') →
    ∃ k ∈ between, server.Accepted k ∧ server.asks peers k = some (.release name request.token)
  /-- So was a lock before a state is written with a token that is not the holder's. -/
  unlocked : ∀ name request token payload, server.asks peers i = some (.acquire name request) →
    server.asks peers j = some (.putState name token payload) → token ≠ request.token →
    ∃ k ∈ between, server.Accepted k ∧ server.asks peers k = some (.release name request.token)
  /-- A gate that is switched after it was removed was added again. -/
  added : ∀ key enabled, server.asks peers i = some (.deleteGate key) →
    server.asks peers j = some (.updateGate key enabled) →
    ∃ k ∈ between, server.Accepted k ∧ ∃ enabled, server.asks peers k = some (.createGate key enabled)

end Server

/--
The steps of requests interleave in any way. There is always an order of the requests by their moments,
and for every such order: the requests answered in it one after another get the responses that they have
got and leave the store that is left; no request comes after one that arrived when it had been answered
already; and on a store as requests leave it, a lock is not taken twice, nor the state written with
another token, unless the lock was given back in between, and a gate that was removed is neither there nor
switched unless it was added again.
-/
theorem concurrent_requests_are_linearizable (peers : PeerList) (db : Database)
    (actions : List Action) (server : Server)
    (hrun : Server.run? peers actions (.initial db) = some server) :
    (∃ order moment, Placed actions order moment) ∧
    ∀ order moment, Placed actions order moment →
      (∃ requests, order.map server.request? = requests.map some ∧
        order.map server.response? = (Request.answerAll peers requests db).1.map some ∧
        server.db = (Request.answerAll peers requests db).2) ∧
      (order.Pairwise fun i j => ¬ ∃ (k l : Nat) (request : Request), k < l ∧
        actions[k]? = some (.respond j) ∧ actions[l]? = some (.arrive i request)) ∧
      (db.Intact → (∀ id request, .arrive id request ∈ actions → request.Arrives) →
        server.db.Intact ∧
        (∀ before i between j after, order = before ++ i :: between ++ j :: after →
          server.Accepted i → server.Accepted j → server.Between peers i between j) ∧
        ∀ before i after key, order = before ++ i :: after → server.Accepted i →
          server.asks peers i = some (.deleteGate key) →
          (∃ k ∈ after, server.Accepted k ∧
            ∃ enabled, server.asks peers k = some (.createGate key enabled)) ∨
          server.db.record? .gate key = none) := by
  have hsteps : InOrder actions := (Server.inOrder_of_run? hrun).2
  refine ⟨exists_placed hsteps, ?_⟩
  intro order moment hplaced
  have hserves := Server.serves_of_placed hrun hplaced
  obtain ⟨requests, hrequests, hresponses, hleft⟩ := hserves.answerAll
  refine ⟨⟨requests, hrequests, hresponses, hleft.symm⟩, hplaced.real_time hsteps, ?_⟩
  intro hdb harrive
  have hfits : ∀ id op, server.asks peers id = some op → op.Fits := by
    intro id op hop
    obtain ⟨request, hrequest, -⟩ := Option.bind_eq_some_iff.mp hop
    have hdecode := Server.asks_of_request hrequest hop
    rcases Server.arrived_of_run? hrun hrequest with hmem | hinitial
    · exact Request.fits_of_decode (harrive id request hmem) hdecode
    · cases hinitial
  refine ⟨hserves.intact hfits hdb, ?_, ?_⟩
  · rintro before i between j after rfl hi hj
    constructor
    case released =>
      intro name request request' hop hop'
      exact hserves.released_between_acquires hfits hdb hi hj hop hop'
    case unlocked =>
      intro name request token payload hop hop' hforeign
      exact hserves.released_before_write hfits hdb hi hj hop hop' hforeign
    case added =>
      intro key enabled hop hop'
      exact hserves.added_before_switch hfits hdb hi hj hop hop'
  · rintro before i after key rfl hi hop
    exact hserves.added_after_removal hfits hdb hi hop

/-- Two requests for one lock, and one that is refused, take their steps by turns. -/
theorem concurrent_requests_are_linearizable_contested :
    let peers : PeerList := ⟨[]⟩
    let first := fromSocket .put "/1.0/lock/plan" "\x7b\"ID\":\"a\"\x7d"
    let second := fromSocket .put "/1.0/lock/plan" "\x7b\"ID\":\"b\"\x7d"
    let lost := fromSocket .get "/1.0/nothing" ""
    let actions : List Action := [.arrive 0 first, .arrive 1 second, .decode 0, .decode 1,
      .transact 1, .arrive 2 lost, .decode 2, .respond 2, .transact 0, .respond 0, .respond 1]
    ∃ server, Server.run? peers actions (.initial Schema.fresh) = some server ∧
      server.Accepted 1 ∧ ¬ server.Accepted 0 ∧
      server.db = (Request.answerAll peers [second, lost, first] Schema.fresh).2 := by
  intro peers first second lost actions
  have hcourse : ((Server.run? peers actions (.initial Schema.fresh)).map fun server =>
      (server.request? 1, server.request? 2, server.request? 0,
        (server.response? 1).map Response.status)) =
      some (some second, some lost, some first, some 200) := by
    decide +kernel
  obtain ⟨server, hrun, hcourse⟩ := Option.map_eq_some_iff.mp hcourse
  simp only [Prod.mk.injEq] at hcourse
  obtain ⟨hsecond, hlost, hfirst, hstatus⟩ := hcourse
  have haccepted : server.Accepted 1 := Option.map_eq_some_iff.mp hstatus
  have hsteps : InOrder actions := (Server.inOrder_of_run? hrun).2
  have harrived : ∀ {id : Nat} {request : Request}, .arrive id request ∈ actions ↔
      id = 0 ∧ request = first ∨ id = 1 ∧ request = second ∨ id = 2 ∧ request = lost := by
    simp [actions]
  have htransacted : ∀ {id : Nat}, .transact id ∈ actions ↔ id = 1 ∨ id = 0 := by
    simp [actions]
  have hanswered : ∀ {id : Nat}, .respond id ∈ actions ↔ id = 2 ∨ id = 0 ∨ id = 1 := by
    simp [actions]
  have hplaced : Placed actions [1, 2, 0] (fun | 0 => 8 | 1 => 4 | _ => 5) := by
    constructor
    case nodup => decide
    case mem =>
      intro id
      rw [htransacted, hanswered]
      simp only [List.mem_cons, List.not_mem_nil, or_false]
      omega
    case sorted => decide
    case transacted =>
      intro id k hk
      rcases htransacted.mp (List.mem_of_getElem? hk) with rfl | rfl
      · exact hsteps.unique (k := 4) rfl hk
      · exact hsteps.unique (k := 8) rfl hk
    case passed =>
      intro id hnot
      rw [htransacted, not_or] at hnot
      refine ⟨fun k request hk => ?_, fun k hk => ?_⟩
      · rcases harrived.mp (List.mem_of_getElem? hk) with ⟨rfl, -⟩ | ⟨rfl, -⟩ | ⟨rfl, rfl⟩
        · exact absurd rfl hnot.2
        · exact absurd rfl hnot.1
        · exact Nat.le_of_eq (hsteps.unique (l := 5) hk rfl)
      · rcases hanswered.mp (List.mem_of_getElem? hk) with rfl | rfl | rfl
        · rw [hsteps.unique (l := 7) hk rfl]
          decide
        · exact absurd rfl hnot.2
        · exact absurd rfl hnot.1
  have hall := concurrent_requests_are_linearizable peers Schema.fresh actions server hrun
  obtain ⟨⟨requests, hrequests, -, hleft⟩, -, hlocks⟩ := hall.2 _ _ hplaced
  have harrive : ∀ id request, .arrive id request ∈ actions → request.Arrives := by
    intro id request hmem
    rcases harrived.mp hmem with ⟨-, rfl⟩ | ⟨-, rfl⟩ | ⟨-, rfl⟩
    · exact ⟨"/1.0/lock/plan", by decide +kernel⟩
    · exact ⟨"/1.0/lock/plan", by decide +kernel⟩
    · exact ⟨"/1.0/nothing", by decide +kernel⟩
  refine ⟨server, hrun, haccepted, ?_, ?_⟩
  · intro hfirstAccepted
    have hbetween := (hlocks Schema.fresh_intact harrive).2.1 [] 1 [2] 0 [] rfl haccepted
      hfirstAccepted
    obtain ⟨k, hmem, -, hreleased⟩ := hbetween.released "plan" ⟨"b", "\x7b\"ID\":\"b\"\x7d"⟩
      ⟨"a", "\x7b\"ID\":\"a\"\x7d"⟩ (by rw [Server.asks, hsecond]; decide +kernel)
      (by rw [Server.asks, hfirst]; decide +kernel)
    rw [List.mem_singleton.mp hmem, Server.asks, hlost] at hreleased
    revert hreleased
    decide +kernel
  · have hlisted : [second, lost, first].map some = requests.map some := by
      rw [← hrequests]
      simp only [List.map_cons, List.map_nil, hsecond, hlost, hfirst]
    rw [hleft, (Option.some_injective _).list_map hlisted]

end Http

end ControlPlane
