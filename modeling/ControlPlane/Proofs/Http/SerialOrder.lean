import ControlPlane.Proofs.Http.Decoding
import ControlPlane.Proofs.Http.Interleaving

/-!
# The serial order of requests

Whatever way the steps of requests interleave, the requests could as well have come one after another.
Each has its moment: its transaction, or, if it was refused, any moment between its arrival and its
response (`Placed`). In the order of these moments the requests serve one another the store that they have
really found (`Server.serves_of_placed`).
-/

namespace ControlPlane

namespace Http

variable {peers : PeerList}

/-- The request whose transaction a step is. -/
def Action.transacts? : Action → Option Nat
  | .transact id => some id
  | .arrive .. | .decode _ | .respond _ => none

theorem Action.transacts?_eq_some {action : Action} {id : Nat} :
    action.transacts? = some id ↔ action = .transact id := by
  cases action <;> simp [transacts?]

/-! ## Serving one after another -/

/-- Whether the requests with some numbers, answered one after another, get the responses that a server
has settled on, and lead from one database to another. -/
inductive Server.Serves (peers : PeerList) (server : Server) : Database → List Nat → Database → Prop
  /-- There is no request. -/
  | nil (db : Database) : Serves peers server db [] db
  /-- A request is answered, and the others follow. -/
  | cons {db db' : Database} {id : Nat} {ids : List Nat} {request : Request}
    (hrequest : server.request? id = some request)
    (hresponse : server.response? id = some (request.answer peers db).1)
    (hrest : Serves peers server (request.answer peers db).2 ids db') :
    Serves peers server db (id :: ids) db'

namespace Server

variable {server server' final : Server} {db db' : Database} {ids ids' : List Nat} {id : Nat}
  {action : Action} {actions : List Action}

theorem Serves.answerAll (h : Serves peers server db ids db') :
    ∃ requests, ids.map server.request? = requests.map some ∧
      ids.map server.response? = (Request.answerAll peers requests db).1.map some ∧
      (Request.answerAll peers requests db).2 = db' := by
  induction h with
  | nil db => exact ⟨[], rfl, rfl, rfl⟩
  | cons hrequest hresponse _ ih =>
    obtain ⟨requests, hrequests, hresponses, hleft⟩ := ih
    refine ⟨_ :: requests, ?_, ?_, hleft⟩
    · rw [List.map_cons, List.map_cons, hrequest, hrequests]
    · rw [List.map_cons, hresponse, hresponses]
      rfl

theorem Serves.of_append (h : Serves peers server db (ids ++ ids') db') :
    ∃ mid, Serves peers server db ids mid ∧ Serves peers server mid ids' db' := by
  induction ids generalizing db with
  | nil => exact ⟨db, .nil db, h⟩
  | cons id ids ih =>
    cases h with
    | cons hrequest hresponse hrest =>
      obtain ⟨mid, hbefore, hafter⟩ := ih hrest
      exact ⟨mid, .cons hrequest hresponse hbefore, hafter⟩

/-- Whether a request gets its response whatever the store holds, and leaves the store alone. -/
def Passes (peers : PeerList) (server : Server) (id : Nat) : Prop :=
  ∀ request response, server.request? id = some request → server.response? id = some response →
    ∀ db, request.answer peers db = (response, db)

/-- Requests that leave the store alone can be served in between. -/
theorem Serves.of_filter {p : Nat → Bool} {order : List Nat}
    (hpasses : ∀ id ∈ order, p id = false → server.Passes peers id ∧
      ∃ request response, server.request? id = some request ∧ server.response? id = some response) :
    ∀ {db : Database}, Serves peers server db (order.filter p) db' →
      Serves peers server db order db' := by
  induction order with
  | nil => exact fun h => h
  | cons id order ih =>
    intro db h
    have hpasses' := fun id' hmem => hpasses id' (List.mem_cons_of_mem id hmem)
    by_cases hp : p id = true
    · rw [List.filter_cons_of_pos hp] at h
      cases h with
      | cons hrequest hresponse h => exact .cons hrequest hresponse (ih hpasses' h)
    · rw [List.filter_cons_of_neg hp] at h
      obtain ⟨hpass, request, response, hrequest, hresponse⟩ :=
        hpasses id List.mem_cons_self (Bool.eq_false_iff.mpr hp)
      have hanswer := hpass request response hrequest hresponse db
      refine .cons hrequest (by rw [hanswer, hresponse]) ?_
      rw [hanswer]
      exact ih hpasses' h

/-! ## In the order of the transactions -/

/-- The requests that have their transactions, in the order of these. -/
def transacted (actions : List Action) : List Nat := actions.filterMap Action.transacts?

theorem mem_transacted : id ∈ transacted actions ↔ .transact id ∈ actions := by
  simp only [transacted, List.mem_filterMap, Action.transacts?_eq_some, exists_eq_right]

/-- Whether a request asks for the operation that is planned for it. -/
def Decoded (peers : PeerList) (server : Server) : Prop :=
  ∀ id request op, server.flights id = some ⟨request, .planned op⟩ → request.decode peers = .ok op

theorem Took.decoded (h : server.Took peers action server') (hdecoded : server.Decoded peers) :
    server'.Decoded peers := by
  intro id request op hflight
  by_cases hid : id = action.id
  · subst hid
    cases h with
    | planned id' request' _ op' hdecode =>
      rw [Action.id, flights_place_same] at hflight
      cases hflight
      exact hdecode
    | arrived | refused | executed | answered =>
      rw [Action.id, flights_place_same] at hflight
      cases hflight
  · rw [h.flights_other hid] at hflight
    exact hdecoded id request op hflight

/-- The requests that have their transactions are served in the order of these. -/
theorem serves_transacted : ∀ {server : Server}, server.Decoded peers →
    run? peers actions server = some final →
    Serves peers final server.db (transacted actions) final.db := by
  induction actions with
  | nil =>
    intro server _ hrun
    cases hrun
    exact .nil _
  | cons action actions ih =>
    intro server hdecoded hrun
    obtain ⟨next, hstep, hrest⟩ := Option.bind_eq_some_iff.mp hrun
    have htook := took_of_step? hstep
    have hserves := ih (htook.decoded hdecoded) hrest
    have hkept := kept_of_run? hrest
    cases htook with
    | arrived | refused | planned | answered => exact hserves
    | executed id request op hflight =>
      have hanswer := Request.answer_of_decode (hdecoded id request op hflight) server.db
      have hrequest : final.request? id = some request := by
        refine hkept.request id request ?_
        rw [request?_place_same]
      have hresponse : final.response? id = some (request.answer peers server.db).1 := by
        refine hkept.response id _ ?_
        rw [response?_place_same, hanswer]
        rfl
      refine .cons hrequest hresponse ?_
      rw [hanswer]
      exact hserves

/-! ## Requests without a transaction -/

theorem Took.passes (h : server.Took peers action server') (hother : action ≠ .transact id)
    (hpasses : server.Passes peers id) : server'.Passes peers id := by
  intro request response hrequest hresponse db
  by_cases hid : id = action.id
  · subst hid
    cases h with
    | executed => exact absurd rfl hother
    | arrived | planned =>
      rw [Action.id, response?_place_same] at hresponse
      cases hresponse
    | refused id' request' _ refusal hdecode =>
      rw [Action.id, request?_place_same] at hrequest
      rw [Action.id, response?_place_same] at hresponse
      cases hrequest
      cases hresponse
      exact Request.answer_of_refused hdecode db
    | answered id' request' stage response' hflight _ hsettled =>
      rw [Action.id, request?_place_same] at hrequest
      rw [Action.id, response?_place_same] at hresponse
      cases hrequest
      cases hresponse
      exact hpasses _ _ (request?_of_flight hflight) ((response?_of_flight hflight).trans hsettled) db
  · rw [request?, h.flights_other hid] at hrequest
    rw [response?, h.flights_other hid] at hresponse
    exact hpasses request response hrequest hresponse db

theorem passes_of_run? (hother : .transact id ∉ actions) : ∀ {server : Server},
    server.Passes peers id → run? peers actions server = some final → final.Passes peers id := by
  induction actions with
  | nil =>
    intro server hpasses hrun
    cases hrun
    exact hpasses
  | cons action actions ih =>
    intro server hpasses hrun
    obtain ⟨next, hstep, hrest⟩ := Option.bind_eq_some_iff.mp hrun
    rw [List.mem_cons, not_or] at hother
    exact ih hother.2 ((took_of_step? hstep).passes (Ne.symm hother.1) hpasses) hrest

/-- A request that is answered has a response. -/
theorem settled_of_respond (hmem : .respond id ∈ actions) : ∀ {server : Server},
    run? peers actions server = some final →
    ∃ request response, final.request? id = some request ∧ final.response? id = some response := by
  induction actions with
  | nil => cases hmem
  | cons action actions ih =>
    intro server hrun
    obtain ⟨next, hstep, hrest⟩ := Option.bind_eq_some_iff.mp hrun
    rcases List.mem_cons.mp hmem with rfl | hmem
    · have hkept := kept_of_run? hrest
      cases took_of_step? hstep with
      | answered _ request stage response hflight _ _ =>
        refine ⟨request, response, hkept.request id request ?_, hkept.response id response ?_⟩
        · rw [request?_place_same]
        · rw [response?_place_same]
          rfl
    · exact ih hmem hrest

end Server

/-! ## Moments -/

/--
Whether an order of requests is that of their moments. It has the requests that have had their
transactions or have been answered. The moment of a transaction is when it happens. The moment of a
request that has none lies between its arrival and its response.
-/
structure Placed (actions : List Action) (order : List Nat) (moment : Nat → Nat) : Prop where
  /-- No request occurs twice. -/
  nodup : order.Nodup
  /-- These are the requests. -/
  mem : ∀ id, id ∈ order ↔ .transact id ∈ actions ∨ .respond id ∈ actions
  /-- They are in the order of their moments. -/
  sorted : order.Pairwise fun i j => moment i ≤ moment j
  /-- The moment of a transaction. -/
  transacted : ∀ id k, actions[k]? = some (.transact id) → moment id = k
  /-- The moment of a request without one. -/
  passed : ∀ id, .transact id ∉ actions →
    (∀ k request, actions[k]? = some (.arrive id request) → k ≤ moment id) ∧
    ∀ k, actions[k]? = some (.respond id) → moment id ≤ k

/-- Requests that are picked from the steps at their moments are in the order of these. -/
theorem pairwise_filterMap {actions : List Action} {pick : Action → Option Nat} {moment : Nat → Nat}
    (h : ∀ action id k, pick action = some id → actions[k]? = some action → moment id = k) :
    (actions.filterMap pick).Pairwise fun i j => moment i < moment j := by
  rw [List.pairwise_filterMap, List.pairwise_iff_getElem]
  intro k l hk hl hlt i hi j hj
  rw [h _ i k hi (List.getElem?_eq_getElem hk), h _ j l hj (List.getElem?_eq_getElem hl)]
  exact hlt

namespace Placed

variable {actions : List Action} {order : List Nat} {moment : Nat → Nat}

theorem pairwise_transacted (h : Placed actions order moment) :
    (Server.transacted actions).Pairwise fun i j => moment i < moment j := by
  refine pairwise_filterMap fun action id k hpick hk => h.transacted id k ?_
  rw [hk, Action.transacts?_eq_some.mp hpick]

theorem moment_injective (h : Placed actions order moment) {i j : Nat} (hi : .transact i ∈ actions)
    (hj : .transact j ∈ actions) (heq : moment i = moment j) : i = j := by
  obtain ⟨k, hk⟩ := List.mem_iff_getElem?.mp hi
  obtain ⟨l, hl⟩ := List.mem_iff_getElem?.mp hj
  have hkl : k = l := by
    rw [← h.transacted i k hk, ← h.transacted j l hl, heq]
  rw [hkl, hl] at hk
  cases hk
  rfl

/-- The requests that have their transactions are in the order of these, for there is only one order of
their moments. -/
theorem filter_eq (h : Placed actions order moment) :
    order.filter (fun id => Action.transact id ∈ actions) = Server.transacted actions := by
  have hsorted := h.pairwise_transacted
  have hnodup : (Server.transacted actions).Nodup :=
    hsorted.imp fun hlt heq => Nat.ne_of_lt hlt (congrArg moment heq)
  have hmem : ∀ id, id ∈ order.filter (fun id => Action.transact id ∈ actions) ↔
      id ∈ Server.transacted actions := by
    intro id
    rw [Server.mem_transacted, List.mem_filter, decide_eq_true_eq, h.mem]
    exact ⟨fun hid => hid.2, fun hid => ⟨Or.inl hid, hid⟩⟩
  refine List.Perm.eq_of_pairwise ?_ (h.sorted.filter _) (hsorted.imp Nat.le_of_lt)
    ((List.perm_ext_iff_of_nodup (h.nodup.filter _) hnodup).mpr hmem)
  intro i j hi hj hij hji
  rw [hmem, Server.mem_transacted] at hi
  rw [Server.mem_transacted] at hj
  exact h.moment_injective hi hj (Nat.le_antisymm hij hji)

/-- The moment of a request does not come before its arrival. -/
theorem arrive_le (h : Placed actions order moment) (hsteps : InOrder actions) {id k : Nat}
    {request : Request} (hk : actions[k]? = some (.arrive id request)) : k ≤ moment id := by
  by_cases htransact : .transact id ∈ actions
  · obtain ⟨l, hl⟩ := List.mem_iff_getElem?.mp htransact
    rw [h.transacted id l hl]
    exact Nat.le_of_lt (hsteps.lt hk hl rfl (by simp [Action.rank]))
  · exact (h.passed id htransact).1 k request hk

/-- The moment of a request does not come after its response. -/
theorem le_respond (h : Placed actions order moment) (hsteps : InOrder actions) {id k : Nat}
    (hk : actions[k]? = some (.respond id)) : moment id ≤ k := by
  by_cases htransact : .transact id ∈ actions
  · obtain ⟨l, hl⟩ := List.mem_iff_getElem?.mp htransact
    rw [h.transacted id l hl]
    exact Nat.le_of_lt (hsteps.lt hl hk rfl (by simp [Action.rank]))
  · exact (h.passed id htransact).2 k hk

/-- A request that was answered before another one arrived does not come after it. -/
theorem real_time (h : Placed actions order moment) (hsteps : InOrder actions) :
    order.Pairwise fun i j => ¬ ∃ (k l : Nat) (request : Request), k < l ∧
      actions[k]? = some (.respond j) ∧ actions[l]? = some (.arrive i request) := by
  refine h.sorted.imp ?_
  rintro i j hle ⟨k, l, request, hlt, hrespond, harrive⟩
  have hj := h.le_respond hsteps hrespond
  have hi := h.arrive_le hsteps harrive
  omega

end Placed

/-- The request that has its latest moment at a step: at its transaction, or at its response if it has no
transaction. -/
def Action.settles? (actions : List Action) : Action → Option Nat
  | .transact id => some id
  | .respond id => if .transact id ∈ actions then none else some id
  | .arrive .. | .decode _ => none

theorem Action.settles?_eq_some {actions : List Action} {action : Action} {id : Nat} :
    action.settles? actions = some id ↔
      action = .transact id ∨ action = .respond id ∧ .transact id ∉ actions := by
  cases action with
  | arrive | decode | transact => simp [settles?]
  | respond id' =>
    by_cases hmem : .transact id' ∈ actions
    · simp only [settles?, if_pos hmem, reduceCtorEq, respond.injEq, false_or, false_iff, not_and]
      rintro rfl
      exact not_not_intro hmem
    · simp only [settles?, if_neg hmem, Option.some.injEq, reduceCtorEq, respond.injEq, false_or]
      exact ⟨fun hid => ⟨hid, hid ▸ hmem⟩, And.left⟩

/-- The latest moment of a request. -/
def latest (actions : List Action) (id : Nat) : Nat :=
  if .transact id ∈ actions then actions.idxOf (.transact id) else actions.idxOf (.respond id)

theorem InOrder.latest_eq {actions : List Action} (h : InOrder actions) {action : Action} {id k : Nat}
    (hsettles : action.settles? actions = some id) (hk : actions[k]? = some action) :
    latest actions id = k := by
  have hmem : action ∈ actions := List.mem_of_getElem? hk
  have hindex : actions.idxOf action = k := h.unique (List.getElem?_idxOf hmem) hk
  rcases Action.settles?_eq_some.mp hsettles with rfl | ⟨rfl, hnot⟩
  · rw [latest, if_pos hmem, hindex]
  · rw [latest, if_neg hnot, hindex]

/-- There is always such an order, that of the latest moments. -/
theorem exists_placed {actions : List Action} (hsteps : InOrder actions) :
    ∃ order moment, Placed actions order moment := by
  have hsorted : (actions.filterMap (Action.settles? actions)).Pairwise
      fun i j => latest actions i < latest actions j :=
    pairwise_filterMap fun _ _ _ => hsteps.latest_eq
  refine ⟨actions.filterMap (Action.settles? actions), latest actions, ?_⟩
  constructor
  case nodup => exact hsorted.imp fun hlt heq => Nat.ne_of_lt hlt (congrArg (latest actions) heq)
  case mem =>
    intro id
    simp only [List.mem_filterMap, Action.settles?_eq_some]
    constructor
    · rintro ⟨action, hmem, rfl | ⟨rfl, -⟩⟩
      · exact Or.inl hmem
      · exact Or.inr hmem
    · intro hmem
      by_cases htransact : .transact id ∈ actions
      · exact ⟨_, htransact, Or.inl rfl⟩
      · exact ⟨_, hmem.resolve_left htransact, Or.inr ⟨rfl, htransact⟩⟩
  case sorted => exact hsorted.imp Nat.le_of_lt
  case transacted => exact fun id k hk => hsteps.latest_eq (Action.settles?_eq_some.mpr (Or.inl rfl)) hk
  case passed =>
    intro id hnot
    refine ⟨fun k request hk => ?_, fun k hk => ?_⟩
    · rw [latest, if_neg hnot]
      by_cases hmem : .respond id ∈ actions
      · exact Nat.le_of_lt (hsteps.lt hk (List.getElem?_idxOf hmem) rfl (by simp [Action.rank]))
      · rw [List.idxOf_eq_length hmem]
        exact Nat.le_of_lt (List.getElem?_eq_some_iff.mp hk).1
    · exact Nat.le_of_eq (hsteps.latest_eq (Action.settles?_eq_some.mpr (Or.inr ⟨rfl, hnot⟩)) hk)

/-- The requests serve one another in the order of their moments. -/
theorem Server.serves_of_placed {db : Database} {actions : List Action} {server : Server}
    (hrun : run? peers actions (.initial db) = some server) {order : List Nat} {moment : Nat → Nat}
    (h : Placed actions order moment) : Serves peers server db order server.db := by
  refine Serves.of_filter (p := fun id => Action.transact id ∈ actions) ?_ ?_
  · intro id hmem hnot
    have htransact : .transact id ∉ actions := of_decide_eq_false hnot
    have hpasses : (initial db).Passes peers id := by
      intro request response hrequest
      cases hrequest
    refine ⟨passes_of_run? htransact hpasses hrun, settled_of_respond ?_ hrun⟩
    exact ((h.mem id).mp hmem).resolve_left htransact
  · rw [h.filter_eq]
    refine serves_transacted ?_ hrun
    intro id request op hflight
    cases hflight

end Http

end ControlPlane
