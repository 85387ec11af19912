import ControlPlane.Http.Api
import Mathlib.Data.List.Basic

/-!
# Requests at the same time

Any number of requests can be in flight at once. Each of them goes through its stages: it arrives, it is
decoded, it has its one transaction unless it was refused, and it is answered. The steps of different
requests follow one another in any order (`Server.run?`), and only a transaction touches the store.
`Server.Took` says what a step can come to. The steps of one request are in the order of its stages
(`Server.inOrder_of_run?`).
-/

namespace ControlPlane

namespace Http

/-! ## Requests and their steps -/

/-- How far a request has come. -/
inductive Stage where
  /-- It has arrived. -/
  | arrived
  /-- It is decoded and refused. -/
  | refused (refusal : Refusal)
  /-- It is decoded and asks for an operation. -/
  | planned (op : Operation)
  /-- The operation has run. -/
  | executed (op : Operation) (result : Except ClusterError Reply)
  /-- It is answered. -/
  | answered (response : Response)

/-- A request that has arrived. -/
structure Flight where
  /-- The request. -/
  request : Request
  /-- How far it has come. -/
  stage : Stage

/-- The response to a request, from when it is settled on. -/
def Flight.response? (flight : Flight) : Option Response :=
  match flight.stage with
  | .arrived | .planned _ => none
  | .refused refusal => some (refusal.response.sentFor flight.request.method)
  | .executed op result => some ((Response.ofOperation op result).sentFor flight.request.method)
  | .answered response => some response

/-- A step of a request, which is known by a number. -/
inductive Action where
  /-- It arrives. -/
  | arrive (id : Nat) (request : Request)
  /-- It is decoded. -/
  | decode (id : Nat)
  /-- It has its transaction. -/
  | transact (id : Nat)
  /-- It is answered. -/
  | respond (id : Nat)
deriving DecidableEq

/-- The request that takes a step. -/
def Action.id : Action → Nat
  | .arrive id _ | .decode id | .transact id | .respond id => id

/-- Where a step stands among the steps of a request. -/
def Action.rank : Action → Nat
  | .arrive .. => 1
  | .decode _ => 2
  | .transact _ => 3
  | .respond _ => 4

/-- The rank of the last step that has led to a stage. -/
def Stage.rank : Stage → Nat
  | .arrived => 1
  | .refused _ | .planned _ => 2
  | .executed .. => 3
  | .answered _ => 4

/-- Whether the steps of each request are in their order. -/
def InOrder (actions : List Action) : Prop :=
  actions.Pairwise fun earlier later => earlier.id = later.id → earlier.rank < later.rank

namespace InOrder

variable {actions : List Action} {earlier later action : Action} {k l : Nat}

theorem lt (h : InOrder actions) (hk : actions[k]? = some earlier) (hl : actions[l]? = some later)
    (hid : earlier.id = later.id) (hrank : earlier.rank < later.rank) : k < l := by
  obtain ⟨hk', hearlier⟩ := List.getElem?_eq_some_iff.mp hk
  obtain ⟨hl', hlater⟩ := List.getElem?_eq_some_iff.mp hl
  by_contra hnot
  rcases Nat.lt_or_eq_of_le (Nat.le_of_not_lt hnot) with hlt | heq
  · have hother := List.pairwise_iff_getElem.mp h l k hl' hk' hlt
    rw [hearlier, hlater] at hother
    exact Nat.lt_asymm hrank (hother hid.symm)
  · subst heq
    rw [hearlier] at hlater
    rw [hlater] at hrank
    exact Nat.lt_irrefl _ hrank

theorem unique (h : InOrder actions) (hk : actions[k]? = some action)
    (hl : actions[l]? = some action) : k = l := by
  obtain ⟨hk', hkth⟩ := List.getElem?_eq_some_iff.mp hk
  obtain ⟨hl', hlth⟩ := List.getElem?_eq_some_iff.mp hl
  have hpairs := List.pairwise_iff_getElem.mp h
  rcases Nat.lt_trichotomy k l with hlt | heq | hlt
  · have hrank := hpairs k l hk' hl' hlt
    rw [hkth, hlth] at hrank
    exact absurd (hrank rfl) (Nat.lt_irrefl _)
  · exact heq
  · have hrank := hpairs l k hl' hk' hlt
    rw [hkth, hlth] at hrank
    exact absurd (hrank rfl) (Nat.lt_irrefl _)

end InOrder

/-! ## Servers -/

/-- A server with its store and the requests that have arrived. -/
structure Server where
  /-- The store. -/
  db : Database
  /-- The requests. -/
  flights : Nat → Option Flight

namespace Server

/-- A server to which no request has come. -/
def initial (db : Database) : Server := ⟨db, fun _ => none⟩

/-- Puts a request where it has come to. -/
def place (server : Server) (id : Nat) (request : Request) (stage : Stage) : Server :=
  { server with
    flights := fun id' => if id' = id then some ⟨request, stage⟩ else server.flights id' }

/-- Takes a step, if it can be taken. -/
def step? (peers : PeerList) (server : Server) : Action → Option Server
  | .arrive id request =>
    match server.flights id with
    | none => some (server.place id request .arrived)
    | some _ => none
  | .decode id =>
    match server.flights id with
    | some ⟨request, .arrived⟩ =>
      match request.decode peers with
      | .error refusal => some (server.place id request (.refused refusal))
      | .ok op => some (server.place id request (.planned op))
    | _ => none
  | .transact id =>
    match server.flights id with
    | some ⟨request, .planned op⟩ =>
      let (result, db) := op.run server.db
      some (({ server with db := db } : Server).place id request (.executed op result))
    | _ => none
  | .respond id =>
    match server.flights id with
    | some ⟨request, .refused refusal⟩ =>
      some (server.place id request (.answered (refusal.response.sentFor request.method)))
    | some ⟨request, .executed op result⟩ =>
      some (server.place id request
        (.answered ((Response.ofOperation op result).sentFor request.method)))
    | _ => none

/-- Takes steps one after another, if they can be taken. -/
def run? (peers : PeerList) : List Action → Server → Option Server
  | [], server => some server
  | action :: actions, server => (server.step? peers action).bind (run? peers actions)

/-- The request with a number. -/
def request? (server : Server) (id : Nat) : Option Request := (server.flights id).map Flight.request

/-- The response to the request with a number, from when it is settled on. -/
def response? (server : Server) (id : Nat) : Option Response :=
  (server.flights id).bind Flight.response?

/-! ## What a step comes to -/

variable {peers : PeerList} {server server' : Server} {action : Action} {actions : List Action}
  {id : Nat} {request : Request}

@[simp]
theorem flights_place_same (server : Server) (id : Nat) (request : Request) (stage : Stage) :
    (server.place id request stage).flights id = some ⟨request, stage⟩ := if_pos rfl

theorem flights_place_other {id' : Nat} (h : id' ≠ id) (request : Request) (stage : Stage) :
    (server.place id request stage).flights id' = server.flights id' := if_neg h

/-- What a step can make of a server. -/
inductive Took (peers : PeerList) (server : Server) : Action → Server → Prop
  /-- A request arrives. -/
  | arrived (id : Nat) (request : Request) (hflight : server.flights id = none) :
    Took peers server (.arrive id request) (server.place id request .arrived)
  /-- A request is refused. -/
  | refused (id : Nat) (request : Request) (hflight : server.flights id = some ⟨request, .arrived⟩)
    (refusal : Refusal) (hdecode : request.decode peers = .error refusal) :
    Took peers server (.decode id) (server.place id request (.refused refusal))
  /-- A request turns out to ask for an operation. -/
  | planned (id : Nat) (request : Request) (hflight : server.flights id = some ⟨request, .arrived⟩)
    (op : Operation) (hdecode : request.decode peers = .ok op) :
    Took peers server (.decode id) (server.place id request (.planned op))
  /-- An operation runs. -/
  | executed (id : Nat) (request : Request) (op : Operation)
    (hflight : server.flights id = some ⟨request, .planned op⟩) :
    Took peers server (.transact id)
      (({ server with db := (op.run server.db).2 } : Server).place id request
        (.executed op (op.run server.db).1))
  /-- A request is answered with the response that was settled on. -/
  | answered (id : Nat) (request : Request) (stage : Stage) (response : Response)
    (hflight : server.flights id = some ⟨request, stage⟩)
    (hsettled : (∃ refusal, stage = .refused refusal) ∨ ∃ op result, stage = .executed op result)
    (hresponse : Flight.response? ⟨request, stage⟩ = some response) :
    Took peers server (.respond id) (server.place id request (.answered response))

theorem took_of_step? (h : server.step? peers action = some server') :
    server.Took peers action server' := by
  unfold step? at h
  cases action with
  | arrive id request =>
    dsimp only at h
    cases hflight : server.flights id with
    | some flight => simp [hflight] at h
    | none =>
      rw [hflight] at h
      cases h
      exact .arrived id request hflight
  | decode id =>
    dsimp only at h
    split at h
    · next request hflight =>
      cases hdecode : request.decode peers with
      | error refusal =>
        rw [hdecode] at h
        cases h
        exact .refused id request hflight refusal hdecode
      | ok op =>
        rw [hdecode] at h
        cases h
        exact .planned id request hflight op hdecode
    · cases h
  | transact id =>
    dsimp only at h
    split at h
    · next request op hflight =>
      cases h
      exact .executed id request op hflight
    · cases h
  | respond id =>
    dsimp only at h
    split at h
    · next request refusal hflight =>
      cases h
      exact .answered id request _ _ hflight (Or.inl ⟨refusal, rfl⟩) rfl
    · next request op result hflight =>
      cases h
      exact .answered id request _ _ hflight (Or.inr ⟨op, result, rfl⟩) rfl
    · cases h

/-- A step is about one request and leaves the others where they are. -/
theorem Took.flights_other (h : server.Took peers action server') (hid : id ≠ action.id) :
    server'.flights id = server.flights id := by
  cases h with
  | arrived | refused | planned | executed | answered => exact flights_place_other hid _ _

/-! ## What is kept -/

/-- Whether the requests that have arrived, and the responses that are settled on, stay what they are. -/
structure Kept (server server' : Server) : Prop where
  /-- The requests stay. -/
  request : ∀ id request, server.request? id = some request → server'.request? id = some request
  /-- The responses stay. -/
  response : ∀ id response, server.response? id = some response →
    server'.response? id = some response

theorem Kept.trans {server'' : Server} (h : server.Kept server') (h' : server'.Kept server'') :
    server.Kept server'' where
  request := fun id request hrequest => h'.request id request (h.request id request hrequest)
  response := fun id response hresponse => h'.response id response (h.response id response hresponse)

@[simp]
theorem request?_place_same (server : Server) (id : Nat) (request : Request) (stage : Stage) :
    (server.place id request stage).request? id = some request := by
  rw [request?, flights_place_same]
  rfl

@[simp]
theorem response?_place_same (server : Server) (id : Nat) (request : Request) (stage : Stage) :
    (server.place id request stage).response? id = Flight.response? ⟨request, stage⟩ := by
  rw [response?, flights_place_same]
  rfl

theorem request?_of_flight {flight : Flight} (h : server.flights id = some flight) :
    server.request? id = some flight.request := by
  rw [request?, h]
  rfl

theorem response?_of_flight {flight : Flight} (h : server.flights id = some flight) :
    server.response? id = flight.response? := by
  rw [response?, h]
  rfl

theorem kept_place {db : Database} {stage : Stage}
    (hrequest : ∀ request', server.request? id = some request' → request' = request)
    (hresponse : ∀ response, server.response? id = some response →
      Flight.response? ⟨request, stage⟩ = some response) :
    server.Kept (({ server with db := db } : Server).place id request stage) where
  request := by
    intro id' request' hrequest'
    by_cases hid : id' = id
    · subst hid
      rw [request?_place_same, hrequest request' hrequest']
    · rwa [request?, flights_place_other hid]
  response := by
    intro id' response hresponse'
    by_cases hid : id' = id
    · subst hid
      rw [response?_place_same, hresponse response hresponse']
    · rwa [response?, flights_place_other hid]

theorem Took.kept (h : server.Took peers action server') : server.Kept server' := by
  cases h with
  | arrived id request hflight =>
    have hrequest : server.request? id = none := by rw [request?, hflight]; rfl
    have hresponse : server.response? id = none := by rw [response?, hflight]; rfl
    exact kept_place (by simp [hrequest]) (by simp [hresponse])
  | refused id request hflight | planned id request hflight | executed id request op hflight =>
    have hrequest := request?_of_flight hflight
    have hresponse := response?_of_flight hflight
    exact kept_place (by simp [hrequest]) (by simp [hresponse, Flight.response?])
  | answered id request stage response hflight _ hsettled =>
    have hrequest := request?_of_flight hflight
    have hresponse := (response?_of_flight hflight).trans hsettled
    exact kept_place (by simp [hrequest]) (by simp [hresponse, Flight.response?])

theorem kept_of_run? :
    ∀ {server : Server}, run? peers actions server = some server' → server.Kept server' := by
  induction actions with
  | nil =>
    intro server hrun
    cases hrun
    exact ⟨fun _ _ h => h, fun _ _ h => h⟩
  | cons action actions ih =>
    intro server hrun
    obtain ⟨next, hstep, hrest⟩ := Option.bind_eq_some_iff.mp hrun
    exact (took_of_step? hstep).kept.trans (ih hrest)

theorem Took.arrived_or (h : server.Took peers action server')
    (hrequest : server'.request? id = some request) :
    action = .arrive id request ∨ server.request? id = some request := by
  by_cases hid : id = action.id
  · subst hid
    cases h with
    | arrived id' request' =>
      rw [Action.id, request?_place_same] at hrequest
      cases hrequest
      exact Or.inl rfl
    | refused id' request' hflight | planned id' request' hflight
    | executed id' request' op hflight | answered id' request' stage response hflight =>
      rw [Action.id, request?_place_same] at hrequest
      rw [Action.id, request?_of_flight hflight]
      exact Or.inr hrequest
  · rw [request?, h.flights_other hid] at hrequest
    exact Or.inr hrequest

/-- A request that is there has arrived. -/
theorem arrived_of_run? : ∀ {server : Server}, run? peers actions server = some server' →
    server'.request? id = some request →
    .arrive id request ∈ actions ∨ server.request? id = some request := by
  induction actions with
  | nil =>
    intro server hrun hrequest
    cases hrun
    exact Or.inr hrequest
  | cons action actions ih =>
    intro server hrun hrequest
    obtain ⟨next, hstep, hrest⟩ := Option.bind_eq_some_iff.mp hrun
    rcases ih hrest hrequest with hmem | hnext
    · exact Or.inl (List.mem_cons_of_mem action hmem)
    · rcases (took_of_step? hstep).arrived_or hnext with rfl | hbefore
      · exact Or.inl List.mem_cons_self
      · exact Or.inr hbefore

/-! ## The order of steps -/

/-- The rank of the last step that a request has taken. -/
def rank (server : Server) (id : Nat) : Nat := (server.flights id).elim 0 (·.stage.rank)

theorem rank_place (server : Server) (id id' : Nat) (request : Request) (stage : Stage) :
    (server.place id request stage).rank id' = if id' = id then stage.rank else server.rank id' := by
  by_cases hid : id' = id
  · subst hid
    rw [rank, flights_place_same, if_pos rfl]
    rfl
  · rw [rank, flights_place_other hid, if_neg hid]
    rfl

theorem rank_of_flight {stage : Stage} (h : server.flights id = some ⟨request, stage⟩) :
    server.rank id = stage.rank := by
  rw [rank, h]
  rfl

/-- A step takes its request, and no other one, further. -/
theorem Took.rank (h : server.Took peers action server') :
    server.rank action.id < action.rank ∧
      ∀ id, server'.rank id = if id = action.id then action.rank else server.rank id := by
  cases h with
  | arrived id request hflight =>
    refine ⟨?_, fun id' => rank_place _ _ _ _ _⟩
    have hrank : server.rank id = 0 := by
      rw [Server.rank, hflight]
      rfl
    simp [Action.id, Action.rank, hrank]
  | refused id request hflight | planned id request hflight | executed id request op hflight =>
    refine ⟨?_, fun id' => rank_place _ _ _ _ _⟩
    simp [Action.id, Action.rank, rank_of_flight hflight, Stage.rank]
  | answered id request stage response hflight hsettled _ =>
    refine ⟨?_, fun id' => rank_place _ _ _ _ _⟩
    rcases hsettled with ⟨refusal, rfl⟩ | ⟨op, result, rfl⟩
    · simp [Action.id, Action.rank, rank_of_flight hflight, Stage.rank]
    · simp [Action.id, Action.rank, rank_of_flight hflight, Stage.rank]

/-- The steps of a request are taken in their order, each of them at most once. -/
theorem inOrder_of_run? : ∀ {server : Server}, run? peers actions server = some server' →
    (∀ action ∈ actions, server.rank action.id < action.rank) ∧ InOrder actions := by
  induction actions with
  | nil => exact fun _ => ⟨fun _ hmem => (nomatch hmem), List.Pairwise.nil⟩
  | cons action actions ih =>
    intro server hrun
    obtain ⟨next, hstep, hrest⟩ := Option.bind_eq_some_iff.mp hrun
    obtain ⟨hless, hnext⟩ := (took_of_step? hstep).rank
    obtain ⟨hmore, hpairwise⟩ := ih hrest
    refine ⟨?_, List.pairwise_cons.mpr ⟨?_, hpairwise⟩⟩
    · intro later hmem
      rcases List.mem_cons.mp hmem with rfl | hmem
      · exact hless
      · have hlater := hmore later hmem
        rw [hnext] at hlater
        split at hlater
        · next hid =>
          rw [hid]
          omega
        · exact hlater
    · intro later hmem hid
      have hlater := hmore later hmem
      rwa [hnext, if_pos hid.symm] at hlater

end Server

end Http

end ControlPlane
