import ControlPlane.Proofs.Service.OperationRun

/-!
# The life cycle of a lock

In every history of operations on a new store the lock on a name comes and goes in one way: a
request that finds the name unlocked takes it, and the holder gives it back. Nothing else touches
it. `LockStep` says what one operation does to the lock on a name and what it answers about it, and
`contestReplies_of_free` that of the requests for a free lock exactly one takes it, the first, until
the lock is given back.
-/

namespace ControlPlane

namespace Operation

variable {db : Database} {name : String}

/-! ## The lock after an operation -/

/-- The lock on a name after an operation, given the lock before it. -/
def lockAfter (name : String) (held : Option Lock) : Operation → Option Lock
  | .acquire name' request => if name' = name then some (held.getD (request.lockOn name)) else held
  | .release name' token =>
    if name' = name then held.filter fun lock => lock.token ≠ token else held
  | _ => held

/-- The lock on a name develops by `lockAfter` alone, whatever else the store holds. -/
theorem record?_lock_run (h : db.Intact) {op : Operation} (hop : op.Fits) (name : String) :
    (op.run db).2.record? .lock name = op.lockAfter name (db.record? .lock name) := by
  cases op with
  | acquire name' request =>
    rw [run_acquire h, lockAfter]
    by_cases hn : name' = name
    · subst hn
      cases hl : db.record? .lock name' with
      | none =>
        simp only [if_true, Option.getD_none]
        rw [Database.record?_keep_same .lock hop]
        exact if_pos rfl
      | some lock => simp only [if_true, Option.getD_some, hl]
    · rw [if_neg hn]
      cases db.record? .lock name' with
      | none =>
        dsimp only
        rw [Database.record?_keep_same .lock hop]
        exact if_neg hn
      | some lock => rfl
  | release name' token =>
    rw [run_release h, lockAfter]
    by_cases hn : name' = name
    · subst hn
      cases hl : db.record? .lock name' with
      | none => simp only [if_true, Option.filter_none, hl]
      | some lock =>
        by_cases ht : lock.token = token
        · simp [ht, Database.record?_drop_same, Option.filter]
        · simp [ht, hl, Option.filter]
    · rw [if_neg hn]
      cases db.record? .lock name' with
      | none => rfl
      | some lock =>
        dsimp only
        split
        · rw [Database.record?_drop_same, if_neg hn]
        · rfl
  | listStates | getState | listLocks | getLock | listGates | getGate | getConfig => rfl
  | putState | deleteState | createGate | updateGate | deleteGate | setConfig | deleteConfig =>
    exact record?_run_other h (by simp [writes]) name

/-- What an operation does to the lock on a name and what it answers about it. -/
structure LockStep (name : String) (db : Database) (op : Operation) : Prop where
  /-- A lock appears only when a request takes it, and it is the lock of that request. -/
  appears : ∀ lock, db.record? .lock name = none → (op.run db).2.record? .lock name = some lock →
    ∃ request, op = .acquire name request ∧ lock = request.lockOn name
  /-- A request takes a lock that is free. -/
  taken : ∀ request, db.record? .lock name = none → op = .acquire name request →
    (op.run db).1 = .ok (.lock (request.lockOn name)) ∧
      (op.run db).2.record? .lock name = some (request.lockOn name)
  /-- A lock stays as it is, or disappears when its holder gives it back. -/
  stays : ∀ lock, db.record? .lock name = some lock →
    (op.run db).2.record? .lock name = some lock ∨
      (op.run db).2.record? .lock name = none ∧ op = .release name lock.token
  /-- The holder can give a lock back. -/
  given_back : ∀ lock, db.record? .lock name = some lock → op = .release name lock.token →
    (op.run db).1 = .ok .done ∧ (op.run db).2.record? .lock name = none
  /-- A lock that is held is refused to everybody, its holder included. -/
  refused : ∀ lock request, db.record? .lock name = some lock → op = .acquire name request →
    (op.run db).1 = .error (.alreadyLocked lock)
  /-- Nobody but the holder writes the state or gives the lock back. -/
  guarded : ∀ lock token, db.record? .lock name = some lock → token ≠ lock.token →
    ((∃ payload, op = .putState name token payload) ∨ op = .release name token) →
    (op.run db).1 = .error (.lockConflict lock)
  /-- Giving back a lock that nobody holds succeeds and changes nothing. -/
  idle : ∀ token, db.record? .lock name = none → op = .release name token →
    op.run db = (.ok .done, db)

/-- Every operation that fits is a step in the life of the lock on every name. -/
theorem lockStep_of_intact (h : db.Intact) {op : Operation} (hop : op.Fits) (name : String) :
    LockStep name db op := by
  have hrun := record?_lock_run h hop name
  constructor
  case appears =>
    intro lock hl hl'
    rw [hrun, hl] at hl'
    cases op with
    | acquire name' request =>
      rw [lockAfter] at hl'
      split at hl'
      · next hn =>
        subst hn
        exact ⟨request, rfl, (Option.some.inj hl').symm⟩
      · cases hl'
    | release name' token =>
      rw [lockAfter, Option.filter_none, ite_self] at hl'
      cases hl'
    | _ => cases hl'
  case taken =>
    rintro request hl rfl
    refine ⟨by rw [run_acquire h, hl], ?_⟩
    rw [hrun, hl, lockAfter, if_pos rfl]
    rfl
  case stays =>
    intro lock hl
    rw [hrun, hl]
    cases op with
    | acquire name' request =>
      left
      rw [lockAfter, Option.getD_some, ite_self]
    | release name' token =>
      rw [lockAfter]
      by_cases hn : name' = name
      · by_cases ht : lock.token = token
        · subst hn ht
          right
          exact ⟨by simp [Option.filter], rfl⟩
        · left
          simp [hn, ht, Option.filter]
      · left
        rw [if_neg hn]
    | _ => exact Or.inl rfl
  case given_back =>
    rintro lock hl rfl
    refine ⟨?_, ?_⟩
    · rw [run_release h, hl]
      exact congrArg Prod.fst (if_pos rfl)
    · rw [hrun, hl, lockAfter, if_pos rfl]
      simp [Option.filter]
  case refused =>
    rintro lock request hl rfl
    rw [run_acquire h, hl]
  case guarded =>
    rintro lock token hl ht (⟨payload, rfl⟩ | rfl)
    · rw [run_putState h, hl]
      exact congrArg Prod.fst (if_neg fun he => ht he.symm)
    · rw [run_release h, hl]
      exact congrArg Prod.fst (if_neg fun he => ht he.symm)
  case idle =>
    rintro token hl rfl
    rw [run_release h, hl]

/-! ## Competing requests -/

/-- The request that an operation makes for the lock on a name. -/
def requestFor? (name : String) : Operation → Option LockRequest
  | .acquire name' request => if name' = name then some request else none
  | _ => none

/-- The answers to the requests for the lock on a name among operations, in their order. -/
def contestReplies (name : String) (ops : List Operation) (db : Database) :
    List (Except ClusterError Reply) :=
  ((ops.zip (runAll ops db).1).filter fun entry => (entry.1.requestFor? name).isSome).map Prod.snd

theorem contestReplies_cons (name : String) (op : Operation) (ops : List Operation)
    (db : Database) :
    contestReplies name (op :: ops) db =
      if (op.requestFor? name).isSome then (op.run db).1 :: contestReplies name ops (op.run db).2
      else contestReplies name ops (op.run db).2 := by
  unfold contestReplies
  rw [runAll, List.zip_cons_cons, List.filter_cons]
  dsimp only
  split <;> rfl

theorem eq_acquire_of_requestFor? {op : Operation} {request : LockRequest}
    (h : op.requestFor? name = some request) : op = .acquire name request := by
  cases op with
  | acquire name' request' =>
    rw [requestFor?] at h
    split at h
    · next hn => rw [hn, Option.some.inj h]
    · cases h
  | _ => cases h

/-- While a lock is held and not given back, all requests for it are refused with the lock. -/
theorem contestReplies_of_locked {ops : List Operation} (hops : ∀ op ∈ ops, op.Fits)
    (hrel : ∀ token, release name token ∉ ops) {lock : Lock} :
    ∀ {db : Database}, db.Intact → db.record? .lock name = some lock →
      contestReplies name ops db =
        List.replicate (ops.filterMap (requestFor? name)).length (.error (.alreadyLocked lock)) := by
  induction ops with
  | nil => intro db _ _; rfl
  | cons op ops ih =>
    intro db h hl
    have hop := hops op List.mem_cons_self
    have hstep := lockStep_of_intact h hop name
    -- what the induction carries along is that the lock is still held
    have hl' : (op.run db).2.record? .lock name = some lock := by
      rcases hstep.stays lock hl with hs | ⟨-, rfl⟩
      · exact hs
      · exact absurd List.mem_cons_self (hrel lock.token)
    have hrest := ih (fun o ho => hops o (List.mem_cons_of_mem op ho))
      (fun token ht => hrel token (List.mem_cons_of_mem op ht)) (run_intact h hop) hl'
    rw [contestReplies_cons, hrest]
    cases hr : op.requestFor? name with
    | none => simp [hr]
    | some request =>
      rw [hstep.refused lock request hl (eq_acquire_of_requestFor? hr)]
      simp [hr, List.replicate_succ]

/-- Of the requests for a free lock the first one takes it, and the others are refused with it. -/
theorem contestReplies_of_free {ops : List Operation} (hops : ∀ op ∈ ops, op.Fits)
    (hrel : ∀ token, release name token ∉ ops) {first : LockRequest} {rest : List LockRequest}
    (hreq : ops.filterMap (requestFor? name) = first :: rest) :
    ∀ {db : Database}, db.Intact → db.record? .lock name = none →
      contestReplies name ops db = .ok (.lock (first.lockOn name)) ::
        List.replicate rest.length (.error (.alreadyLocked (first.lockOn name))) := by
  induction ops with
  | nil => cases hreq
  | cons op ops ih =>
    intro db h hl
    have hop := hops op List.mem_cons_self
    have hops' : ∀ o ∈ ops, o.Fits := fun o ho => hops o (List.mem_cons_of_mem op ho)
    have hrel' : ∀ token, release name token ∉ ops :=
      fun token ht => hrel token (List.mem_cons_of_mem op ht)
    have hstep := lockStep_of_intact h hop name
    rw [contestReplies_cons]
    cases hr : op.requestFor? name with
    | none =>
      rw [List.filterMap_cons, hr] at hreq
      have hl' : (op.run db).2.record? .lock name = none := by
        cases hn : (op.run db).2.record? .lock name with
        | none => rfl
        | some lock =>
          obtain ⟨request, rfl, -⟩ := hstep.appears lock hl hn
          simp [requestFor?] at hr
      exact ih hops' hrel' hreq (run_intact h hop) hl'
    | some request =>
      rw [List.filterMap_cons, hr] at hreq
      obtain ⟨rfl, hrest⟩ := List.cons.inj hreq
      obtain ⟨hok, hl'⟩ := hstep.taken request hl (eq_acquire_of_requestFor? hr)
      rw [hok, contestReplies_of_locked hops' hrel' (run_intact h hop) hl', hrest]
      rfl

/-! ## Every history -/

/--
After every history of operations on a new store every operation is a step in the life of the lock
on every name, where the lock is the row of the name in the table of locks. Of the requests for a
free lock among operations that do not give it back the first takes it, and the others are refused
with it.
-/
theorem lock_life_cycle (name : String) (history : List Operation) (hh : ∀ op ∈ history, op.Fits) :
    let db := (runAll history Schema.fresh).2
    Schema.fresh.row? RecordKind.lock.table name = none ∧
    db.row? RecordKind.lock.table name =
      (db.record? .lock name).map (RecordKind.encode .lock) ∧
    (∀ op : Operation, op.Fits → LockStep name db op) ∧
    ∀ contest : List Operation, (∀ op ∈ contest, op.Fits) →
      (∀ token, release name token ∉ contest) → db.record? .lock name = none →
      ∀ first rest, contest.filterMap (requestFor? name) = first :: rest →
        contestReplies name contest db = .ok (.lock (first.lockOn name)) ::
          List.replicate rest.length (.error (.alreadyLocked (first.lockOn name))) := by
  intro db
  have hdb : db.Intact := runAll_intact hh Schema.fresh_intact
  refine ⟨?_, hdb.row?_eq_map .lock name, ?_, ?_⟩
  · rw [Schema.fresh_intact.row?_eq_map .lock name, Schema.record?_fresh]
    rfl
  · intro op hop
    exact lockStep_of_intact hdb hop name
  · intro contest hc hrel hfree first rest hreq
    exact contestReplies_of_free hc hrel hreq hdb hfree

/-- The lock on `plan` is taken and given back, and then two clients compete for it. -/
theorem lock_life_cycle_plan :
    contestReplies "plan"
        [acquire "plan" ⟨"b", "{}"⟩, putState "plan" "c" ⟨#[1]⟩, acquire "plan" ⟨"c", "[]"⟩]
        (runAll [acquire "plan" ⟨"a", "{}"⟩, release "plan" "a"] Schema.fresh).2 =
      [.ok (.lock ⟨"plan", "b", "{}"⟩), .error (.alreadyLocked ⟨"plan", "b", "{}"⟩)] := by
  have hh : ∀ op ∈ [acquire "plan" ⟨"a", "{}"⟩, release "plan" "a"], op.Fits := by
    simp [Fits, RecordKind.Fits, LockRequest.lockOn, RowForm.lengthLimit]
    decide
  refine (lock_life_cycle "plan" _ hh).2.2.2 _ ?_ ?_ ?_ ⟨"b", "{}"⟩ [⟨"c", "[]"⟩] rfl
  · simp [Fits, RecordKind.Fits, LockRequest.lockOn, RowForm.lengthLimit]
    decide
  · simp
  · decide +kernel

end Operation

end ControlPlane
