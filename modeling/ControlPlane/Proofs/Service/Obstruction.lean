import ControlPlane.Proofs.Service.OperationEffect

/-!
# Locks in the way

An operation fails because of a lock in three cases only: a lock is taken where there is one, or a state
is written or a lock given back with another token than that of the lock (`Operation.Obstructed`). The
error then carries the record of the lock under the very name, whatever the database holds. No step of
a transaction has such an error of its own (`Tx.Unobstructed`), so it comes from the operation.
-/

namespace ControlPlane

variable {db : Database} {e : ClusterError}

/-! ## Steps of transactions -/

/-- Whether a transaction never fails because of a lock. -/
def Tx.Unobstructed {α : Type} (tx : Tx α) : Prop :=
  ∀ (db : Database) (e : ClusterError), (tx db).1 = .error e → e.lock? = none

namespace Tx

variable {α β : Type}

theorem Unobstructed.bind {x : Tx α} {f : α → Tx β} (hx : x.Unobstructed)
    (hf : ∀ value, (f value).Unobstructed) : (x >>= f).Unobstructed := by
  intro db e h
  rw [bind_run] at h
  rcases hrun : x db with ⟨e' | value, db'⟩
  · rw [hrun] at h
    cases h
    exact hx db e (congrArg Prod.fst hrun)
  · rw [hrun] at h
    exact hf value db' e h

theorem unobstructed_pure (value : α) : (pure value : Tx α).Unobstructed := nofun

theorem unobstructed_throw (h : e.lock? = none) : (throw e : Tx α).Unobstructed := by
  intro db e' he
  cases he
  exact h

theorem unobstructed_lift {x : Except ClusterError α} (h : ∀ e, x = .error e → e.lock? = none) :
    (liftM x : Tx α).Unobstructed := by
  intro db e he
  rw [lift_run] at he
  exact h e he

variable (kind : RecordKind)

theorem lock?_of_decodeRow {row : ByteArray} (h : decodeRow kind row = .error e) : e.lock? = none := by
  unfold decodeRow at h
  split at h
  · cases h
  · cases h
    rfl

theorem unobstructed_rows : (Tx.rows kind).Unobstructed := by
  intro db e h
  unfold rows at h
  split at h
  · cases h
  · cases h
    rfl

theorem unobstructed_find (key : String) : (Tx.find kind key).Unobstructed := by
  refine (unobstructed_rows kind).bind fun rows => unobstructed_lift fun e h => ?_
  cases hrow : rows[key]? with
  | none =>
    rw [hrow] at h
    cases h
  | some row =>
    rw [hrow, decodeRow?] at h
    cases hd : decodeRow kind row with
    | ok record =>
      rw [hd] at h
      cases h
    | error e' =>
      rw [hd] at h
      cases h
      exact lock?_of_decodeRow kind hd

theorem unobstructed_get (key : String) : (Tx.get kind key).Unobstructed := by
  refine (unobstructed_find kind key).bind fun found => ?_
  cases found with
  | none => exact unobstructed_throw rfl
  | some record => exact unobstructed_pure record

theorem unobstructed_list : (Tx.list kind).Unobstructed := by
  refine (unobstructed_rows kind).bind fun rows => unobstructed_lift fun e h => ?_
  unfold decodeRows at h
  generalize rows.values = values at h
  induction values with
  | nil => cases h
  | cons row values ih =>
    rw [List.mapM_cons] at h
    cases hd : decodeRow kind row with
    | error e' =>
      rw [hd] at h
      cases h
      exact lock?_of_decodeRow kind hd
    | ok record =>
      rw [hd] at h
      cases hrest : values.mapM (decodeRow kind) with
      | error e' =>
        rw [hrest] at h
        cases h
        exact ih hrest
      | ok records =>
        rw [hrest] at h
        cases h

theorem unobstructed_create (record : kind.Carrier) : (Tx.create kind record).Unobstructed := by
  refine (unobstructed_rows kind).bind fun rows => ?_
  split
  · exact unobstructed_throw rfl
  · exact nofun

theorem unobstructed_update (record : kind.Carrier) : (Tx.update kind record).Unobstructed := by
  refine (unobstructed_rows kind).bind fun rows => ?_
  split
  · exact nofun
  · exact unobstructed_throw rfl

theorem unobstructed_upsert (record : kind.Carrier) : (Tx.upsert kind record).Unobstructed :=
  (unobstructed_rows kind).bind fun _ => nofun

theorem unobstructed_delete (key : String) : (Tx.delete kind key).Unobstructed := by
  refine (unobstructed_rows kind).bind fun rows => ?_
  split
  · exact nofun
  · exact unobstructed_throw rfl

end Tx

/-! ## Operations -/

/-- The error of an operation that finds a lock in its way. -/
inductive Operation.Obstructed (db : Database) : Operation → ClusterError → Prop where
  /-- The lock is taken already. -/
  | acquire {name : String} {request : LockRequest} {lock : Lock}
    (hlock : db.record? .lock name = some lock) :
    Obstructed db (.acquire name request) (.alreadyLocked lock)
  /-- The state is locked under another token. -/
  | putState {name token : String} {payload : ByteArray} {lock : Lock}
    (hlock : db.record? .lock name = some lock) (htoken : lock.token ≠ token) :
    Obstructed db (.putState name token payload) (.lockConflict lock)
  /-- The lock is held under another token. -/
  | release {name token : String} {lock : Lock} (hlock : db.record? .lock name = some lock)
    (htoken : lock.token ≠ token) : Obstructed db (.release name token) (.lockConflict lock)

namespace Operation

/-- What an operation that reads fails with is what its query fails with. -/
theorem of_query_error {α β : Type} {f : α → β} {x : Except ClusterError α}
    (h : f <$> x = .error e) : x = .error e := by
  cases x with
  | error e' =>
    cases h
    rfl
  | ok value => cases h

/-- What an operation that writes fails with is what its transaction fails with. -/
theorem of_commit_error {α : Type} {f : α → Reply} {tx : Tx α}
    (h : (db.commit (f <$> tx)).1 = .error e) : (tx db).1 = .error e := by
  unfold Database.commit at h
  rw [Tx.map_run] at h
  rcases hrun : tx db with ⟨e' | value, db'⟩
  · rw [hrun] at h
    cases h
    rfl
  · rw [hrun] at h
    cases h

/-- A lock gets into the way only behind the look for it, which finds the record. -/
theorem of_find_error {α : Type} {name : String} {f : Option Lock → Tx α}
    (h : ((Tx.find .lock name >>= f) db).1 = .error e) (hlock : e.lock? ≠ none) :
    ∃ db', (f (db.record? .lock name) db').1 = .error e := by
  rw [Tx.bind_run] at h
  rcases hfind : Tx.find .lock name db with ⟨e' | found, db'⟩
  · rw [hfind] at h
    cases h
    exact absurd (Tx.unobstructed_find .lock name db e (congrArg Prod.fst hfind)) hlock
  · rw [hfind] at h
    obtain ⟨-, rows, hrows, hfound⟩ := Tx.of_find hfind
    rw [Query.record?_of_rows hrows hfound]
    exact ⟨db', h⟩

theorem obstructed_of_run {op : Operation} (h : (op.run db).1 = .error e) (hlock : e.lock? ≠ none) :
    op.Obstructed db e := by
  have hnone {α : Type} {tx : Tx α} (htx : tx.Unobstructed) (h : (tx db).1 = .error e) :
      op.Obstructed db e := absurd (htx db e h) hlock
  cases op with
  | listStates =>
    have hlist := of_query_error (of_query_error h)
    rw [Query.list_eq_fst] at hlist
    exact hnone (Tx.unobstructed_list .state) hlist
  | listLocks =>
    have hlist := of_query_error h
    rw [StateLock.listLocks, Query.list_eq_fst] at hlist
    exact hnone (Tx.unobstructed_list .lock) hlist
  | listGates =>
    have hlist := of_query_error h
    rw [GateRegistry.list, Query.list_eq_fst] at hlist
    exact hnone (Tx.unobstructed_list .gate) hlist
  | getState name =>
    have hget := of_query_error h
    rw [StateLock.getState, Query.get_eq_fst] at hget
    exact hnone (Tx.unobstructed_get .state name) hget
  | getLock name =>
    have hget := of_query_error h
    rw [StateLock.getLock, Query.get_eq_fst] at hget
    exact hnone (Tx.unobstructed_get .lock name) hget
  | getGate key =>
    have hget := of_query_error h
    rw [GateRegistry.get, Query.get_eq_fst] at hget
    exact hnone (Tx.unobstructed_get .gate key) hget
  | getConfig key =>
    have hget := of_query_error (of_query_error h)
    rw [Query.get_eq_fst] at hget
    exact hnone (Tx.unobstructed_get .config key) hget
  | deleteState name => exact hnone (Tx.unobstructed_delete .state name) (of_commit_error h)
  | createGate key enabled => exact hnone (Tx.unobstructed_create .gate _) (of_commit_error h)
  | deleteGate key => exact hnone (Tx.unobstructed_delete .gate key) (of_commit_error h)
  | deleteConfig key => exact hnone (Tx.unobstructed_delete .config key) (of_commit_error h)
  | setConfig key value =>
    refine hnone ?_ (of_commit_error h)
    exact (Tx.unobstructed_upsert .config _).bind fun _ => Tx.unobstructed_pure _
  | updateGate key enabled =>
    refine hnone ?_ (of_commit_error h)
    exact (Tx.unobstructed_get .gate key).bind fun _ => Tx.unobstructed_update .gate _
  | putState name token payload =>
    obtain ⟨db', htx⟩ := of_find_error (of_commit_error h) hlock
    have hwrite : Tx.Unobstructed (do let _ ← Tx.upsert .state ⟨name, payload⟩ : Tx Unit) :=
      (Tx.unobstructed_upsert .state _).bind fun _ => Tx.unobstructed_pure _
    cases hfound : db.record? .lock name with
    | none =>
      rw [hfound] at htx
      exact absurd (hwrite db' e htx) hlock
    | some lock =>
      rw [hfound] at htx
      dsimp only at htx
      split at htx
      · next htoken =>
        cases htx
        exact .putState hfound htoken
      · exact absurd (hwrite db' e htx) hlock
  | acquire name request =>
    obtain ⟨db', htx⟩ := of_find_error (of_commit_error h) hlock
    cases hfound : db.record? .lock name with
    | none =>
      rw [hfound] at htx
      have hcreate := (Tx.unobstructed_create .lock (request.lockOn name)).bind fun _ =>
        Tx.unobstructed_pure (request.lockOn name)
      exact absurd (hcreate db' e htx) hlock
    | some lock =>
      rw [hfound] at htx
      cases htx
      exact .acquire hfound
  | release name token =>
    obtain ⟨db', htx⟩ := of_find_error (of_commit_error h) hlock
    cases hfound : db.record? .lock name with
    | none =>
      rw [hfound] at htx
      cases htx
    | some lock =>
      rw [hfound] at htx
      dsimp only at htx
      split at htx
      · next htoken =>
        cases htx
        exact .release hfound htoken
      · exact absurd (Tx.unobstructed_delete .lock name db' e htx) hlock

end Operation

end ControlPlane
