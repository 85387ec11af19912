import ControlPlane.Proofs.Service.LockLifeCycle
import ControlPlane.Proofs.Text.Utf8Order
import Mathlib.Data.List.Induction

/-!
# A state is a register guarded by a lock

A history of operations and what they were answered decide what a state is: the payload of the last
write that succeeded, unless it was removed since (`LastWritten`). While a name is locked nobody but
the holder changes its state, except that anybody may remove it.
-/

namespace ControlPlane

namespace Operation

variable {db : Database} {name : String} {payload : ByteArray}

/-! ## The state after an operation -/

/-- An operation and what it was answered. -/
abbrev Answered := Operation × Except ClusterError Reply

/-- The state under a name after an operation was answered, given the state before it. -/
def stateAfter (name : String) (held : Option StateEntry) (entry : Answered) : Option StateEntry :=
  match entry with
  | (.putState name' _ payload, .ok _) => if name' = name then some ⟨name, payload⟩ else held
  | (.deleteState name', .ok _) => if name' = name then none else held
  | _ => held

/-- The state under a name develops by `stateAfter` alone, whatever else the store holds. -/
theorem record?_state_run (h : db.Intact) {op : Operation} (hop : op.Fits) (name : String) :
    (op.run db).2.record? .state name =
      stateAfter name (db.record? .state name) (op, (op.run db).1) := by
  cases op with
  | putState name' token payload =>
    have hkeep : (db.keep .state ⟨name', payload⟩).record? .state name =
        if name' = name then some ⟨name, payload⟩ else db.record? .state name := by
      rw [Database.record?_keep_same .state hop]
      by_cases hn : name' = name
      · subst hn
        rfl
      · exact (if_neg hn).trans (if_neg hn).symm
    rw [run_putState h]
    cases db.record? .lock name' with
    | none => exact hkeep
    | some lock =>
      dsimp only
      split
      · exact hkeep
      · rfl
  | deleteState name' =>
    rw [run_deleteState h]
    cases hs : db.record? .state name' with
    | some entry => exact Database.record?_drop_same db .state name' name
    | none => rfl
  | listStates | getState | listLocks | getLock | listGates | getGate | getConfig => rfl
  | acquire | release | createGate | updateGate | deleteGate | setConfig | deleteConfig =>
    exact record?_run_other h (by simp [writes]) name

/-- Where one operation makes of the record under a key what its answer tells, so do operations one after
another. -/
theorem record?_runAll_of_step {kind : RecordKind} {key : String}
    {after : Option kind.Carrier → Answered → Option kind.Carrier}
    (hstep : ∀ {db : Database} {op : Operation}, db.Intact → op.Fits →
      (op.run db).2.record? kind key = after (db.record? kind key) (op, (op.run db).1))
    {ops : List Operation} (hops : ∀ op ∈ ops, op.Fits) :
    ∀ {db : Database}, db.Intact → (runAll ops db).2.record? kind key =
      (ops.zip (runAll ops db).1).foldl after (db.record? kind key) := by
  induction ops with
  | nil => exact fun _ => rfl
  | cons op ops ih =>
    intro db h
    have hop := hops op List.mem_cons_self
    have hrest := ih (fun o ho => hops o (List.mem_cons_of_mem op ho)) (run_intact h hop)
    show (runAll ops (op.run db).2).2.record? kind key = _
    rw [hrest, hstep h hop]
    rfl

theorem record?_state_runAll {ops : List Operation} (hops : ∀ op ∈ ops, op.Fits) (name : String)
    {db : Database} (h : db.Intact) : (runAll ops db).2.record? .state name =
      (ops.zip (runAll ops db).1).foldl (stateAfter name) (db.record? .state name) :=
  record?_runAll_of_step (fun h hop => record?_state_run h hop name) hops h

/-! ## The last write -/

/-- Whether an operation that succeeded has written or removed the state under a name. -/
def Settles (name : String) (entry : Answered) : Prop :=
  (∃ reply, entry.2 = .ok reply) ∧
    ((∃ token payload, entry.1 = .putState name token payload) ∨ entry.1 = .deleteState name)

/-- Whether a payload was written under a name by the last write that succeeded, and the state was not
removed since. -/
def LastWritten (name : String) (payload : ByteArray) (trace : List Answered) : Prop :=
  ∃ before token reply after, trace = before ++ (.putState name token payload, .ok reply) :: after ∧
    ∀ entry ∈ after, ¬ Settles name entry

theorem stateAfter_of_not_settles {entry : Answered} (h : ¬ Settles name entry)
    (held : Option StateEntry) : stateAfter name held entry = held := by
  unfold stateAfter
  split
  · next name' token payload reply =>
    rw [if_neg]
    rintro rfl
    exact h ⟨⟨reply, rfl⟩, Or.inl ⟨token, payload, rfl⟩⟩
  · next name' reply =>
    rw [if_neg]
    rintro rfl
    exact h ⟨⟨reply, rfl⟩, Or.inr rfl⟩
  · rfl

/-- After an operation that settles the state there is one exactly if the operation has written it. -/
theorem stateAfter_of_settles {entry : Answered} (h : Settles name entry)
    (held : Option StateEntry) :
    stateAfter name held entry = some ⟨name, payload⟩ ↔
      ∃ token reply, entry = (.putState name token payload, .ok reply) := by
  obtain ⟨op, result⟩ := entry
  obtain ⟨⟨reply, hreply⟩, hop⟩ := h
  dsimp only at hreply hop
  subst hreply
  rcases hop with ⟨token, payload', rfl⟩ | rfl
  · have hafter : stateAfter name held (.putState name token payload', .ok reply) =
        some ⟨name, payload'⟩ := if_pos rfl
    rw [hafter]
    constructor
    · intro heq
      cases heq
      exact ⟨token, reply, rfl⟩
    · rintro ⟨token', reply', hentry⟩
      cases hentry
      rfl
  · have hafter : stateAfter name held (.deleteState name, .ok reply) = none := if_pos rfl
    rw [hafter]
    constructor
    · intro heq
      cases heq
    · rintro ⟨token', reply', hentry⟩
      cases hentry

theorem lastWritten_append {trace : List Answered} {entry : Answered} :
    LastWritten name payload (trace ++ [entry]) ↔
      (∃ token reply, entry = (.putState name token payload, .ok reply)) ∨
        ¬ Settles name entry ∧ LastWritten name payload trace := by
  constructor
  · rintro ⟨before, token, reply, after, htrace, hafter⟩
    rcases List.eq_nil_or_concat after with rfl | ⟨after, last, rfl⟩
    · obtain ⟨-, hentry⟩ := List.append_inj' htrace rfl
      exact Or.inl ⟨token, reply, (List.cons.inj hentry).1⟩
    · right
      rw [List.concat_eq_append, ← List.cons_append, ← List.append_assoc] at htrace
      obtain ⟨hfront, hlast⟩ := List.append_inj' htrace rfl
      obtain rfl : entry = last := (List.cons.inj hlast).1
      refine ⟨hafter entry (by simp), before, token, reply, after, hfront, ?_⟩
      intro settled hmem
      exact hafter settled (by simp [hmem])
  · rintro (⟨token, reply, rfl⟩ | ⟨hentry, before, token, reply, after, rfl, hafter⟩)
    · refine ⟨trace, token, reply, [], rfl, ?_⟩
      intro entry hmem
      cases hmem
    · refine ⟨before, token, reply, after ++ [entry], by simp, ?_⟩
      intro settled hmem
      rcases List.mem_append.mp hmem with hmem | hmem
      · exact hafter settled hmem
      · rw [List.mem_singleton] at hmem
        rw [hmem]
        exact hentry

/-- What is left of a history is the last write. The induction takes the history from its end. -/
theorem foldl_stateAfter_iff (trace : List Answered) :
    trace.foldl (stateAfter name) none = some ⟨name, payload⟩ ↔ LastWritten name payload trace := by
  induction trace using List.reverseRecOn with
  | nil =>
    constructor
    · intro h
      cases h
    · rintro ⟨before, token, reply, after, htrace, -⟩
      cases before <;> cases htrace
  | append_singleton trace entry ih =>
    rw [List.foldl_append, List.foldl_cons, List.foldl_nil, lastWritten_append]
    by_cases hs : Settles name entry
    · rw [stateAfter_of_settles hs]
      constructor
      · exact fun hput => Or.inl hput
      · rintro (hput | ⟨hnot, -⟩)
        · exact hput
        · exact absurd hs hnot
    · rw [stateAfter_of_not_settles hs, ih]
      constructor
      · exact fun hlast => Or.inr ⟨hs, hlast⟩
      · rintro (⟨token, reply, rfl⟩ | ⟨-, hlast⟩)
        · exact absurd ⟨⟨reply, rfl⟩, Or.inl ⟨token, payload, rfl⟩⟩ hs
        · exact hlast

/-! ## What is read -/

/-- The answer to a reading of a state tells whether there is one and what it is. -/
theorem getState_eq_of_record? {db' : Database} (h : db.Intact) (h' : db'.Intact)
    (hs : db'.record? .state name = db.record? .state name) :
    ((getState name).run db').1 = ((getState name).run db).1 := by
  rw [run_getState h', run_getState h, hs]
  cases db.record? .state name <;> rfl

theorem getState_iff (h : db.Intact) :
    (getState name).run db = (.ok (.state ⟨name, payload⟩), db) ↔
      db.record? .state name = some ⟨name, payload⟩ := by
  rw [run_getState h]
  cases db.record? .state name with
  | none =>
    constructor
    · intro hrun
      cases hrun
    · intro hrecord
      cases hrecord
  | some entry =>
    constructor
    · intro hrun
      cases hrun
      rfl
    · intro hrecord
      cases hrecord
      rfl

theorem getState_notFound_iff (h : db.Intact) :
    (getState name).run db = (.error (.notFound .state name), db) ↔
      db.record? .state name = none := by
  rw [run_getState h]
  cases db.record? .state name with
  | none => exact ⟨fun _ => rfl, fun _ => rfl⟩
  | some entry =>
    constructor
    · intro hrun
      cases hrun
    · intro hrecord
      cases hrecord

/-- The names listed are those under which a state is found, in the order of their bytes. -/
theorem listStates_names (h : db.Intact) :
    ∃ names, listStates.run db = (.ok (.names names), db) ∧
      names.Pairwise (fun a b => Utf8.bytes a < Utf8.bytes b) ∧
      ∀ name, name ∈ names ↔ ∃ payload, (getState name).run db = (.ok (.state ⟨name, payload⟩), db) := by
  refine ⟨(db.records .state).map (·.name), run_listStates h, ?_, fun name => ?_⟩
  · rw [List.pairwise_map]
    exact (h.records_ascending .state).imp fun hab => Utf8.bytes_lt hab
  · rw [List.mem_map]
    constructor
    · rintro ⟨entry, hmem, rfl⟩
      exact ⟨entry.payload, (getState_iff h).mpr (h.mem_records.mp hmem)⟩
    · rintro ⟨payload, hget⟩
      exact ⟨⟨name, payload⟩, h.mem_records.mpr ((getState_iff h).mp hget), rfl⟩

/-! ## Writing and removing -/

/-- A state is written if its name is not locked or the token is that of the lock, and otherwise
nothing changes. -/
theorem putState_ok_iff (h : db.Intact) (token : String) :
    (((putState name token payload).run db).1 = .ok .done ↔
      db.record? .lock name = none ∨
        ∃ lock, db.record? .lock name = some lock ∧ lock.token = token) ∧
    (((putState name token payload).run db).1 ≠ .ok .done →
      ((putState name token payload).run db).2 = db) := by
  rw [run_putState h]
  cases db.record? .lock name with
  | none => exact ⟨⟨fun _ => Or.inl rfl, fun _ => rfl⟩, fun hne => absurd rfl hne⟩
  | some lock =>
    by_cases ht : lock.token = token
    · dsimp only
      rw [if_pos ht]
      exact ⟨⟨fun _ => Or.inr ⟨lock, rfl, ht⟩, fun _ => rfl⟩, fun hne => absurd rfl hne⟩
    · dsimp only
      rw [if_neg ht]
      refine ⟨⟨?_, ?_⟩, fun _ => rfl⟩
      · intro hok
        cases hok
      · rintro (hnone | ⟨lock', hlock, ht'⟩)
        · cases hnone
        · cases hlock
          exact absurd ht' ht

theorem deleteState_ok_iff (h : db.Intact) (name : String) :
    (((deleteState name).run db).1 = .ok .done ↔ db.record? .state name ≠ none) ∧
    ∀ key, ((deleteState name).run db).2.row? RecordKind.lock.table key =
      db.row? RecordKind.lock.table key := by
  have hlocks : ((deleteState name).run db).2.rowsOf .lock = db.rowsOf .lock :=
    rowsOf_run_other h (by simp [writes])
  refine ⟨?_, fun key => by rw [Database.row?_eq, hlocks, Database.row?_eq]⟩
  rw [run_deleteState h]
  cases db.record? .state name with
  | none =>
    constructor
    · intro hok
      cases hok
    · exact fun hne => absurd rfl hne
  | some entry =>
    constructor
    · intro _ hnone
      cases hnone
    · exact fun _ => rfl

/-! ## While a name is locked -/

theorem record?_lock_of_acquired (h : db.Intact) {request : LockRequest}
    (hfits : (acquire name request).Fits)
    (hacquire : ∃ reply, ((acquire name request).run db).1 = .ok reply) :
    ((acquire name request).run db).2.record? .lock name = some (request.lockOn name) := by
  obtain ⟨reply, hreply⟩ := hacquire
  have hstep := lockStep_of_intact h hfits name
  cases hl : db.record? .lock name with
  | none => exact (hstep.taken request hl rfl).2
  | some lock =>
    rw [hstep.refused lock request hl rfl] at hreply
    cases hreply

/-- A lock that is not given back stays. -/
theorem record?_lock_runAll {ops : List Operation} (hops : ∀ op ∈ ops, op.Fits) {lock : Lock} :
    ∀ {db : Database}, db.Intact → db.record? .lock name = some lock →
      (∀ entry ∈ ops.zip (runAll ops db).1, (∃ reply, entry.2 = .ok reply) →
        ∀ token, entry.1 ≠ release name token) →
      (runAll ops db).2.record? .lock name = some lock := by
  induction ops with
  | nil => exact fun _ hl _ => hl
  | cons op ops ih =>
    intro db h hl hheld
    have hop := hops op List.mem_cons_self
    have hstep := lockStep_of_intact h hop name
    have hl' : (op.run db).2.record? .lock name = some lock := by
      rcases hstep.stays lock hl with hs | ⟨-, hrelease⟩
      · exact hs
      · obtain ⟨hreply, -⟩ := hstep.given_back lock hl hrelease
        exact absurd hrelease (hheld _ List.mem_cons_self ⟨_, hreply⟩ lock.token)
    exact ih (fun o ho => hops o (List.mem_cons_of_mem op ho)) (run_intact h hop) hl'
      fun entry hmem => hheld entry (List.mem_cons_of_mem _ hmem)

/-- While a name is locked its state changes only by the token of the lock or by a removal. -/
theorem changes_of_locked (h : db.Intact) {op : Operation} (hop : op.Fits) {lock : Lock}
    (hl : db.record? .lock name = some lock)
    (hchange : (op.run db).2.record? .state name ≠ db.record? .state name) :
    (∃ payload, op = .putState name lock.token payload) ∨ op = .deleteState name := by
  rw [record?_state_run h hop] at hchange
  by_cases hs : Settles name (op, (op.run db).1)
  · obtain ⟨⟨reply, hreply⟩, ⟨token, payload, hput⟩ | hdelete⟩ := hs
    · left
      dsimp only at hreply hput
      refine ⟨payload, ?_⟩
      by_cases ht : token = lock.token
      · rw [← ht]
        exact hput
      · have hrefused :=
          (lockStep_of_intact h hop name).guarded lock token hl ht (Or.inl ⟨payload, hput⟩)
        rw [hrefused] at hreply
        cases hreply
    · exact Or.inr hdelete
  · exact absurd (stateAfter_of_not_settles hs _) hchange

/-! ## Every history -/

/-- What a state is after a history of operations, and what can be done to it. -/
structure Register (name : String) (trace : List Answered) (db : Database) : Prop where
  /-- It is written exactly if its name is not locked or the token is that of the lock. -/
  written : ∀ token payload, ((putState name token payload).run db).1 = .ok .done ↔
    db.record? .lock name = none ∨ ∃ lock, db.record? .lock name = some lock ∧ lock.token = token
  /-- A write that is refused changes nothing. -/
  refused : ∀ token payload, ((putState name token payload).run db).1 ≠ .ok .done →
    ((putState name token payload).run db).2 = db
  /-- It is removed exactly if there is one, locked or not. -/
  removed : ((deleteState name).run db).1 = .ok .done ↔ db.record? .state name ≠ none
  /-- Removing it changes no lock. -/
  locks : ∀ key, ((deleteState name).run db).2.row? RecordKind.lock.table key =
    db.row? RecordKind.lock.table key
  /-- What is read is the payload of the last write that succeeded, if it was not removed since. -/
  read : ∀ payload, (getState name).run db = (.ok (.state ⟨name, payload⟩), db) ↔
    LastWritten name payload trace
  /-- Otherwise it is not found. -/
  absent : (getState name).run db = (.error (.notFound .state name), db) ↔
    ¬ ∃ payload, LastWritten name payload trace
  /-- The names listed are those that can be read, each once and in the order of their bytes. -/
  listed : ∃ names, listStates.run db = (.ok (.names names), db) ∧
    names.Pairwise (fun a b => Utf8.bytes a < Utf8.bytes b) ∧
    ∀ name, name ∈ names ↔
      ∃ payload, (getState name).run db = (.ok (.state ⟨name, payload⟩), db)
  /-- From the time its name is locked until the lock is given back it changes only by writes with
  the token of the lock and by removals. -/
  guarded : ∀ (request : LockRequest) (ops : List Operation) (op : Operation),
    let locked := ((acquire name request).run db).2
    let later := (runAll ops locked).2
    (∃ reply, ((acquire name request).run db).1 = .ok reply) → (acquire name request).Fits →
    (∀ op ∈ ops, op.Fits) →
    (∀ entry ∈ ops.zip (runAll ops locked).1, (∃ reply, entry.2 = .ok reply) →
      ∀ token, entry.1 ≠ release name token) →
    op.Fits → ((getState name).run (op.run later).2).1 ≠ ((getState name).run later).1 →
    (∃ payload, op = .putState name request.token payload) ∨ op = .deleteState name

/-- Databases whose states were written as the trace tells hold registers. -/
theorem register_of_lastWritten (h : db.Intact) {trace : List Answered}
    (hlast : ∀ payload, db.record? .state name = some ⟨name, payload⟩ ↔
      LastWritten name payload trace) : Register name trace db where
  written := fun token _ => (putState_ok_iff h token).1
  refused := fun token _ => (putState_ok_iff h token).2
  removed := (deleteState_ok_iff h name).1
  locks := (deleteState_ok_iff h name).2
  read := by
    intro payload
    rw [getState_iff h, hlast]
  absent := by
    rw [getState_notFound_iff h]
    constructor
    · rintro hnone ⟨payload, hwritten⟩
      rw [(hlast payload).mpr hwritten] at hnone
      cases hnone
    · intro hnone
      cases hs : db.record? .state name with
      | none => rfl
      | some entry =>
        have hname : entry.name = name := (h.of_record? hs).1
        have hentry : db.record? .state name = some ⟨name, entry.payload⟩ := by
          rw [hs, ← hname]
        exact absurd ⟨entry.payload, (hlast _).mp hentry⟩ hnone
  listed := listStates_names h
  guarded := by
    intro request ops op locked later hacquire hfits hops hheld hop hchange
    have hlocked : locked.Intact := run_intact h hfits
    have hlater : later.Intact := runAll_intact hops hlocked
    have hlock := record?_lock_of_acquired h hfits hacquire
    have hstill := record?_lock_runAll hops hlocked hlock hheld
    refine changes_of_locked hlater hop hstill fun hsame => hchange ?_
    exact getState_eq_of_record? hlater (run_intact hlater hop) hsame

/--
After every history of operations on a new store every state is a register that is guarded by the lock
on its name, as the history and its answers tell. The rows of the tables are those of the records.
-/
theorem state_register (history : List Operation) (hh : ∀ op ∈ history, op.Fits) (name : String) :
    let db := (runAll history Schema.fresh).2
    Register name (history.zip (runAll history Schema.fresh).1) db ∧
    ∀ (kind : RecordKind) (key : String),
      db.row? kind.table key = (db.record? kind key).map kind.encode := by
  intro db
  have hdb : db.Intact := runAll_intact hh Schema.fresh_intact
  refine ⟨register_of_lastWritten hdb fun payload => ?_, hdb.row?_eq_map⟩
  have hrun := record?_state_runAll hh name Schema.fresh_intact
  rw [Schema.record?_fresh] at hrun
  rw [hrun]
  exact foldl_stateAfter_iff _

/-- Another client writes nothing while `plan` is locked, and what the holder has written is read
after the lock is given back. -/
theorem state_register_plan :
    let first := [putState "plan" "" ⟨#[1]⟩]
    let locking := acquire "plan" ⟨"a", "{}"⟩
    let foreign := putState "plan" "b" ⟨#[2]⟩
    let rest := [putState "plan" "a" ⟨#[3]⟩, release "plan" "a"]
    let locked := (locking.run (runAll first Schema.fresh).2).2
    ((getState "plan").run (foreign.run locked).2).1 = ((getState "plan").run locked).1 ∧
    ((getState "plan").run (runAll (first ++ [locking, foreign] ++ rest) Schema.fresh).2).1 =
      .ok (.state ⟨"plan", ⟨#[3]⟩⟩) := by
  intro first locking foreign rest locked
  have hfits : ∀ op ∈ first ++ [locking, foreign] ++ rest, op.Fits := by
    simp [first, locking, foreign, rest, Fits, RecordKind.Fits, LockRequest.lockOn,
      RowForm.lengthLimit]
    decide
  refine ⟨?_, ?_⟩
  · by_contra hchange
    have hguard := (state_register first (fun op hop => hfits op (by simp [hop])) "plan").1.guarded
    have hheld : ∀ entry ∈ ([] : List Operation).zip (runAll [] locked).1,
        (∃ reply, entry.2 = .ok reply) → ∀ token, entry.1 ≠ release "plan" token := by
      intro entry hmem
      cases hmem
    rcases hguard ⟨"a", "{}"⟩ [] foreign ⟨.lock ⟨"plan", "a", "{}"⟩, by decide +kernel⟩
      (hfits locking (by simp)) (by simp) hheld (hfits foreign (by simp)) hchange with
      ⟨payload, hput⟩ | hdelete
    · simp [foreign] at hput
    · simp [foreign] at hdelete
  · have hread := (state_register _ hfits "plan").1.read ⟨#[3]⟩
    refine congrArg Prod.fst (hread.mpr ⟨(first ++ [locking, foreign]).zip [.ok .done,
      .ok (.lock ⟨"plan", "a", "{}"⟩), .error (.lockConflict ⟨"plan", "a", "{}"⟩)], "a", .done,
      [(release "plan" "a", .ok .done)], by decide +kernel, ?_⟩)
    intro entry hmem
    rw [List.mem_singleton] at hmem
    subst hmem
    simp [Settles]

end Operation

end ControlPlane
