import ControlPlane.Proofs.Store.Related
import ControlPlane.Service.Operation

/-!
# The scope of an operation

What an operation reads and writes is a whole table or the row in a place (`Operation.Kept`). So it
keeps every relation between databases that these keep (`Operation.run_respects`). In particular it
reads and writes the tables of a few kinds of records (`Operation.touches`): on databases that agree on
these kinds it yields the same and leaves databases that agree on them (`Operation.run_agree`), and it
leaves all other tables as they are (`Operation.run_outside`).
-/

namespace ControlPlane

namespace Operation

/-- The kinds of records whose tables an operation reads or writes. -/
def touches : Operation → List RecordKind
  | .listStates | .getState _ | .deleteState _ => [.state]
  | .putState .. => [.lock, .state]
  | .listLocks | .getLock _ | .acquire .. | .release .. => [.lock]
  | .listGates | .getGate _ | .createGate .. | .updateGate .. | .deleteGate _ => [.gate]
  | .getConfig _ | .setConfig .. | .deleteConfig _ => [.config]

/-- Whether a relation is kept by what an operation reads and writes. The gate that is switched is
written under the key that it carries, and that may be any. -/
def Kept (R : Database → Database → Prop) : Operation → Prop
  | .listStates => KeepsRows R .state
  | .getState name | .deleteState name => KeepsRow R ⟨.state, name⟩
  | .putState name .. => KeepsRow R ⟨.lock, name⟩ ∧ KeepsRow R ⟨.state, name⟩
  | .listLocks => KeepsRows R .lock
  | .getLock name | .acquire name _ | .release name _ => KeepsRow R ⟨.lock, name⟩
  | .listGates => KeepsRows R .gate
  | .getGate key | .createGate key _ | .deleteGate key => KeepsRow R ⟨.gate, key⟩
  | .updateGate .. => ∀ key, KeepsRow R ⟨.gate, key⟩
  | .getConfig key | .setConfig key _ | .deleteConfig key => KeepsRow R ⟨.config, key⟩

/-- How an operation is respected: as a query or as a transaction. -/
def Plan.Respects (R : Database → Database → Prop) : Plan → Prop
  | .query q => Query.Respects R q
  | .commit tx => Tx.Respects R tx

variable {R : Database → Database → Prop}

theorem kept_of_touches (op : Operation) (h : ∀ kind ∈ op.touches, KeepsRows R kind) : op.Kept R := by
  cases op with
  | listStates => exact h .state List.mem_cons_self
  | getState | deleteState => exact (h .state List.mem_cons_self).keepsRow _
  | putState =>
    have hlock := h .lock List.mem_cons_self
    have hstate := h .state (List.mem_cons_of_mem RecordKind.lock List.mem_cons_self)
    exact ⟨hlock.keepsRow _, hstate.keepsRow _⟩
  | listLocks => exact h .lock List.mem_cons_self
  | getLock | acquire | release => exact (h .lock List.mem_cons_self).keepsRow _
  | listGates => exact h .gate List.mem_cons_self
  | getGate | createGate | deleteGate => exact (h .gate List.mem_cons_self).keepsRow _
  | updateGate => exact (h .gate List.mem_cons_self).keepsRow
  | getConfig | setConfig | deleteConfig => exact (h .config List.mem_cons_self).keepsRow _

theorem respects_plan (op : Operation) (h : op.Kept R) : op.plan.Respects R := by
  have hmap : ∀ {α : Type} {f : α → Reply} {query : Query α}, query.Respects R →
      Query.Respects R (f <$> query) := by
    intro α f query hq db db' hR
    rw [Query.map_run, Query.map_run, hq db db' hR]
  cases op with
  | listStates =>
    have hlist := KeepsRows.query_list h
    refine hmap fun db db' hR => ?_
    rw [StateLock.listStates, Query.bind_run, Query.bind_run, hlist db db' hR]
    rfl
  | getState name => exact hmap (KeepsRow.query_get h)
  | putState name token payload =>
    obtain ⟨hlock, hstate⟩ := h
    have hwrite : Tx.Respects R (do let _ ← Tx.upsert .state ⟨name, payload⟩ : Tx Unit) :=
      Tx.respects_bind (KeepsRow.upsert .state _ hstate) fun _ => Tx.respects_pure _
    refine Tx.respects_map _ (Tx.respects_bind hlock.find fun found => ?_)
    cases found with
    | none => exact hwrite
    | some lock =>
      dsimp only
      split
      · exact Tx.respects_bind (Tx.respects_throw _) fun _ => hwrite
      · exact hwrite
  | deleteState name => exact Tx.respects_map _ (KeepsRow.delete h)
  | listLocks => exact hmap (KeepsRows.query_list h)
  | getLock name => exact hmap (KeepsRow.query_get h)
  | acquire name request =>
    refine Tx.respects_map _ (Tx.respects_bind (KeepsRow.find h) fun found => ?_)
    cases found with
    | none => exact Tx.respects_bind (KeepsRow.create .lock _ h) fun _ => Tx.respects_pure _
    | some lock => exact Tx.respects_throw _
  | release name token =>
    refine Tx.respects_map _ (Tx.respects_bind (KeepsRow.find h) fun found => ?_)
    cases found with
    | none => exact Tx.respects_pure _
    | some lock =>
      dsimp only
      split
      · exact Tx.respects_throw _
      · exact KeepsRow.delete h
  | listGates => exact hmap (KeepsRows.query_list h)
  | getGate key => exact hmap (KeepsRow.query_get h)
  | createGate key enabled => exact Tx.respects_map _ (KeepsRow.create .gate _ h)
  | updateGate key enabled =>
    exact Tx.respects_map _ (Tx.respects_bind (h key).get fun gate =>
      KeepsRow.update .gate _ (h gate.key))
  | deleteGate key => exact Tx.respects_map _ (KeepsRow.delete h)
  | getConfig key =>
    have hget := KeepsRow.query_get h
    refine hmap fun db db' hR => ?_
    rw [ClusterConfig.get, Query.bind_run, Query.bind_run, hget db db' hR]
    rfl
  | setConfig key value =>
    exact Tx.respects_map _
      (Tx.respects_bind (KeepsRow.upsert .config _ h) fun _ => Tx.respects_pure _)
  | deleteConfig key => exact Tx.respects_map _ (KeepsRow.delete h)

theorem run_respects {op : Operation} (h : op.Kept R) {db db' : Database} (hR : R db db') :
    (op.run db).1 = (op.run db').1 ∧ R (op.run db).2 (op.run db').2 := by
  have hplan := respects_plan op h
  unfold run
  cases hp : op.plan with
  | query query =>
    rw [hp] at hplan
    exact ⟨hplan db db' hR, hR⟩
  | commit tx =>
    rw [hp] at hplan
    exact Tx.commit_respects hplan hR

/-- Databases that agree on the kinds of an operation answer it alike. -/
theorem run_agree {op : Operation} {kinds : List RecordKind} (hk : op.touches ⊆ kinds)
    {db db' : Database} (h : db.Agree kinds db') :
    (op.run db).1 = (op.run db').1 ∧ (op.run db).2.Agree kinds (op.run db').2 :=
  run_respects (kept_of_touches op fun _ hkind => Database.agree_keepsRows (hk hkind)) h

/-- The tables of other kinds stay as they are. -/
theorem run_outside {op : Operation} {kinds : List RecordKind} (hk : op.touches ⊆ kinds)
    (db : Database) : db.Outside kinds (op.run db).2 := by
  have hself : db = db ∧ db.Outside kinds db := ⟨rfl, fun _ _ => rfl⟩
  have hkeep : ∀ kind ∈ op.touches,
      KeepsRows (fun db' db'' => db' = db'' ∧ db.Outside kinds db') kind :=
    fun kind hkind => Database.outside_keepsRows (hk hkind) db
  exact (run_respects (kept_of_touches op hkeep) hself).2.2

end Operation

end ControlPlane
