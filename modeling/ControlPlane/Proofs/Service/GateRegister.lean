import ControlPlane.Proofs.Service.StateRegister

/-!
# The registry is a partial map from names to switches

What operations made of the gate under a name is told by their answers (`leaves`), and the last of them
that made anything of it decides (`LastLeft`). After every history the registry answers as the map does
that the history tells of (`gate_registry`).
-/

namespace ControlPlane

namespace Operation

variable {db : Database} {name : String} {enabled : Bool}

/-! ## The gate after an operation -/

/-- What an operation that was answered leaves under a name: a gate that says something, no gate, or what
there was. -/
def leaves (name : String) : Answered → Option (Option Bool)
  | (.createGate key enabled, .ok _) => if key = name then some (some enabled) else none
  | (.updateGate key enabled, .ok _) => if key = name then some (some enabled) else none
  | (.deleteGate key, .ok _) => if key = name then some none else none
  | _ => none

/-- The gate under a name after an operation was answered, given the gate before it. -/
def gateAfter (name : String) (held : Option Gate) (entry : Answered) : Option Gate :=
  match leaves name entry with
  | some left => left.map (⟨name, ·⟩)
  | none => held

theorem record?_keep_gate {key : String} (hfits : RecordKind.gate.Fits ⟨key, enabled⟩) :
    (db.keep .gate ⟨key, enabled⟩).record? .gate name =
      if key = name then some ⟨name, enabled⟩ else db.record? .gate name := by
  rw [Database.record?_keep_same .gate hfits]
  by_cases hkey : key = name
  · subst hkey
    rfl
  · exact (if_neg hkey).trans (if_neg hkey).symm

/-- The gate under a name develops by `gateAfter` alone, whatever else the store holds. -/
theorem record?_gate_run (h : db.Intact) {op : Operation} (hop : op.Fits) (name : String) :
    (op.run db).2.record? .gate name =
      gateAfter name (db.record? .gate name) (op, (op.run db).1) := by
  cases op with
  | createGate key enabled =>
    rw [run_createGate h]
    cases db.record? .gate key with
    | some gate => rfl
    | none =>
      refine (record?_keep_gate hop).trans ?_
      by_cases hkey : key = name <;> simp [gateAfter, leaves, hkey]
  | updateGate key enabled =>
    rw [run_updateGate h]
    cases hgate : db.record? .gate key with
    | none => rfl
    | some gate =>
      -- the name fits, since there is a gate with it
      obtain ⟨hkey, hfits, -⟩ := h.of_record? hgate
      rw [show RecordKind.gate.key gate = gate.key from rfl] at hkey
      have hfits' : RecordKind.gate.Fits ⟨key, enabled⟩ := by
        rw [← hkey]
        exact hfits
      refine (record?_keep_gate hfits').trans ?_
      by_cases hname : key = name <;> simp [gateAfter, leaves, hname]
  | deleteGate key =>
    rw [run_deleteGate h]
    cases db.record? .gate key with
    | none => rfl
    | some gate =>
      refine (Database.record?_drop_same db .gate key name).trans ?_
      by_cases hkey : key = name <;> simp [gateAfter, leaves, hkey]
  | listStates | getState | listLocks | getLock | listGates | getGate | getConfig => rfl
  | putState | deleteState | acquire | release | setConfig | deleteConfig =>
    exact record?_run_other h (by simp [writes]) name

/-! ## The last operation on a gate -/

/-- Whether the last operation of a history that made anything of the gate under a name has left one that
says something. -/
def LastLeft (name : String) (enabled : Bool) (trace : List Answered) : Prop :=
  ∃ before entry after, trace = before ++ entry :: after ∧ leaves name entry = some (some enabled) ∧
    ∀ later ∈ after, leaves name later = none

theorem not_lastLeft_nil : ¬ LastLeft name enabled [] := by
  rintro ⟨before, entry, after, htrace, -⟩
  cases before <;> cases htrace

theorem lastLeft_append {trace : List Answered} {entry : Answered} :
    LastLeft name enabled (trace ++ [entry]) ↔
      leaves name entry = some (some enabled) ∨
        leaves name entry = none ∧ LastLeft name enabled trace := by
  constructor
  · rintro ⟨before, first, after, htrace, hleft, hafter⟩
    rcases List.eq_nil_or_concat after with rfl | ⟨after, last, rfl⟩
    · obtain ⟨-, hentry⟩ := List.append_inj' htrace rfl
      rw [(List.cons.inj hentry).1]
      exact Or.inl hleft
    · right
      rw [List.concat_eq_append, ← List.cons_append, ← List.append_assoc] at htrace
      obtain ⟨hfront, hlast⟩ := List.append_inj' htrace rfl
      obtain rfl : entry = last := (List.cons.inj hlast).1
      refine ⟨hafter entry (by simp), before, first, after, hfront, hleft, ?_⟩
      intro later hmem
      exact hafter later (by simp [hmem])
  · rintro (hleft | ⟨hnone, before, first, after, rfl, hleft, hafter⟩)
    · exact ⟨trace, entry, [], rfl, hleft, List.forall_mem_nil _⟩
    · refine ⟨before, first, after ++ [entry], by simp, hleft, ?_⟩
      rw [List.forall_mem_append, List.forall_mem_singleton]
      exact ⟨hafter, hnone⟩

/-- The induction takes the history from its end. -/
theorem foldl_gateAfter_iff (trace : List Answered) :
    trace.foldl (gateAfter name) none = some ⟨name, enabled⟩ ↔ LastLeft name enabled trace := by
  induction trace using List.reverseRecOn with
  | nil => exact iff_of_false nofun not_lastLeft_nil
  | append_singleton trace entry ih =>
    rw [List.foldl_append, List.foldl_cons, List.foldl_nil, lastLeft_append, gateAfter]
    cases leaves name entry with
    | none => simp [ih]
    | some left => cases left <;> simp

/-! ## What is answered -/

/-- There is a row under a name exactly if there is a gate. -/
theorem gate_row?_eq_none (h : db.Intact) :
    db.row? RecordKind.gate.table name = none ↔ db.record? .gate name = none := by
  rw [h.row?_eq_map, Option.map_eq_none_iff]

theorem getGate_iff (h : db.Intact) :
    (getGate name).run db = (.ok (.gate ⟨name, enabled⟩), db) ↔
      db.record? .gate name = some ⟨name, enabled⟩ := by
  rw [run_getGate h]
  cases db.record? .gate name with
  | none => exact iff_of_false nofun nofun
  | some gate => simp

theorem getGate_notFound_iff (h : db.Intact) :
    (getGate name).run db = (.error (.notFound .gate name), db) ↔ db.record? .gate name = none := by
  rw [run_getGate h]
  cases db.record? .gate name with
  | none => simp
  | some gate => exact iff_of_false nofun nofun

/-- The gates listed are those that are found, in the order of the bytes of their names. -/
theorem listGates_gates (h : db.Intact) :
    ∃ gates, listGates.run db = (.ok (.gates gates), db) ∧
      gates.Pairwise (fun a b => Utf8.bytes a.key < Utf8.bytes b.key) ∧
      ∀ name enabled, ⟨name, enabled⟩ ∈ gates ↔
        (getGate name).run db = (.ok (.gate ⟨name, enabled⟩), db) := by
  refine ⟨db.records .gate, run_listGates h, ?_, ?_⟩
  · exact (h.records_ascending .gate).imp Utf8.bytes_lt
  · intro name enabled
    rw [getGate_iff h]
    exact h.mem_records

theorem createGate_ok_iff (h : db.Intact) (name : String) (enabled : Bool) :
    (((createGate name enabled).run db).1 = .ok .done ↔ db.record? .gate name = none) ∧
    (db.record? .gate name ≠ none →
      (createGate name enabled).run db = (.error (.alreadyExists .gate name), db)) := by
  rw [run_createGate h]
  cases db.record? .gate name with
  | none => exact ⟨iff_of_true rfl rfl, fun hne => absurd rfl hne⟩
  | some gate => exact ⟨iff_of_false nofun nofun, fun _ => rfl⟩

theorem updateGate_ok_iff (h : db.Intact) (name : String) (enabled : Bool) :
    (((updateGate name enabled).run db).1 = .ok .done ↔ db.record? .gate name ≠ none) ∧
    (db.record? .gate name = none →
      (updateGate name enabled).run db = (.error (.notFound .gate name), db)) := by
  rw [run_updateGate h]
  cases db.record? .gate name with
  | none => exact ⟨iff_of_false nofun fun hne => hne rfl, fun _ => rfl⟩
  | some gate => exact ⟨iff_of_true rfl nofun, nofun⟩

theorem deleteGate_ok_iff (h : db.Intact) (name : String) :
    (((deleteGate name).run db).1 = .ok .done ↔ db.record? .gate name ≠ none) ∧
    (db.record? .gate name = none →
      (deleteGate name).run db = (.error (.notFound .gate name), db)) := by
  rw [run_deleteGate h]
  cases db.record? .gate name with
  | none => exact ⟨iff_of_false nofun fun hne => hne rfl, fun _ => rfl⟩
  | some gate => exact ⟨iff_of_true rfl nofun, nofun⟩

/-- A gate that is there says something. -/
theorem exists_gate_iff (h : db.Intact) :
    (∃ enabled, db.record? .gate name = some ⟨name, enabled⟩) ↔ db.record? .gate name ≠ none := by
  constructor
  · rintro ⟨enabled, hgate⟩
    rw [hgate]
    exact Option.some_ne_none _
  · intro hsome
    obtain ⟨gate, hgate⟩ := Option.ne_none_iff_exists'.mp hsome
    have hkey : gate.key = name := (h.of_record? hgate).1
    refine ⟨gate.enabled, ?_⟩
    rw [hgate, ← hkey]

/-- Switching a gate that is there changes its row and no other. -/
theorem changes_of_updateGate (h : db.Intact) (hok : ((updateGate name enabled).run db).1 = .ok .done) :
    ((updateGate name enabled).run db).2.row? RecordKind.gate.table name =
        some (RecordKind.gate.encode ⟨name, enabled⟩) ∧
      (∀ name', name' ≠ name → ((updateGate name enabled).run db).2.row? RecordKind.gate.table name' =
        db.row? RecordKind.gate.table name') ∧
      ∀ table, table ≠ RecordKind.gate.table →
        ((updateGate name enabled).run db).2.tables[table]? = db.tables[table]? := by
  rw [run_updateGate h] at hok ⊢
  cases hgate : db.record? .gate name with
  | none =>
    rw [hgate] at hok
    cases hok
  | some gate =>
    dsimp only
    simp only [Database.row?_eq, Database.keep, Database.rowsOf_put_same, Database.tables_put,
      Std.ExtTreeMap.getElem?_insert, Std.LawfulEqCmp.compare_eq_iff_eq]
    refine ⟨if_pos rfl, ?_, ?_⟩
    · intro name' hne
      exact if_neg (Ne.symm hne)
    · intro table hne
      exact if_neg (Ne.symm hne)

/-! ## Every history -/

/-- What the registry answers after a history of operations. -/
structure GateRegister (trace : List Answered) (db : Database) : Prop where
  /-- A gate is added exactly if there is none with its name. -/
  created : ∀ name enabled, ((createGate name enabled).run db).1 = .ok .done ↔
    db.row? RecordKind.gate.table name = none
  /-- Otherwise nothing changes. -/
  taken : ∀ name enabled, db.row? RecordKind.gate.table name ≠ none →
    (createGate name enabled).run db = (.error (.alreadyExists .gate name), db)
  /-- A gate is switched exactly if there is one with the name. -/
  updated : ∀ name enabled, ((updateGate name enabled).run db).1 = .ok .done ↔
    db.row? RecordKind.gate.table name ≠ none
  /-- A gate is removed exactly if there is one with the name. -/
  deleted : ∀ name, ((deleteGate name).run db).1 = .ok .done ↔
    db.row? RecordKind.gate.table name ≠ none
  /-- Otherwise nothing changes. -/
  missing : ∀ name, db.row? RecordKind.gate.table name = none →
    (∀ enabled, (updateGate name enabled).run db = (.error (.notFound .gate name), db)) ∧
      (deleteGate name).run db = (.error (.notFound .gate name), db)
  /-- A gate says what the last operation on it has left, if that has not removed it. -/
  read : ∀ name enabled, (getGate name).run db = (.ok (.gate ⟨name, enabled⟩), db) ↔
    LastLeft name enabled trace
  /-- Otherwise it is not found. -/
  absent : ∀ name, (getGate name).run db = (.error (.notFound .gate name), db) ↔
    ¬ ∃ enabled, LastLeft name enabled trace
  /-- A gate is found exactly if there is a row for it. -/
  found : ∀ name, (∃ enabled, (getGate name).run db = (.ok (.gate ⟨name, enabled⟩), db)) ↔
    db.row? RecordKind.gate.table name ≠ none
  /-- The gates listed are those that are found, each once and in the order of the bytes of their names. -/
  listed : ∃ gates, listGates.run db = (.ok (.gates gates), db) ∧
    gates.Pairwise (fun a b => Utf8.bytes a.key < Utf8.bytes b.key) ∧
    ∀ name enabled, ⟨name, enabled⟩ ∈ gates ↔
      (getGate name).run db = (.ok (.gate ⟨name, enabled⟩), db)
  /-- Switching a gate changes its own row and no other. -/
  switched : ∀ name enabled, ((updateGate name enabled).run db).1 = .ok .done →
    ((updateGate name enabled).run db).2.row? RecordKind.gate.table name =
        some (RecordKind.gate.encode ⟨name, enabled⟩) ∧
      (∀ name', name' ≠ name → ((updateGate name enabled).run db).2.row? RecordKind.gate.table name' =
        db.row? RecordKind.gate.table name') ∧
      ∀ table, table ≠ RecordKind.gate.table →
        ((updateGate name enabled).run db).2.tables[table]? = db.tables[table]?

/-- Databases whose gates were left as the trace tells hold such a registry. -/
theorem gateRegister_of_lastLeft (h : db.Intact) {trace : List Answered}
    (hlast : ∀ name enabled, db.record? .gate name = some ⟨name, enabled⟩ ↔
      LastLeft name enabled trace) : GateRegister trace db := by
  have hrow : ∀ name, db.row? RecordKind.gate.table name = none ↔ db.record? .gate name = none :=
    fun name => gate_row?_eq_none h
  constructor
  case created =>
    intro name enabled
    rw [hrow]
    exact (createGate_ok_iff h name enabled).1
  case taken =>
    intro name enabled
    rw [ne_eq, hrow]
    exact (createGate_ok_iff h name enabled).2
  case updated =>
    intro name enabled
    rw [ne_eq, hrow]
    exact (updateGate_ok_iff h name enabled).1
  case deleted =>
    intro name
    rw [ne_eq, hrow]
    exact (deleteGate_ok_iff h name).1
  case missing =>
    intro name
    rw [hrow]
    intro hnone
    exact ⟨fun enabled => (updateGate_ok_iff h name enabled).2 hnone, (deleteGate_ok_iff h name).2 hnone⟩
  case read =>
    intro name enabled
    rw [getGate_iff h, hlast]
  case absent =>
    intro name
    simp only [getGate_notFound_iff h, ← hlast, exists_gate_iff h, ne_eq, not_not]
  case found =>
    intro name
    simp only [getGate_iff h, exists_gate_iff h, ne_eq, hrow]
  case listed => exact listGates_gates h
  case switched => exact fun name enabled hok => changes_of_updateGate h hok

/--
After every history of operations on a new store the registry is the partial map from names to switches
that the history and its answers tell of.
-/
theorem gate_registry (history : List Operation) (hh : ∀ op ∈ history, op.Fits) :
    GateRegister (history.zip (runAll history Schema.fresh).1) (runAll history Schema.fresh).2 := by
  refine gateRegister_of_lastLeft (runAll_intact hh Schema.fresh_intact) fun name enabled => ?_
  have hrun := record?_runAll_of_step (fun h hop => record?_gate_run h hop name) hh Schema.fresh_intact
  rw [Schema.record?_fresh] at hrun
  rw [hrun]
  exact foldl_gateAfter_iff _

/-- A gate is added, added again in vain, and switched, beside one with a name that looks alike. -/
theorem gate_registry_switched :
    let history := [createGate "feature.x" false, createGate "x" false, createGate "feature.x" true,
      updateGate "feature.x" true, deleteGate "y", listStates]
    let db := (runAll history Schema.fresh).2
    (getGate "feature.x").run db = (.ok (.gate ⟨"feature.x", true⟩), db) ∧
      (createGate "x" true).run db = (.error (.alreadyExists .gate "x"), db) ∧
      (updateGate "y" true).run db = (.error (.notFound .gate "y"), db) := by
  intro history db
  have hfits : ∀ op ∈ history, op.Fits := by
    simp [history, Fits, RecordKind.Fits, RowForm.lengthLimit]
    decide
  have hregister := gate_registry history hfits
  refine ⟨(hregister.read _ _).mpr ?_, hregister.taken _ _ (by decide +kernel),
    (hregister.missing _ (by decide +kernel)).1 true⟩
  refine ⟨(history.take 3).zip [.ok .done, .ok .done, .error (.alreadyExists .gate "feature.x")],
    (updateGate "feature.x" true, .ok .done), [(deleteGate "y", .error (.notFound .gate "y")),
    (listStates, .ok (.names []))], by decide +kernel, rfl, ?_⟩
  simp [leaves]

end Operation

end ControlPlane
