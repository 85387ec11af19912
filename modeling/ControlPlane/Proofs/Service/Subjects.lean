import ControlPlane.Proofs.Service.OperationEffect
import ControlPlane.Proofs.Service.OperationScope

/-!
# Names do not interfere

An operation that names a document, a gate or a setting is about this one (`Operation.subject`), and it
reads and writes the places of this subject alone: on databases that agree there it makes the same
alterations (`Operation.run_alteredAlike`). So the operations on other subjects can be left out of a
history without a difference to what the operations on a subject answer and what stands in its places in
the end, and operations on two subjects can change places.

The gate that is switched is written under the key that it carries. Gates are therefore asked to stand in
their places (`Database.InPlace`). They do so in a new database, and operations leave them there.
-/

namespace ControlPlane

/-- What an operation can be about. -/
inductive Subject where
  /-- The state and the lock under a name. -/
  | document (name : String)
  /-- A gate. -/
  | gate (key : String)
  /-- A configuration value. -/
  | setting (key : String)
deriving DecidableEq

/-- The places of a subject. -/
def Subject.places : Subject → List Place
  | .document name => [⟨.lock, name⟩, ⟨.state, name⟩]
  | .gate key => [⟨.gate, key⟩]
  | .setting key => [⟨.config, key⟩]

/-- What an operation is about. A listing is about no single subject. -/
def Operation.subject : Operation → Option Subject
  | .listStates | .listLocks | .listGates => none
  | .getState name | .putState name _ _ | .deleteState name | .getLock name | .acquire name _
  | .release name _ => some (.document name)
  | .getGate key | .createGate key _ | .updateGate key _ | .deleteGate key => some (.gate key)
  | .getConfig key | .setConfig key _ | .deleteConfig key => some (.setting key)

/-- The subject that a place belongs to. -/
def Place.subject : Place → Subject
  | ⟨.state, name⟩ | ⟨.lock, name⟩ => .document name
  | ⟨.gate, key⟩ => .gate key
  | ⟨.config, key⟩ => .setting key

theorem Subject.mem_places {subject : Subject} {place : Place} :
    place ∈ subject.places ↔ place.subject = subject := by
  obtain ⟨kind, key⟩ := place
  cases subject <;> cases kind <;> simp [places, Place.subject]

/-! ## Gates in their places -/

/-- Whether a gate that is found in the place of a subject carries the key of the place. -/
def Database.InPlace (db : Database) : Subject → Prop
  | .gate key => ∀ gate, db.record? .gate key = some gate → gate.key = key
  | .document _ | .setting _ => True

/-- Whether every gate stands in its place. -/
def Database.GatesInPlace (db : Database) : Prop := ∀ key, db.InPlace (.gate key)

variable {db db' : Database} {op op' : Operation} {subject subject' : Subject}

theorem Database.AgreeAt.record?_eq {places : List Place} (hagree : db.AgreeAt places db')
    {kind : RecordKind} {key : String} (hmem : ⟨kind, key⟩ ∈ places) :
    db.record? kind key = db'.record? kind key := by
  have hrow : db.row? kind.table key = db'.row? kind.table key :=
    Query.row?_congr (hagree ⟨kind, key⟩ hmem)
  rw [record?, record?, hrow]

theorem Database.InPlace.congr (h : db.InPlace subject) (hagree : db.AgreeAt subject.places db') :
    db'.InPlace subject := by
  cases subject with
  | document | setting => trivial
  | gate key =>
    intro gate hgate
    refine h gate ?_
    rwa [hagree.record?_eq List.mem_cons_self]

theorem Database.Intact.gatesInPlace (h : db.Intact) : db.GatesInPlace :=
  fun _ _ hgate => (h.of_record? hgate).1

theorem Schema.fresh_gatesInPlace : Schema.fresh.GatesInPlace := Schema.fresh_intact.gatesInPlace

/-- A gate that stands in its place is switched there. -/
theorem GateRegistry.update_of_inPlace {key : String} (h : db.InPlace (.gate key)) (enabled : Bool) :
    GateRegistry.update key enabled db =
      (do let _ ← Tx.get .gate key; Tx.update .gate ⟨key, enabled⟩ : Tx Unit) db := by
  rw [update, Tx.bind_run, Tx.bind_run]
  rcases hget : Tx.get .gate key db with ⟨e | gate, left⟩
  · rfl
  · obtain ⟨-, rows, hrows, hfound⟩ := Tx.of_get hget
    have hkey : gate.key = key := h gate (Query.record?_of_rows hrows hfound)
    dsimp only
    rw [hkey]

namespace Operation

/-! ## One operation -/

/-- On databases that agree in the places of its subject an operation answers the same and makes the
same alterations, all of them in these places. -/
theorem run_alteredAlike (hsubject : op.subject = some subject) (h : db.InPlace subject)
    (h' : db'.InPlace subject) (hagree : db.AgreeAt subject.places db') :
    (op.run db).1 = (op.run db').1 ∧
      Database.AlteredAlike subject.places db db' (op.run db).2 (op.run db').2 := by
  have hself : Database.AlteredAlike subject.places db db' db db' := ⟨[], by simp, rfl, rfl⟩
  have hkeeps : ∀ place ∈ subject.places,
      KeepsRow (Database.AlteredAlike subject.places db db') place :=
    fun _ hplace => Database.alteredAlike_keepsRow hagree hplace
  cases op with
  | listStates | listLocks | listGates => cases hsubject
  | getState | deleteState =>
    cases hsubject
    refine run_respects ?_ hself
    exact hkeeps _ (List.mem_cons_of_mem _ List.mem_cons_self)
  | putState =>
    cases hsubject
    have hlock := hkeeps _ List.mem_cons_self
    have hstate := hkeeps _ (List.mem_cons_of_mem _ List.mem_cons_self)
    refine run_respects ?_ hself
    exact ⟨hlock, hstate⟩
  | getLock | acquire | release | getGate | createGate | deleteGate | getConfig | setConfig
  | deleteConfig =>
    cases hsubject
    refine run_respects ?_ hself
    exact hkeeps _ List.mem_cons_self
  | updateGate key enabled =>
    cases hsubject
    have hgate := hkeeps ⟨.gate, key⟩ List.mem_cons_self
    have hrun : ∀ {db : Database}, db.InPlace (.gate key) → (updateGate key enabled).run db =
        db.commit ((fun _ => Reply.done) <$>
          (do let _ ← Tx.get .gate key; Tx.update .gate ⟨key, enabled⟩ : Tx Unit)) := by
      intro db h
      show db.commit ((fun _ => Reply.done) <$> GateRegistry.update key enabled) = _
      unfold Database.commit
      rw [Tx.map_run, Tx.map_run, GateRegistry.update_of_inPlace h]
    rw [hrun h, hrun h']
    have hupdate := KeepsRow.update .gate ⟨key, enabled⟩ hgate
    exact Tx.commit_respects (Tx.respects_map _ (Tx.respects_bind hgate.get fun _ => hupdate)) hself

/-- An operation leaves the places of every other subject as they are. -/
theorem run_agreeAt (hother : op.subject ≠ some subject)
    (hgates : ∀ key, subject = .gate key → db.GatesInPlace) :
    (op.run db).2.AgreeAt subject.places db := by
  have hwithin : ∀ {subject'}, op.subject = some subject' → db.InPlace subject' →
      (op.run db).2.AgreeAt subject.places db := by
    intro subject' hsubject h
    obtain ⟨-, alterations, hplaces, hleft, -⟩ :=
      run_alteredAlike hsubject h h fun _ _ => rfl
    rw [hleft]
    refine Database.agreeAt_alterAll (fun alteration hmem hmem' => ?_) db
    have hsame := (Subject.mem_places.mp (hplaces alteration hmem)).symm.trans
      (Subject.mem_places.mp hmem')
    rw [hsame] at hsubject
    exact hother hsubject
  cases hsubject : op.subject with
  | none =>
    have hrun : (op.run db).2 = db := by cases op <;> first | rfl | cases hsubject
    rw [hrun]
    exact fun _ _ => rfl
  | some subject' =>
    cases subject' with
    | document | setting => exact hwithin hsubject trivial
    | gate key =>
      cases subject with
      | gate key' => exact hwithin hsubject (hgates key' rfl key)
      | document | setting =>
        -- whatever key the gate carries, its table is not one of this subject
        have htouches : op.touches ⊆ [.gate] := by cases op <;> first | exact List.Subset.refl _ | cases hsubject
        intro place hplace
        have htable : place.kind.table ≠ RecordKind.gate.table := by
          intro he
          obtain ⟨kind, key'⟩ := place
          obtain rfl : kind = .gate := RecordKind.table_injective he
          cases Subject.mem_places.mp hplace
        have hrows : Query.rows place.kind (op.run db).2 = Query.rows place.kind db :=
          Query.rows_of_tables (run_outside htouches db place.kind.table (by simpa using htable))
        unfold Query.row
        rw [hrows]

/-- Operations leave gates in their places. -/
theorem run_gatesInPlace (h : db.GatesInPlace) (hfits : op.Fits) : (op.run db).2.GatesInPlace := by
  intro key
  by_cases hsubject : op.subject = some (.gate key)
  · cases hresult : (op.run db).1 with
    | error e =>
      rw [run_error hresult]
      exact h key
    | ok reply =>
      have hrun : op.run db = (.ok reply, (op.run db).2) := Prod.ext hresult rfl
      intro gate hgate
      cases op with
      | getGate =>
        cases hsubject
        exact h key gate hgate
      | createGate =>
        cases hsubject
        obtain ⟨-, hwrites⟩ := writes_of_createGate hrun hfits
        have hrecord := hwrites.record
        rw [show RecordKind.gate.key ⟨key, _⟩ = key from rfl, hgate] at hrecord
        cases hrecord
        rfl
      | updateGate _ enabled =>
        cases hsubject
        obtain ⟨found, hfound, hwrites⟩ := writes_of_updateGate hrun
        have hkey : found.key = key := h key found hfound
        have hrecord := hwrites.record
        rw [show RecordKind.gate.key ⟨found.key, enabled⟩ = key from hkey, hgate] at hrecord
        cases hrecord
        exact hkey
      | deleteGate =>
        cases hsubject
        obtain ⟨-, hremoves⟩ := removes_of_deleteGate hrun
        rw [hremoves.record] at hgate
        cases hgate
      | _ => cases hsubject
  · have hagree := run_agreeAt hsubject fun _ _ => h
    exact (h key).congr fun place hmem => (hagree place hmem).symm

/-- A gate that does not exist comes into being by being added, and in no other way. -/
theorem record?_gate_eq_none {key : String} (h : db.GatesInPlace)
    (hgone : db.record? .gate key = none) (hadds : ∀ enabled, op ≠ .createGate key enabled) :
    (op.run db).2.record? .gate key = none := by
  by_cases hsubject : op.subject = some (.gate key)
  · cases hresult : (op.run db).1 with
    | error e => rw [run_error hresult, hgone]
    | ok reply =>
      have hrun : op.run db = (.ok reply, (op.run db).2) := Prod.ext hresult rfl
      cases op with
      | getGate => exact hgone
      | createGate _ enabled =>
        cases hsubject
        exact absurd rfl (hadds enabled)
      | updateGate =>
        cases hsubject
        obtain ⟨gate, hfound, -⟩ := writes_of_updateGate hrun
        rw [hgone] at hfound
        cases hfound
      | deleteGate =>
        cases hsubject
        exact (removes_of_deleteGate hrun).2.record
      | _ => cases hsubject
  · have hagree := run_agreeAt hsubject fun _ _ => h
    rw [hagree.record?_eq List.mem_cons_self, hgone]

/-- Operations on different subjects do not see each other and can change places. -/
theorem run_comm (hsubject : op.subject = some subject) (hsubject' : op'.subject = some subject')
    (hne : subject ≠ subject') (h : db.InPlace subject) (h' : db.InPlace subject') :
    (op.run (op'.run db).2).1 = (op.run db).1 ∧ (op'.run (op.run db).2).1 = (op'.run db).1 ∧
      (op'.run (op.run db).2).2 = (op.run (op'.run db).2).2 := by
  have hdisjoint : ∀ place ∈ subject.places, ∀ place' ∈ subject'.places, place ≠ place' := by
    rintro place hplace _ hplace' rfl
    exact hne ((Subject.mem_places.mp hplace).symm.trans (Subject.mem_places.mp hplace'))
  -- what each operation does to the database, and then what it does after the other one
  obtain ⟨-, alterations, hplaces, hleft, -⟩ := run_alteredAlike hsubject h h fun _ _ => rfl
  have hagree' : db.AgreeAt subject'.places (op.run db).2 := by
    intro place hplace
    rw [hleft]
    refine (Database.agreeAt_alterAll ?_ db place hplace).symm
    intro alteration hmem hmem'
    exact hdisjoint _ (hplaces alteration hmem) _ hmem' rfl
  obtain ⟨hresult', alterations', hplaces', hleft', hafter'⟩ :=
    run_alteredAlike hsubject' h' (h'.congr hagree') hagree'
  have hagree : db.AgreeAt subject.places (op'.run db).2 := by
    intro place hplace
    rw [hleft']
    refine (Database.agreeAt_alterAll ?_ db place hplace).symm
    intro alteration hmem hmem'
    exact hdisjoint _ hmem' _ (hplaces' alteration hmem) rfl
  obtain ⟨hresult, alterations'', hplaces'', hleft'', hafter⟩ :=
    run_alteredAlike hsubject h (h.congr hagree) hagree
  refine ⟨hresult.symm, hresult'.symm, ?_⟩
  rw [hafter', hleft'', hafter, hleft']
  refine Database.alterAll_comm ?_ db
  intro alteration hmem alteration' hmem'
  exact hdisjoint _ (hplaces'' alteration hmem) _ (hplaces' alteration' hmem')

/-! ## Histories -/

/-- The operations on a subject in a history, with their answers. -/
def answersOn (subject : Subject) (ops : List Operation) (db : Database) :
    List (Operation × Except ClusterError Reply) :=
  (ops.zip (runAll ops db).1).filter fun answer => answer.1.subject = some subject

theorem answersOn_cons_of_eq (h : op.subject = some subject) (ops : List Operation) (db : Database) :
    answersOn subject (op :: ops) db =
      (op, (op.run db).1) :: answersOn subject ops (op.run db).2 := by
  have hzip : (op :: ops).zip (runAll (op :: ops) db).1 =
      (op, (op.run db).1) :: ops.zip (runAll ops (op.run db).2).1 := rfl
  rw [answersOn, hzip, List.filter_cons_of_pos (by simpa using h)]
  rfl

theorem answersOn_cons_of_ne (h : op.subject ≠ some subject) (ops : List Operation) (db : Database) :
    answersOn subject (op :: ops) db = answersOn subject ops (op.run db).2 := by
  have hzip : (op :: ops).zip (runAll (op :: ops) db).1 =
      (op, (op.run db).1) :: ops.zip (runAll ops (op.run db).2).1 := rfl
  rw [answersOn, hzip, List.filter_cons_of_neg (by simpa using h)]
  rfl

/-- Whether a database and operations on it are as a subject asks for: for a gate all gates stand in their
places and stay there. -/
def Suits (subject : Subject) (ops : List Operation) (db : Database) : Prop :=
  ∀ key, subject = .gate key → db.GatesInPlace ∧ ∀ op ∈ ops, op.Fits

theorem Suits.inPlace {ops : List Operation} (h : Suits subject ops db) : db.InPlace subject := by
  cases subject with
  | document | setting => trivial
  | gate key => exact (h key rfl).1 key

theorem Suits.next {ops : List Operation} (h : Suits subject (op :: ops) db) :
    Suits subject ops (op.run db).2 := by
  intro key hkey
  obtain ⟨hgates, hfits⟩ := h key hkey
  exact ⟨run_gatesInPlace hgates (hfits op List.mem_cons_self),
    fun op' hmem => hfits op' (List.mem_cons_of_mem op hmem)⟩

theorem Suits.rest {ops : List Operation} (h : Suits subject (op :: ops) db) :
    Suits subject ops db := by
  intro key hkey
  obtain ⟨hgates, hfits⟩ := h key hkey
  exact ⟨hgates, fun op' hmem => hfits op' (List.mem_cons_of_mem op hmem)⟩

/-- Operations on other subjects can be left out. The induction compares the whole history with the one
that is left, on two databases that agree in the places of the subject. -/
theorem answersOn_filter {keep : Operation → Bool} {ops : List Operation}
    (hkeep : ∀ op ∈ ops, op.subject = some subject → keep op = true) :
    ∀ {db db' : Database}, Suits subject ops db → Suits subject ops db' →
      db.AgreeAt subject.places db' →
      answersOn subject ops db = answersOn subject (ops.filter keep) db' ∧
        (runAll ops db).2.AgreeAt subject.places (runAll (ops.filter keep) db').2 := by
  induction ops with
  | nil => exact fun _ _ hagree => ⟨rfl, hagree⟩
  | cons op ops ih =>
    intro db db' h h' hagree
    have hkeep' : ∀ op ∈ ops, op.subject = some subject → keep op = true :=
      fun op' hmem => hkeep op' (List.mem_cons_of_mem op hmem)
    by_cases hsubject : op.subject = some subject
    · obtain ⟨hresult, alterations, -, hleft, hleft'⟩ :=
        run_alteredAlike hsubject h.inPlace h'.inPlace hagree
      have hagree' : (op.run db).2.AgreeAt subject.places (op.run db').2 := by
        rw [hleft, hleft']
        exact hagree.alterAll
      obtain ⟨hanswers, hend⟩ := ih hkeep' h.next h'.next hagree'
      rw [List.filter_cons_of_pos (hkeep op List.mem_cons_self hsubject),
        answersOn_cons_of_eq hsubject, answersOn_cons_of_eq hsubject, hresult, hanswers]
      exact ⟨rfl, hend⟩
    · have hleft : (op.run db).2.AgreeAt subject.places db :=
        run_agreeAt hsubject fun key hkey => (h key hkey).1
      rw [answersOn_cons_of_ne hsubject]
      by_cases hkept : keep op = true
      · have hleft' : (op.run db').2.AgreeAt subject.places db' :=
          run_agreeAt hsubject fun key hkey => (h' key hkey).1
        rw [List.filter_cons_of_pos hkept, answersOn_cons_of_ne hsubject]
        refine ih hkeep' h.next h'.next fun place hplace => ?_
        rw [hleft place hplace, hagree place hplace, hleft' place hplace]
      · rw [List.filter_cons_of_neg hkept]
        refine ih hkeep' h.next h'.rest fun place hplace => ?_
        rw [hleft place hplace, hagree place hplace]

/--
Whatever operations on other subjects are left out of a history, the operations on a subject answer the
same, and the same rows stand in the places of the subject in the end. Operations on two subjects can
change places: both answer the same, and they leave the same database. Where the subject is a gate, gates
are asked to stand in their places; they do so in a new database, and operations leave them there.
-/
theorem subjects_do_not_interfere :
    (∀ (db : Database) (ops : List Operation) (subject : Subject) (keep : Operation → Bool),
      (∀ op ∈ ops, op.subject = some subject → keep op = true) →
      (∀ key, subject = .gate key → db.GatesInPlace ∧ ∀ op ∈ ops, op.Fits) →
      answersOn subject ops db = answersOn subject (ops.filter keep) db ∧
      ∀ place ∈ subject.places, (runAll ops db).2.row? place.kind.table place.key =
        (runAll (ops.filter keep) db).2.row? place.kind.table place.key) ∧
    (∀ (db : Database) (op op' : Operation) (subject subject' : Subject),
      op.subject = some subject → op'.subject = some subject' → subject ≠ subject' →
      db.InPlace subject → db.InPlace subject' →
      (op.run (op'.run db).2).1 = (op.run db).1 ∧ (op'.run (op.run db).2).1 = (op'.run db).1 ∧
      (op'.run (op.run db).2).2 = (op.run (op'.run db).2).2) ∧
    Schema.fresh.GatesInPlace ∧
    ∀ (db : Database) (op : Operation), db.GatesInPlace → op.Fits → (op.run db).2.GatesInPlace := by
  refine ⟨?_, ?_, Schema.fresh_gatesInPlace, fun _ _ => run_gatesInPlace⟩
  · intro db ops subject keep hkeep hsuits
    obtain ⟨hanswers, hend⟩ := answersOn_filter hkeep hsuits hsuits fun _ _ => rfl
    exact ⟨hanswers, fun place hplace => Query.row?_congr (hend place hplace)⟩
  · intro db op op' subject subject' hsubject hsubject' hne h h'
    exact run_comm hsubject hsubject' hne h h'

/-- A gate is added and switched among operations on another gate and on a document. -/
theorem subjects_do_not_interfere_switched :
    answersOn (.gate "a") [.createGate "a" true, .createGate "b" true, .acquire "a" ⟨"t", "h"⟩,
        .updateGate "a" false, .deleteGate "b", .getGate "a"] Schema.fresh =
      [(.createGate "a" true, .ok .done), (.updateGate "a" false, .ok .done),
        (.getGate "a", .ok (.gate ⟨"a", false⟩))] := by
  refine (subjects_do_not_interfere.1 _ _ (.gate "a") (fun op => op.subject = some (.gate "a"))
    ?_ ?_).1.trans ?_
  · intro op _ hsubject
    simpa using hsubject
  · intro key _
    refine ⟨Schema.fresh_gatesInPlace, ?_⟩
    simp [Fits, RecordKind.Fits, LockRequest.lockOn, RowForm.lengthLimit]
    decide
  · decide +kernel

end Operation

end ControlPlane
