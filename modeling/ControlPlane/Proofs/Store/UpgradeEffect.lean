import ControlPlane.Proofs.Store.Upgrade

/-!
# What bringing a database up to date does

A database may have any of the tables, with any rows, and any version. Bringing it up to date makes the
tables of the updates that its version says it lacks and writes the new version, and nothing else
(`Schema.bring_eq`). That is proved of every list of updates, and so also of the shorter lists of older
programs, whose databases are brought up to date in the end.
-/

namespace ControlPlane

variable {db db' : Database} {name : String} {names : List String} {version : UInt64}
  {fault : StorageFault}

namespace Database

/-! ## Tables of records -/

theorem findSome?_refusal_congr (names : List String)
    (h : ∀ name ∈ names, db'.tables[name]? = db.tables[name]?) :
    names.findSome? db'.refusal = names.findSome? db.refusal := by
  induction names with
  | nil => rfl
  | cons name names ih =>
    have hrest := ih fun name' hmem => h name' (List.mem_cons_of_mem _ hmem)
    have hfirst : db'.refusal name = db.refusal name := by
      unfold refusal bytes?
      rw [h name List.mem_cons_self]
    rw [List.findSome?_cons, List.findSome?_cons, hfirst, hrest]

/-! ## The table of the version -/

/-- The numbers in a table, none if it is not a table of numbers. -/
def numbers (db : Database) (name : String) : Rows UInt64 :=
  match db.tables[name]? with
  | some (.words rows) => rows
  | _ => ∅

theorem numbers_of_words {rows : Rows UInt64} (h : db.tables[name]? = some (.words rows)) :
    db.numbers name = rows := by
  unfold numbers
  rw [h]

/-- The type of a table, if it exists. -/
def type? (db : Database) (name : String) : Option RowType := db.tables[name]?.map Table.type

/-- Whether two databases have the same tables, of the same types. -/
def SameTables (db db' : Database) : Prop := ∀ name, db.type? name = db'.type? name

theorem mem_names : name ∈ db.names ↔ db.tables[name]?.isSome := by
  rw [names, Std.ExtTreeMap.mem_keys, Std.ExtTreeMap.mem_iff_isSome_getElem?]

theorem refusal_of_type? (h : db.type? name = none ∨ db.type? name = some .bytes) :
    db.refusal name = none := by
  unfold type? at h
  unfold refusal bytes?
  cases htable : db.tables[name]? with
  | none => rfl
  | some table =>
    rw [htable] at h
    cases table with
    | bytes rows => rfl
    | words rows => rcases h with h | h <;> cases h
    | other => rcases h with h | h <;> cases h

end Database

namespace Schema

/-! ## Bringing a database up to date, for any list of updates -/

/-- Brings a database up to date in a program whose updates make some tables in order. -/
def bring (names : List String) (db : Database) : Except StorageFault UInt64 × Database :=
  let target := names.length.toUInt64
  let upgraded : Except StorageFault (UInt64 × Database) := do
    let (rows, opened) ← db.openWords versionTable
    let version := (rows[versionKey]?).getD 0
    if target ≤ version then .ok (version, db)
    else do
      let opened ← applyAll opened (names.drop version.toNat)
      let final ← opened.putWord versionTable versionKey target
      .ok (target, final)
  match upgraded with
  | .ok (version, db') => (.ok version, db')
  | .error fault => (.error fault, db)

/-- This program has updates of its own. -/
theorem apply_eq_bring (db : Database) : apply db = bring updates db := rfl

theorem words?_of_version (h : Schema.version db = .ok version) :
    ∃ found, db.words? versionTable = .ok found ∧
      found.getD ∅ = db.numbers versionTable ∧
      (db.numbers versionTable)[versionKey]?.getD 0 = version := by
  obtain ⟨found, hwords, hversion⟩ := Except.of_bind h
  have hfound : found.getD ∅ = db.numbers versionTable := by
    unfold Database.words? at hwords
    unfold Database.numbers
    split at hwords
    · next hnone =>
      cases hwords
      rw [hnone]
      rfl
    · next rows hsome =>
      cases hwords
      rw [hsome]
      rfl
    · cases hwords
  refine ⟨found, hwords, hfound, ?_⟩
  rw [← hfound]
  exact Except.ok.inj hversion

/-- Opening the table of the version does nothing to the other tables. -/
theorem openWords_of_version (h : Schema.version db = .ok version) :
    ∃ opened, db.openWords versionTable = .ok (db.numbers versionTable, opened) ∧
      opened.tables[versionTable]? = some (.words (db.numbers versionTable)) ∧
      ∀ name : String, name ≠ versionTable → opened.tables[name]? = db.tables[name]? := by
  obtain ⟨found, hwords, hfound, -⟩ := words?_of_version h
  unfold Database.openWords
  rw [hwords, ← hfound]
  cases found with
  | none =>
    refine ⟨db.put versionTable (.words ∅), rfl, ?_, fun name hname => ?_⟩
    · rw [Database.tables_put, if_pos rfl]
      rfl
    · rw [Database.tables_put, if_neg (Ne.symm hname)]
  | some rows =>
    refine ⟨db, rfl, ?_, fun _ _ => rfl⟩
    unfold Database.words? at hwords
    split at hwords
    · cases hwords
    · next hsome =>
      cases hwords
      exact hsome
    · cases hwords

theorem putWord_of_words {rows : Rows UInt64} (h : db.tables[name]? = some (.words rows))
    (key : String) (value : UInt64) :
    db.putWord name key value = .ok (db.put name (.words (rows.insert key value))) := by
  unfold Database.putWord Database.openWords Database.words?
  rw [h]
  rfl

/-- A database whose version cannot be read is not brought up to date. -/
theorem bring_of_no_version (names : List String) (h : Schema.version db = .error fault) :
    bring names db = (.error fault, db) := by
  have hwords : db.words? versionTable = .error fault := by
    rcases Except.error_of_bind h with hwords | ⟨found, -, hfound⟩
    · exact hwords
    · cases hfound
  have hopen : db.openWords versionTable = .error fault := by
    unfold Database.openWords
    rw [hwords]
    rfl
  simp only [bring, hopen, bind, Except.bind]

/-- A database that is up to date, or newer, is left as it is. -/
theorem bring_of_current (h : Schema.version db = .ok version)
    (hcurrent : names.length.toUInt64 ≤ version) : bring names db = (.ok version, db) := by
  obtain ⟨opened, hopened, -, -⟩ := openWords_of_version h
  obtain ⟨-, -, -, hversion⟩ := words?_of_version h
  simp only [bring, hopened, bind, Except.bind, hversion, if_pos hcurrent]

section Older

variable (h : Schema.version db = .ok version) (hold : ¬ names.length.toUInt64 ≤ version)
  (hnames : versionTable ∉ names)

include h hold hnames

/-- One update that fails is enough for none to be applied. -/
theorem bring_of_refusal (hrefusal : (names.drop version.toNat).findSome? db.refusal = some fault) :
    bring names db = (.error fault, db) := by
  obtain ⟨opened, hopened, -, hothers⟩ := openWords_of_version h
  obtain ⟨-, -, -, hversion⟩ := words?_of_version h
  have hsame := Database.findSome?_refusal_congr (names.drop version.toNat)
    fun name hmem => hothers name fun heq => hnames (heq ▸ List.mem_of_mem_drop hmem)
  have happly : applyAll opened (names.drop version.toNat) = .error fault := by
    rw [applyAll_eq, hsame, hrefusal]
  simp only [bring, hopened, bind, Except.bind, hversion, if_neg hold, happly]

/-- If no update fails, the tables that are lacking are made and the version is written. -/
theorem bring_of_older (hrefusal : (names.drop version.toNat).findSome? db.refusal = none) :
    ∃ db', bring names db = (.ok names.length.toUInt64, db') ∧
      ∀ name : String, db'.tables[name]? =
        if name = versionTable then
          some (.words ((db.numbers versionTable).insert versionKey names.length.toUInt64))
        else if name ∈ names.drop version.toNat then some (db.tables[name]?.getD (.bytes ∅))
        else db.tables[name]? := by
  obtain ⟨opened, hopened, hown, hothers⟩ := openWords_of_version h
  obtain ⟨-, -, -, hversion⟩ := words?_of_version h
  have hlacking : versionTable ∉ names.drop version.toNat :=
    fun hmem => hnames (List.mem_of_mem_drop hmem)
  have hsame := Database.findSome?_refusal_congr (names.drop version.toNat)
    fun name hmem => hothers name fun heq => hlacking (heq ▸ hmem)
  have happly : applyAll opened (names.drop version.toNat) =
      .ok (opened.makingAll (names.drop version.toNat)) := by
    rw [applyAll_eq, hsame, hrefusal]
  have hmade : (opened.makingAll (names.drop version.toNat)).tables[versionTable]? =
      some (.words (db.numbers versionTable)) := by
    rw [Database.tables_makingAll, if_neg hlacking, hown]
  have hput := putWord_of_words hmade versionKey names.length.toUInt64
  refine ⟨(opened.makingAll (names.drop version.toNat)).put versionTable
    (.words ((db.numbers versionTable).insert versionKey names.length.toUInt64)), ?_, fun name => ?_⟩
  · simp only [bring, hopened, bind, Except.bind, hversion, if_neg hold, happly, hput]
  rw [Database.tables_put]
  by_cases hname : name = versionTable
  · rw [if_pos hname.symm, if_pos hname]
  · rw [if_neg (Ne.symm hname), if_neg hname, Database.tables_makingAll, hothers name hname]

/-- The types of the tables afterwards. -/
theorem type?_of_older {db' : Database}
    (hrefusal : (names.drop version.toNat).findSome? db.refusal = none)
    (hbring : (bring names db).2 = db') (name : String) :
    db'.type? name =
      if name = versionTable then some .word
      else if name ∈ names.drop version.toNat then some ((db.type? name).getD .bytes)
      else db.type? name := by
  obtain ⟨_, hresult, htables⟩ := bring_of_older h hold hnames hrefusal
  rw [hresult] at hbring
  subst hbring
  unfold Database.type?
  rw [htables]
  split
  · rfl
  · split
    · cases db.tables[name]? <;> rfl
    · rfl

end Older

/-! ## The effect -/

/-- What it does to a database of some version to be brought up to date, in a program whose updates
make some tables. -/
structure Upgrade (updates : List String) (stored : UInt64) (db db' : Database) : Prop where
  /-- The version is the program's own, unless it was higher. -/
  version : Schema.version db' = .ok (max stored updates.length.toUInt64)
  /-- The tables are those that there were and, if the version was lower than the program's, the table
  of the version and those of the updates that were lacking. -/
  tables : ∀ name, name ∈ db'.names ↔ name ∈ db.names ∨
    stored < updates.length.toUInt64 ∧ (name = versionTable ∨ name ∈ updates.drop stored.toNat)
  /-- Every table but that of the version is as it was. -/
  kept : ∀ (name : String) (table : Table), name ≠ versionTable →
    db.tables[name]? = some table → db'.tables[name]? = some table
  /-- The tables that there were not have no rows. -/
  made : ∀ (name : String) (table : Table), name ≠ versionTable →
    db.tables[name]? = none → db'.tables[name]? = some table → table = .bytes ∅
  /-- In the table of the version every other number is as it was. -/
  numbers : ∀ key, key ≠ versionKey →
    (db'.numbers versionTable)[key]? = (db.numbers versionTable)[key]?
  /-- A database whose version is the program's, or higher, is as it was. -/
  current : updates.length.toUInt64 ≤ stored → db' = db

theorem max_of_le {a b : UInt64} (h : b ≤ a) : max a b = a := by
  show (if a ≤ b then b else a) = a
  split
  · next hle => exact UInt64.le_antisymm h hle
  · rfl

theorem max_of_not_le {a b : UInt64} (h : ¬ b ≤ a) : max a b = b :=
  if_pos (UInt64.le_of_lt (UInt64.not_le.mp h))

theorem Upgrade.of_current (h : Schema.version db = .ok version)
    (hcurrent : names.length.toUInt64 ≤ version) : Upgrade names version db db where
  version := by rw [max_of_le hcurrent, h]
  tables := by
    intro name
    have hnot : ¬ version < names.length.toUInt64 := UInt64.not_lt.mpr hcurrent
    simp only [hnot, false_and, or_false]
  kept := fun _ _ _ ht => ht
  made := by
    intro name table _ hnone hsome
    rw [hnone] at hsome
    cases hsome
  numbers := fun _ _ => rfl
  current := fun _ => rfl

theorem Upgrade.of_tables (hold : ¬ names.length.toUInt64 ≤ version)
    (htables : ∀ name : String, db'.tables[name]? =
      if name = versionTable then
        some (.words ((db.numbers versionTable).insert versionKey names.length.toUInt64))
      else if name ∈ names.drop version.toNat then some (db.tables[name]?.getD (.bytes ∅))
      else db.tables[name]?) :
    Upgrade names version db db' where
  version := by
    have hwords : db'.words? versionTable =
        .ok (some ((db.numbers versionTable).insert versionKey names.length.toUInt64)) := by
      unfold Database.words?
      rw [htables, if_pos rfl]
    unfold Schema.version
    rw [hwords, max_of_not_le hold]
    show Except.ok _ = _
    rw [Option.getD_some, Std.ExtTreeMap.getElem?_insert_self]
    rfl
  tables := by
    intro name
    rw [Database.mem_names, Database.mem_names, htables]
    have hlt : version < names.length.toUInt64 := UInt64.not_le.mp hold
    by_cases hname : name = versionTable
    · simp [hname, hlt]
    · by_cases hmem : name ∈ names.drop version.toNat
      · simp [hname, hmem, hlt]
      · simp [hname, hmem]
  kept := by
    intro name table hname ht
    rw [htables, if_neg hname, ht]
    split <;> rfl
  made := by
    intro name table hname hnone ht
    rw [htables, if_neg hname, hnone] at ht
    split at ht
    · exact (Option.some.inj ht).symm
    · cases ht
  numbers := by
    intro key hkey
    have hown := (htables versionTable).trans (if_pos rfl)
    rw [Database.numbers_of_words hown, Std.ExtTreeMap.getElem?_insert, if_neg]
    simpa using Ne.symm hkey
  current := fun h => absurd h hold

theorem bring_upgrade (hnames : versionTable ∉ names) (h : Schema.version db = .ok version)
    (hrefusal : (names.drop version.toNat).findSome? db.refusal = none) :
    ∃ db', bring names db = (.ok (max version names.length.toUInt64), db') ∧
      Upgrade names version db db' := by
  by_cases hcurrent : names.length.toUInt64 ≤ version
  · refine ⟨db, ?_, .of_current h hcurrent⟩
    rw [bring_of_current h hcurrent, max_of_le hcurrent]
  · obtain ⟨db', hbring, htables⟩ := bring_of_older h hcurrent hnames hrefusal
    refine ⟨db', ?_, .of_tables hcurrent htables⟩
    rw [hbring, max_of_not_le hcurrent]

/-- Doing it a second time does nothing. -/
theorem bring_bring (hnames : versionTable ∉ names) (db : Database) :
    bring names (bring names db).2 = ((bring names db).1, (bring names db).2) := by
  cases h : Schema.version db with
  | error fault => rw [bring_of_no_version names h, bring_of_no_version names h]
  | ok version =>
    by_cases hcurrent : names.length.toUInt64 ≤ version
    · rw [bring_of_current h hcurrent, bring_of_current h hcurrent]
    · cases hrefusal : (names.drop version.toNat).findSome? db.refusal with
      | some fault =>
        have hbring := bring_of_refusal h hcurrent hnames hrefusal
        rw [hbring, hbring]
      | none =>
        obtain ⟨db', hbring, hupgrade⟩ := bring_upgrade hnames h hrefusal
        rw [hbring]
        refine bring_of_current hupgrade.version ?_
        rw [max_of_not_le hcurrent]
        exact UInt64.le_refl _

/-! ## Databases of older programs -/

/-- The type that a table has in a new database. -/
def newType (names : List String) (name : String) : Option RowType :=
  if name ∈ names then some .bytes
  else if name = versionTable ∧ names ≠ [] then some .word
  else none

/-- The number of updates can be written down as a version. -/
theorem toNat_length (hlength : names.length < UInt64.size) :
    names.length.toUInt64.toNat = names.length :=
  UInt64.toNat_ofNat_of_lt' hlength

theorem findSome?_refusal_eq_none
    (h : ∀ name ∈ names, db.type? name = none ∨ db.type? name = some .bytes) :
    names.findSome? db.refusal = none :=
  List.findSome?_eq_none_iff.mpr fun name hmem => Database.refusal_of_type? (h name hmem)

theorem bring_empty (names : List String) (hnames : versionTable ∉ names)
    (hlength : names.length < UInt64.size) :
    ∃ db', bring names .empty = (.ok names.length.toUInt64, db') ∧
      ∀ name, db'.type? name = newType names name := by
  have hversion : Schema.version .empty = .ok 0 := rfl
  have hnone : ∀ name, Database.empty.type? name = none := fun _ => rfl
  by_cases hempty : names = []
  · subst hempty
    refine ⟨.empty, bring_of_current hversion (UInt64.le_refl _), fun name => ?_⟩
    simp [hnone, newType]
  · have hold : ¬ names.length.toUInt64 ≤ 0 := by
      rw [UInt64.le_iff_toNat_le, toNat_length hlength]
      simpa using hempty
    have hrefusal : (names.drop (0 : UInt64).toNat).findSome? Database.empty.refusal = none :=
      findSome?_refusal_eq_none fun name _ => .inl (hnone name)
    obtain ⟨db', hbring, -⟩ := bring_of_older hversion hold hnames hrefusal
    refine ⟨db', hbring, fun name => ?_⟩
    rw [type?_of_older hversion hold hnames hrefusal (congrArg Prod.snd hbring), hnone]
    show (if name = versionTable then _ else if name ∈ names then _ else _) = newType names name
    unfold newType
    by_cases hname : name = versionTable
    · subst hname
      simp [hnames, hempty]
    · simp [hname]

/-- A database that an older program has made, and that has been filled with rows since, has in the end
the tables of a new database. -/
theorem bring_filled (earlier later : List String) (hnames : versionTable ∉ earlier ++ later)
    (hlength : (earlier ++ later).length < UInt64.size)
    (htypes : ∀ name, db.type? name = newType earlier name)
    (hversion : Schema.version db = .ok earlier.length.toUInt64) :
    ∃ db', bring (earlier ++ later) db = (.ok (earlier ++ later).length.toUInt64, db') ∧
      Upgrade (earlier ++ later) earlier.length.toUInt64 db db' ∧
      ∀ name, db'.type? name = newType (earlier ++ later) name := by
  have hcount : earlier.length.toUInt64.toNat = earlier.length :=
    toNat_length (by rw [List.length_append] at hlength; omega)
  have hdrop : (earlier ++ later).drop earlier.length.toUInt64.toNat = later := by
    rw [hcount, List.drop_left]
  have hrefusal : ((earlier ++ later).drop earlier.length.toUInt64.toNat).findSome? db.refusal =
      none := by
    rw [hdrop]
    refine findSome?_refusal_eq_none fun name hmem => ?_
    have hname : name ≠ versionTable := fun heq => hnames (heq ▸ List.mem_append_right _ hmem)
    rw [htypes, newType]
    split
    · exact .inr rfl
    · exact .inl (if_neg fun h => hname h.1)
  by_cases hlater : later = []
  · subst hlater
    rw [List.append_nil]
    have hcurrent := UInt64.le_refl earlier.length.toUInt64
    exact ⟨db, bring_of_current hversion hcurrent, .of_current hversion hcurrent, htypes⟩
  · have hold : ¬ (earlier ++ later).length.toUInt64 ≤ earlier.length.toUInt64 := by
      rw [UInt64.le_iff_toNat_le, hcount, toNat_length hlength, List.length_append]
      have hpos := List.length_pos_iff.mpr hlater
      omega
    obtain ⟨db', hbring, htables⟩ := bring_of_older hversion hold hnames hrefusal
    refine ⟨db', hbring, .of_tables hold htables, fun name => ?_⟩
    rw [type?_of_older hversion hold hnames hrefusal (congrArg Prod.snd hbring), hdrop, htypes]
    unfold newType
    by_cases hname : name = versionTable
    · subst hname
      simp [hnames, hlater]
    · by_cases hearlier : name ∈ earlier <;> by_cases hmem : name ∈ later <;>
        simp [hname, hearlier, hmem]

/-! ## The updates of this program -/

theorem versionTable_not_mem_updates : versionTable ∉ updates := by decide

/--
Bringing a database up to date, whichever tables there are, with whatever rows, and whatever version is
stored, if any. If the version cannot be read, or if one of the updates that are lacking fails, the
first failure in order is the result and the database stays as it is. Otherwise the result is the higher
of the version that was stored and the program's own, and the database has changed by what
`Schema.Upgrade` says and no more. A second time changes nothing and gives the same result.

So a database that a program with the first few updates has made, and that has been filled with rows
since, has in the end the same tables as a new one.
-/
theorem upgrade_from_any_version (db : Database) :
    (∀ fault, Schema.version db = .error fault → apply db = (.error fault, db)) ∧
    (∀ stored, Schema.version db = .ok stored →
      (∀ fault, (updates.drop stored.toNat).findSome? db.refusal = some fault →
        apply db = (.error fault, db)) ∧
      ((updates.drop stored.toNat).findSome? db.refusal = none →
        ∃ db', apply db = (.ok (max stored current), db') ∧ Upgrade updates stored db db')) ∧
    apply (apply db).2 = ((apply db).1, (apply db).2) ∧
    ∀ count ≤ updates.length, ∃ older,
      bring (updates.take count) .empty = (.ok count.toUInt64, older) ∧
      (db.SameTables older → Schema.version db = .ok count.toUInt64 →
        ∃ db', apply db = (.ok current, db') ∧ Upgrade updates count.toUInt64 db db' ∧
          db'.SameTables fresh) := by
  have hown := versionTable_not_mem_updates
  simp only [apply_eq_bring]
  refine ⟨fun fault h => bring_of_no_version updates h, fun stored h => ⟨fun fault hrefusal => ?_,
    bring_upgrade hown h⟩, bring_bring hown db, fun count hcount => ?_⟩
  · have hold : ¬ current ≤ stored := by
      intro hcurrent
      have hdrop : updates.drop stored.toNat = [] :=
        List.drop_eq_nil_iff.mpr (UInt64.le_iff_toNat_le.mp hcurrent)
      rw [hdrop] at hrefusal
      cases hrefusal
    exact bring_of_refusal h hold hown hrefusal
  · have htake : (updates.take count).length = count := List.length_take_of_le hcount
    have hsplit : updates.take count ++ updates.drop count = updates := List.take_append_drop ..
    have hfresh : ∃ db', bring updates .empty = (.ok current, db') ∧
        ∀ name, db'.type? name = newType updates name := bring_empty updates hown (by decide)
    obtain ⟨older, hbring, htypes⟩ := bring_empty (updates.take count)
      (fun hmem => hown (List.mem_of_mem_take hmem)) (by rw [htake]; exact hcount.trans_lt (by decide))
    rw [htake] at hbring
    refine ⟨older, hbring, fun hsame hversion => ?_⟩
    have hfilled := bring_filled (updates.take count) (updates.drop count) (by rwa [hsplit])
      (by rw [hsplit]; decide) (fun name => (hsame name).trans (htypes name)) (by rwa [htake])
    rw [hsplit, htake] at hfilled
    obtain ⟨db', happly, hupgrade, htypes'⟩ := hfilled
    obtain ⟨new, hnew, hnewTypes⟩ := hfresh
    have hfresh : fresh = new := congrArg Prod.snd hnew
    refine ⟨db', happly, hupgrade, fun name => ?_⟩
    rw [htypes', hfresh, hnewTypes]

/-- A database that a program with the first two updates has made, with a setting in it. -/
def halfway : Database :=
  (bring (updates.take 2) .empty).2.put RecordKind.config.table (.bytes {("a", ⟨#[1]⟩)})

/-- The same, with a table in the way of the last update. -/
def obstructed : Database := halfway.put RecordKind.gate.table .other

theorem upgrade_from_any_version_halfway :
    (∃ db', apply halfway = (.ok 4, db') ∧ db'.SameTables fresh ∧
      db'.tables[RecordKind.config.table]? = some (.bytes {("a", ⟨#[1]⟩)})) ∧
    apply obstructed = (.error (.wrongType RecordKind.gate.table .half), obstructed) := by
  constructor
  · obtain ⟨-, -, -, hfirst⟩ := upgrade_from_any_version halfway
    obtain ⟨older, holder, hfilled⟩ := hfirst 2 (by decide)
    have hsame : halfway.SameTables older := by
      intro name
      rw [← show (bring (updates.take 2) .empty).2 = older from congrArg Prod.snd holder]
      unfold halfway Database.type?
      rw [Database.tables_put]
      split
      · next hname =>
        subst hname
        rfl
      · rfl
    obtain ⟨db', happly, hupgrade, htables⟩ := hfilled hsame (by rfl)
    exact ⟨db', happly, htables, hupgrade.kept _ _ (by decide) (by rfl)⟩
  · obtain ⟨-, hstored, -, -⟩ := upgrade_from_any_version obstructed
    exact (hstored 2 (by rfl)).1 _ (by rfl)

end Schema
end ControlPlane
