import ControlPlane.Proofs.Json.ReadThrough
import ControlPlane.Proofs.Json.ValueRead

/-!
# The texts that are read

A text is read in full just if it is JSON by the grammar and has no flaw (`Value.parse_iff`). That a
flaw is always found is an induction on the flaw (`stops_of_flawed`): what stands in front of it is
read, or has been refused before. That nothing but JSON is read comes from the reader that passes over
values, which goes as far as the full reader.
-/

namespace ControlPlane

namespace Json

open Ascii

/-! ## Flaws -/

variable {base : List Frame} {rest s : Input} {bytes : List UInt8} {kind : FaultKind} {depth : Nat}

/-- Whether the full reader comes to a fault in bytes that a phrase derives inside of `depth` arrays and
objects, whatever stands around them. -/
def Stops (depth : Nat) : Phrase → List UInt8 → Prop
  | .value, bytes => ∀ (base : List Frame) (before : List UInt8) (rest : Input),
      base.length = depth → IsBlanks before → EndsNumber rest →
      ∃ f, takeTurns base .before (before ++ (bytes ++ rest)) = .error f
  | .items, bytes => ∀ (base : List Frame) (items : List Value) (rest : Input),
      base.length + 1 = depth →
      ∃ f, takeTurns (.list items :: base) .before (bytes ++ closeBracket :: rest) = .error f
  | .members _, bytes => ∀ (base : List Frame) (done : List (String × Value)) (rest : Input),
      base.length + 1 = depth → ∃ f, takeMembers done base (bytes ++ closeBrace :: rest) = .error f

/-- A reader comes to a fault if what it goes on with always does. -/
theorem Leads.stops {α : Type} {admitted : FaultKind → Prop} {P : α → Prop}
    {next : α → Except Fault (Value × Input)} {r : Except Fault (Value × Input)}
    (h : Leads admitted P next r) (hnext : ∀ a, P a → ∃ f, next a = .error f) : ∃ f, r = .error f := by
  cases h with
  | behind a h => exact hnext a h
  | error f _ => exact ⟨f, rfl⟩

theorem Stops.scalar {b : UInt8} {tail : List UInt8} (hblank : isBlank b = false)
    (hlist : b ≠ openBracket) (hobject : b ≠ openBrace)
    (h : ∀ rest, EndsNumber rest → ∃ f, readScalar b (tail ++ rest) = .error f) :
    Stops depth .value (b :: tail) := by
  intro base before rest _ hbefore hrest
  have hs : skipBlanks (before ++ (b :: tail ++ rest)) = b :: (tail ++ rest) := by
    rw [skipBlanks_append hbefore, List.cons_append, skipBlanks_cons hblank]
  obtain ⟨f, hf⟩ := h rest hrest
  refine ⟨f, ?_⟩
  rw [takeTurns_scalar hs hlist hobject, hf]
  rfl

/-- A number that is out of range is not read. -/
theorem Ranged.stops {exceeds : Prop} {r : Except Fault (Number × Input)} (h : Ranged exceeds rest r)
    (hexceeds : exceeds) : ∃ f, (r.map fun r => (Value.number r.1, r.2)) = .error f := by
  cases h with
  | read _ hnot => exact absurd hexceeds hnot
  | exceeds left => exact ⟨.behind .numberOutOfRange left, rfl⟩

theorem Stops.number {sign : List UInt8} (hsign : sign ∈ ([[], [minus]] : List (List UInt8)))
    (h : OutOfRange bytes) : Stops depth .value (sign ++ bytes) := by
  simp only [List.mem_cons, List.not_mem_nil, or_false] at hsign
  rcases hsign with rfl | rfl
  · obtain ⟨b, tail, rfl, hb⟩ := exists_head_of_isUnsigned h.isUnsigned
    have hne {d : UInt8} (hd : isDigit d = false) : b ≠ d := by
      rintro rfl
      rw [hb] at hd
      cases hd
    refine .scalar (startsValue_of_isDigit hb).1 (hne rfl) (hne rfl) fun rest hrest => ?_
    rw [readScalar_of_isDigit hb]
    exact (ranged_of_isUnsigned h.isUnsigned hrest false).stops h
  · refine .scalar (by decide) (by decide) (by decide) fun rest hrest => ?_
    exact (ranged_of_isUnsigned h.isUnsigned hrest true).stops h

theorem Stops.string {spelling : List UInt8} (h : Unpaired kind spelling) :
    Stops depth .value (quote :: (spelling ++ [quote])) := by
  refine .scalar (by decide) (by decide) (by decide) fun rest _ => ?_
  rw [List.append_assoc, List.singleton_append]
  obtain ⟨left, hleft⟩ := readText_of_unpaired h rest
  refine ⟨.behind kind left, ?_⟩
  show (readText _).map _ = _
  rw [hleft]
  rfl

theorem Stops.deep {b : UInt8} {tail : List UInt8} (hb : b ∈ [openBracket, openBrace])
    (hdepth : depthLimit ≤ depth) : Stops depth .value (b :: tail) := by
  intro base before rest hbase hbefore _
  rw [List.cons_append]
  exact ⟨_, takeTurns_deep hbefore hb (hbase ▸ hdepth)⟩

theorem Stops.list (h : Derives .items bytes) (ih : Stops (depth + 1) .items bytes) :
    Stops depth .value (openBracket :: (bytes ++ [closeBracket])) := by
  by_cases hdeep : depthLimit ≤ depth
  · exact .deep (by decide) hdeep
  · intro base before rest hdepth hbefore _
    subst hdepth
    obtain ⟨b, tail, hb, hstarts⟩ := exists_head_of_items h (closeBracket :: rest)
    rw [List.cons_append, List.append_assoc, List.singleton_append,
      takeTurns_openBracket hbefore hdeep hb, if_neg hstarts.2.1]
    exact ih base [] rest rfl

theorem Stops.object {letters : List (List (Option Char) × List UInt8)}
    (h : Derives (.members letters) bytes) (ih : Stops (depth + 1) (.members letters) bytes) :
    Stops depth .value (openBrace :: (bytes ++ [closeBrace])) := by
  by_cases hdeep : depthLimit ≤ depth
  · exact .deep (by decide) hdeep
  · intro base before rest hdepth hbefore _
    subst hdepth
    obtain ⟨tail, htail⟩ := exists_quote_of_members h (closeBrace :: rest)
    rw [List.cons_append, List.append_assoc, List.singleton_append,
      takeTurns_openBrace hbefore hdeep htail]
    exact ih base [] rest rfl

/-- The reader comes to the items behind a comma, and to the fault in them. -/
theorem Stops.laterItem {before behind more : List UInt8} (hbefore : IsBlanks before)
    (hvalue : Derives .value bytes) (hbehind : IsBlanks behind) (hmore : Derives .items more)
    (ih : Stops depth .items more) :
    Stops depth .items (before ++ (bytes ++ (behind ++ comma :: more))) := by
  intro base items rest hdepth
  have hends := endsNumber_behind hbehind (b := comma) (by decide) (more ++ closeBracket :: rest)
  obtain ⟨b, tail, hb, hstarts⟩ := exists_head_of_items hmore (closeBracket :: rest)
  simp only [List.append_assoc, List.cons_append]
  refine Leads.stops (goesOnBehind_of_derives hvalue _ before _ hbefore hends) fun value _ => ?_
  rw [takeTurns_listComma hbehind hb hstarts.2.1, ← hb, takeTurns_skipBlanks]
  exact ih base _ rest hdepth

theorem Stops.key {letters : List (List (Option Char) × List UInt8)} {before spelling more : List UInt8}
    (hbefore : IsBlanks before) (h : Unpaired kind spelling) :
    Stops depth (.members letters) (before ++ quote :: (spelling ++ quote :: more)) := by
  intro base done rest _
  have htail : skipBlanks (before ++ quote :: (spelling ++ quote :: more) ++ closeBrace :: rest) =
      quote :: (spelling ++ quote :: (more ++ closeBrace :: rest)) := by
    rw [List.append_assoc, skipBlanks_append hbefore, List.cons_append, skipBlanks_cons (by decide),
      List.append_assoc, List.cons_append]
  obtain ⟨left, hleft⟩ := readText_of_unpaired h (more ++ closeBrace :: rest)
  refine ⟨.behind kind left, ?_⟩
  rw [takeMembers, htail, List.tail_cons, readKey, hleft]
  rfl

/-- The reader comes to the members behind a comma, and to the fault in them. -/
theorem Stops.laterMember {key : List (Option Char)} {label before behind more : List UInt8}
    {letters : List (List (Option Char) × List UInt8)} (hlabel : IsLabel key label)
    (hbefore : IsBlanks before) (hvalue : Derives .value bytes) (hbehind : IsBlanks behind)
    (hmore : Derives (.members letters) more) (ih : Stops depth (.members letters) more) :
    Stops depth (.members ((key, bytes) :: letters))
      (label ++ (before ++ (bytes ++ (behind ++ comma :: more)))) := by
  intro base done rest hdepth
  have hends := endsNumber_behind hbehind (b := comma) (by decide) (more ++ closeBrace :: rest)
  have hmembers := Derives.memberComma hlabel hbefore hvalue hbehind hmore
  obtain ⟨tail, htail⟩ := exists_quote_of_members hmore (closeBrace :: rest)
  rw [List.append_assoc]
  refine (leads_takeMembers hlabel hmembers depth done base _).stops fun name _ => ?_
  simp only [List.append_assoc, List.cons_append]
  refine Leads.stops (goesOnBehind_of_derives hvalue _ before _ hbefore hends) fun value _ => ?_
  rw [takeTurns_objectComma hbehind htail]
  exact ih base _ rest hdepth

/-- The fault is in the value of a member. -/
theorem Stops.member {key : List (Option Char)} {label before behind : List UInt8}
    {letters : List (List (Option Char) × List UInt8)} (hlabel : IsLabel key label)
    (hbefore : IsBlanks before)
    (hmembers : Derives (.members letters) (label ++ (before ++ (bytes ++ behind))))
    (hbehind : ∀ rest, EndsNumber (behind ++ closeBrace :: rest)) (ih : Stops depth .value bytes) :
    Stops depth (.members letters) (label ++ (before ++ (bytes ++ behind))) := by
  intro base done rest hdepth
  rw [List.append_assoc]
  refine (leads_takeMembers hlabel hmembers depth done base _).stops fun name _ => ?_
  simp only [List.append_assoc]
  exact ih _ before _ hdepth hbefore (hbehind rest)

/-- What has a flaw is not read. -/
theorem stops_of_flawed {phrase : Phrase} (h : Flawed kind depth phrase bytes) :
    Stops depth phrase bytes := by
  induction h with
  | number _ hsign h => exact .number hsign h
  | text _ h => exact .string h
  | deep _ hdepth hb _ => exact .deep hb hdepth
  | list h ih => exact .list h.derives ih
  | object h ih => exact .object h.derives ih
  | item hbefore _ hbehind ih =>
    intro base items rest hdepth
    simp only [List.append_assoc]
    exact ih _ _ _ hdepth hbefore (endsNumber_behind hbehind (by decide) rest)
  | itemComma hbefore _ hbehind _ ih =>
    intro base items rest hdepth
    simp only [List.append_assoc, List.cons_append]
    exact ih _ _ _ hdepth hbefore (endsNumber_behind hbehind (by decide) _)
  | laterItem hbefore hs hbehind h ih => exact .laterItem hbefore hs hbehind h.derives ih
  | key hbefore _ h _ => exact .key hbefore h
  | member hlabel hbefore h hbehind ih =>
    exact .member hlabel hbefore (.member hlabel hbefore h.derives hbehind)
      (endsNumber_behind hbehind (by decide)) ih
  | @memberComma _ _ _ _ _ behind rest _ hlabel hbefore h hbehind hrest ih =>
    refine .member hlabel hbefore (.memberComma hlabel hbefore h.derives hbehind hrest) ?_ ih
    intro rest'
    rw [List.append_assoc]
    exact endsNumber_behind hbehind (by decide) _
  | laterMember hlabel hbefore hs hbehind h ih =>
    exact .laterMember hlabel hbefore hs hbehind h.derives ih

/-! ## Whole texts -/

/-- The texts that hold a value. -/
inductive Holds (bytes : List UInt8) : List UInt8 → Prop
  /-- There may be white space around the value. -/
  | spaced {before behind : List UInt8} (hbefore : IsBlanks before) (h : Derives .value bytes)
    (hbehind : IsBlanks behind) : Holds bytes (before ++ (bytes ++ behind))

/-- Whether a text is JSON with a flaw in it. -/
def HasFlaw (kind : FaultKind) (s : List UInt8) : Prop :=
  ∃ bytes, Holds bytes s ∧ Flawed kind 0 .value bytes

/-- Whether a text is JSON without a flaw. -/
structure IsLegible (s : List UInt8) : Prop where
  /-- The text is JSON. -/
  holds : ∃ bytes, Holds bytes s
  /-- There is no flaw of any kind. -/
  flawless : ∀ kind, ¬ HasFlaw kind s

theorem FaultKind.kind_complain (kind : FaultKind) (line column count : Nat) (text : Input) :
    (kind.complain line column count text).kind = kind := by
  fun_induction FaultKind.complain kind line column count text <;> trivial

theorem Fault.kind_locate (f : Fault) (text : Input) : (f.locate text).kind = f.kind :=
  f.kind.kind_complain 1 0 _ text

theorem endsNumber_of_isBlanks {blanks : List UInt8} (h : IsBlanks blanks) : EndsNumber blanks := by
  cases blanks with
  | nil => exact nofun
  | cons b blanks => exact endsNumber_behind h (b := comma) (by decide) []

theorem takeTurns_done (value : Value) (rest : Input) :
    takeTurns [] (.behind value) rest = .ok (value, rest) := by
  rw [takeTurns.eq_def]
  rfl

theorem parse_of_error {f : Fault} (h : readValue s = .error f) :
    Value.parse s = .error (f.locate s) := by
  unfold Value.parse parseWith
  rw [h]

/-- A text that holds a value is read, unless it has a flaw of the kind that is found. -/
theorem Value.parse_of_holds (h : Holds bytes s) :
    (∃ value, Value.parse s = .ok value) ∨
      ∃ complaint, Value.parse s = .error complaint ∧ Flawed complaint.kind 0 .value bytes := by
  cases h with
  | @spaced before behind hbefore hvalue hbehind =>
    have hleads := goesOnBehind_of_derives hvalue [] before behind hbefore (endsNumber_of_isBlanks hbehind)
    generalize hread : takeTurns [] .before (before ++ (bytes ++ behind)) = r at hleads
    cases hleads with
    | behind value =>
      rw [takeTurns_done] at hread
      exact .inl ⟨value, parseWith_of_blanks hread hbehind⟩
    | error f hf =>
      refine .inr ⟨_, parse_of_error hread, ?_⟩
      rw [f.kind_locate]
      exact hf

/-- A text that has a flaw is not read. -/
theorem Value.parse_of_hasFlaw (h : HasFlaw kind s) : ∃ complaint, Value.parse s = .error complaint := by
  obtain ⟨bytes, hholds, hflawed⟩ := h
  cases hholds with
  | spaced hbefore _ hbehind =>
    obtain ⟨f, hf⟩ :=
      stops_of_flawed hflawed [] _ _ rfl hbefore (endsNumber_of_isBlanks hbehind)
    exact ⟨_, parse_of_error hf⟩

/-- Nothing but JSON is read. -/
theorem Value.holds_of_parse (hs : IsText s) {value : Value} (h : Value.parse s = .ok value) :
    ∃ bytes, Holds bytes s := by
  obtain ⟨rest, hread, hrest⟩ := of_parseWith h
  have hend : IsEndOfText s := ⟨[], hs⟩
  obtain ⟨before, bytes, hbefore, hvalue, rfl⟩ :=
    value_of_skipValue hend (skipValue_of_readValue hend hread)
  exact ⟨bytes, .spaced hbefore hvalue hrest⟩

/-- A text is read in full just if it is JSON without a flaw. -/
theorem Value.parse_iff (hs : IsText s) : (∃ value, Value.parse s = .ok value) ↔ IsLegible s := by
  constructor
  · rintro ⟨value, hvalue⟩
    refine ⟨Value.holds_of_parse hs hvalue, fun kind hflaw => ?_⟩
    obtain ⟨complaint, hcomplaint⟩ := Value.parse_of_hasFlaw hflaw
    rw [hcomplaint] at hvalue
    cases hvalue
  · rintro ⟨⟨bytes, hholds⟩, hflawless⟩
    rcases Value.parse_of_holds hholds with hread | ⟨complaint, -, hflawed⟩
    · exact hread
    · exact absurd ⟨bytes, hholds, hflawed⟩ (hflawless complaint.kind)

end Json

end ControlPlane
