import ControlPlane.Proofs.Json.Flaws
import ControlPlane.Proofs.Json.PrintedValue
import ControlPlane.Proofs.Json.ReadThrough
import Mathlib.Data.List.Forall2

/-!
# Values are read

Whatever the grammar derives is read to its end, unless it has a flaw (`goesOnBehind_of_derives`). The
induction is on the derivation, one lemma for each production, and says as well what is read: a text
just for a string, and for an object a member for each of its entries.
-/

namespace ControlPlane

namespace Json

open Ascii

/-- Whether bytes are a string that spells a text. -/
def IsStringOf (text : String) (bytes : List UInt8) : Prop :=
  ∃ s, bytes = quote :: (s ++ [quote]) ∧ Spells text s

/-- Whether a member is what an entry says: it has the same key, and it is a text just where the entry
is a string. -/
structure Denotes (entry : String × List UInt8) (member : String × Value) : Prop where
  /-- The keys are the same. -/
  key : member.1 = entry.1
  /-- The text is what the string spells. -/
  text : ∀ text : String, member.2 = .text text ↔ IsStringOf text entry.2

/-- Whether an entry is another one with its key as a text. -/
structure Names (letters : List (Option Char) × List UInt8) (entry : String × List UInt8) : Prop where
  /-- The values are the same. -/
  value : entry.2 = letters.2
  /-- If the letters of the key spell a text, then it is the key. -/
  key : ∀ text : String, letters.1 = text.toList.map some → entry.1 = text

/--
Whether a reader comes to what another one comes to behind something with a property, or to a fault of
an admitted kind.
-/
inductive Leads {α : Type} (admitted : FaultKind → Prop) (P : α → Prop)
    (next : α → Except Fault (Value × Input)) : Except Fault (Value × Input) → Prop
  /-- It goes on behind something. -/
  | behind (a : α) (h : P a) : Leads admitted P next (next a)
  /-- It comes to a fault. -/
  | error (f : Fault) (h : admitted f.kind) : Leads admitted P next (.error f)

section

variable {α β : Type} {admitted admitted' : FaultKind → Prop} {P : α → Prop} {Q : β → Prop}
  {next : α → Except Fault (Value × Input)} {next' : β → Except Fault (Value × Input)}

theorem Leads.trans {r : Except Fault (Value × Input)} (h : Leads admitted P next r)
    (hadmitted : ∀ kind, admitted kind → admitted' kind)
    (hnext : ∀ a, P a → Leads admitted' Q next' (next a)) : Leads admitted' Q next' r := by
  cases h with
  | behind a h => exact hnext a h
  | error f h => exact .error f (hadmitted _ h)

theorem Leads.of_yields {x : Except Fault α} (h : Yields admitted P x)
    (hadmitted : ∀ kind, admitted kind → admitted' kind)
    (hnext : ∀ a, P a → Leads admitted' Q next' (next a)) : Leads admitted' Q next' (x >>= next) := by
  cases h with
  | ok a h => exact hnext a h
  | error f h => exact .error f (hadmitted _ h)

end

variable {base : List Frame} {s rest : Input} {text : String}

/-- Reads the members of an object from before a label on, behind members that have been read. -/
def takeMembers (done : List (String × Value)) (base : List Frame) (s : Input) :
    Except Fault (Value × Input) := do
  let (key, mid) ← readKey (skipBlanks s).tail
  takeTurns (.object done key :: base) .before mid

/--
How the full reader goes on behind bytes that a phrase derives, if they have no flaw: behind a value
that is a text just if the bytes are a string, behind a list, or behind an object whose members are
what the entries say.
-/
def GoesOnBehind : Phrase → List UInt8 → Prop
  | .value, bytes => ∀ (base : List Frame) (before : List UInt8) (rest : Input),
      IsBlanks before → EndsNumber rest →
      Leads (Flawed · base.length .value bytes)
        (fun value => ∀ text, value = .text text ↔ IsStringOf text bytes)
        (fun value => takeTurns base (.behind value) rest)
        (takeTurns base .before (before ++ (bytes ++ rest)))
  | .items, bytes => ∀ (base : List Frame) (items : List Value) (rest : Input),
      Leads (Flawed · (base.length + 1) .items bytes) (fun _ : List Value => True)
        (fun items' => takeTurns base (.behind (.list items')) rest)
        (takeTurns (.list items :: base) .before (bytes ++ closeBracket :: rest))
  | .members letters, bytes => ∀ (base : List Frame) (done : List (String × Value)) (rest : Input),
      Leads (Flawed · (base.length + 1) (.members letters) bytes)
        (fun members => ∃ entries, List.Forall₂ Names letters entries ∧
          List.Forall₂ Denotes entries members)
        (fun members => takeTurns base (.behind (.ofMembers (done.reverse ++ members))) rest)
        (takeMembers done base (bytes ++ closeBrace :: rest))

/-! ## Scalars -/

theorem spells_unique {text text' : String} {bytes : List UInt8} (h : Spells text bytes)
    (h' : Spells text' bytes) : text = text' := by
  have hread := (readText_of_spells h []).symm.trans (readText_of_spells h' [])
  cases hread
  rfl

/-- A string has quotes around it. -/
theorem IsStringOf.head {b : UInt8} {tail : List UInt8} (h : IsStringOf text (b :: tail)) :
    b = quote := by
  obtain ⟨s, hs, -⟩ := h
  exact (List.cons.inj hs).1

/-- Where no string begins, no text is read. -/
theorem isText_iff_of_ne {value : Value} {b : UInt8} {tail : List UInt8}
    (hvalue : ∀ text, value ≠ .text text) (hb : b ≠ quote) (text : String) :
    value = .text text ↔ IsStringOf text (b :: tail) :=
  ⟨fun htext => absurd htext (hvalue text), fun hstring => absurd hstring.head hb⟩

/-- The reader goes on behind a scalar that is read to its end. -/
theorem GoesOnBehind.scalar {b : UInt8} {tail : List UInt8} (hblank : isBlank b = false)
    (hlist : b ≠ openBracket) (hobject : b ≠ openBrace)
    (h : ∀ (depth : Nat) (rest : Input), EndsNumber rest →
      Yields (Flawed · depth .value (b :: tail))
        (fun r => r.2 = rest ∧ ∀ text, r.1 = .text text ↔ IsStringOf text (b :: tail))
        (readScalar b (tail ++ rest))) :
    GoesOnBehind .value (b :: tail) := by
  intro base before rest hbefore hrest
  have hs : skipBlanks (before ++ (b :: tail ++ rest)) = b :: (tail ++ rest) := by
    rw [skipBlanks_append hbefore, List.cons_append, skipBlanks_cons hblank]
  rw [takeTurns_scalar hs hlist hobject]
  refine .of_yields (h base.length rest hrest) (fun _ hkind => hkind) ?_
  rintro ⟨value, _⟩ ⟨rfl, htext⟩
  exact .behind value htext

theorem GoesOnBehind.word {word : List UInt8} (h : word ∈ words) : GoesOnBehind .value word := by
  simp only [words, List.mem_cons, List.not_mem_nil, or_false] at h
  rcases h with rfl | rfl | rfl
  · refine .scalar (by decide) (by decide) (by decide) fun depth rest _ => ?_
    exact Yields.ok (Value.null, rest) ⟨rfl, isText_iff_of_ne (by simp) (by decide)⟩
  · refine .scalar (by decide) (by decide) (by decide) fun depth rest _ => ?_
    exact Yields.ok (Value.bool true, rest) ⟨rfl, isText_iff_of_ne (by simp) (by decide)⟩
  · refine .scalar (by decide) (by decide) (by decide) fun depth rest _ => ?_
    exact Yields.ok (Value.bool false, rest) ⟨rfl, isText_iff_of_ne (by simp) (by decide)⟩

/-- A number that is read to its end is no text. -/
theorem Ranged.yields {sign bytes tail : List UInt8} {b : UInt8} {r : Except Fault (Number × Input)}
    (h : Ranged (OutOfRange bytes) rest r) (hsign : sign ∈ ([[], [minus]] : List (List UInt8)))
    (hbytes : sign ++ bytes = b :: tail) (hb : b ≠ quote) (depth : Nat) :
    Yields (Flawed · depth .value (b :: tail))
      (fun r : Value × Input => r.2 = rest ∧ ∀ text, r.1 = .text text ↔ IsStringOf text (b :: tail))
      (r.map fun r => (Value.number r.1, r.2)) := by
  cases h with
  | read n => exact Yields.ok (Value.number n, rest) ⟨rfl, isText_iff_of_ne nofun hb⟩
  | exceeds left h =>
    rw [← hbytes]
    exact .behind (.number rfl hsign h)

theorem GoesOnBehind.unsigned {bytes : List UInt8} (h : IsUnsigned bytes) :
    GoesOnBehind .value bytes := by
  obtain ⟨b, tail, rfl, hb⟩ := exists_head_of_isUnsigned h
  have hne {d : UInt8} (hd : isDigit d = false) : b ≠ d := by
    rintro rfl
    rw [hb] at hd
    cases hd
  refine .scalar (startsValue_of_isDigit hb).1 (hne rfl) (hne rfl) fun depth rest hrest => ?_
  rw [readScalar_of_isDigit hb]
  exact (ranged_of_isUnsigned h hrest false).yields List.mem_cons_self rfl (hne rfl) depth

theorem GoesOnBehind.negative {bytes : List UInt8} (h : IsUnsigned bytes) :
    GoesOnBehind .value (minus :: bytes) := by
  refine .scalar (by decide) (by decide) (by decide) fun depth rest hrest => ?_
  have hsign : [minus] ∈ ([[], [minus]] : List (List UInt8)) := by decide
  exact (ranged_of_isUnsigned h hrest true).yields hsign rfl (by decide) depth

/-- A string is read as the text that it spells. -/
theorem GoesOnBehind.string {letters : List (Option Char)} {spelling : List UInt8}
    (h : Letters letters spelling) : GoesOnBehind .value (quote :: (spelling ++ [quote])) := by
  refine .scalar (by decide) (by decide) (by decide) fun depth rest _ => ?_
  rw [List.append_assoc, List.singleton_append]
  refine ((readText_yields h rest).weaken fun _ hkind => .text h hkind).map ?_
  rintro ⟨text, _⟩ ⟨rfl, hspells⟩
  refine ⟨rfl, fun text' => ⟨?_, ?_⟩⟩
  · intro heq
    cases heq
    exact ⟨spelling, rfl, hspells⟩
  · rintro ⟨s, hs, hspells'⟩
    obtain rfl : spelling = s := List.append_cancel_right (List.cons.inj hs).2
    rw [spells_unique hspells hspells']

/-! ## Opening signs -/

/-- An array or object is not read inside of too many others. -/
theorem takeTurns_deep {before tail : List UInt8} {b : UInt8} (hbefore : IsBlanks before)
    (hb : b ∈ [openBracket, openBrace]) (hdeep : depthLimit ≤ base.length) :
    takeTurns base .before (before ++ b :: tail) = .error (.facing .tooDeep (b :: tail)) := by
  refine takeTurns_of_error ?_
  show turnBefore _ _ = _
  simp only [List.mem_cons, List.not_mem_nil, or_false] at hb
  rcases hb with rfl | rfl
  all_goals
    rw [turnBefore, skipBlanks_append hbefore, skipBlanks_cons (by decide)]
    simp [hdeep, openBracket, openBrace]

/-- Reading a value begins with passing over white space. -/
theorem takeTurns_skipBlanks (stack : List Frame) (s : Input) :
    takeTurns stack .before (skipBlanks s) = takeTurns stack .before s := by
  have hturn : turn stack .before (skipBlanks s) = turn stack .before s := by
    simp only [turn, turnBefore, skipBlanks_skipBlanks]
  cases h : turn stack .before s with
  | error f => rw [takeTurns_of_error h, takeTurns_of_error (hturn.trans h)]
  | ok next =>
    cases next with
    | done value rest => cases (of_turn_done h).2.1
    | more stack' stage rest => rw [takeTurns_of_more h, takeTurns_of_more (hturn.trans h)]

/-- A bracket is followed by the items of an array. -/
theorem takeTurns_openBracket {before tail : List UInt8} {b : UInt8} (hbefore : IsBlanks before)
    (hdeep : ¬ depthLimit ≤ base.length) (hs : skipBlanks s = b :: tail) :
    takeTurns base .before (before ++ openBracket :: s) =
      if b = closeBracket then takeTurns base (.behind (.list [])) tail
      else takeTurns (.list [] :: base) .before s := by
  have hturn : turn base .before (before ++ openBracket :: s) =
      if b = closeBracket then .ok (.more base (.behind (.list [])) tail)
      else .ok (.more (.list [] :: base) .before (b :: tail)) := by
    show turnBefore _ _ = _
    rw [turnBefore, skipBlanks_append hbefore, skipBlanks_cons (by decide)]
    dsimp only
    rw [if_pos rfl, if_neg hdeep, hs]
  split_ifs at hturn ⊢
  · exact takeTurns_of_more hturn
  · rw [takeTurns_of_more hturn, ← hs, takeTurns_skipBlanks]

/-- A turn up to a label is followed by the reading of the members from there. -/
theorem takeTurns_of_key {done : List (String × Value)} {stack : List Frame} {stage : Stage}
    {s' tail : Input} (hs : skipBlanks s = quote :: tail)
    (hturn : turn stack stage s' = (readKey tail >>= fun r =>
      .ok (.more (.object done r.1 :: base) .before r.2))) :
    takeTurns stack stage s' = takeMembers done base s := by
  rw [takeMembers, hs, List.tail_cons]
  cases hkey : readKey tail with
  | error f =>
    rw [hkey] at hturn
    exact takeTurns_of_error hturn
  | ok r =>
    rw [hkey] at hturn
    exact takeTurns_of_more hturn

/-- A brace is followed by the members of an object. -/
theorem takeTurns_openBrace {before tail : List UInt8} (hbefore : IsBlanks before)
    (hdeep : ¬ depthLimit ≤ base.length) (hs : skipBlanks s = quote :: tail) :
    takeTurns base .before (before ++ openBrace :: s) = takeMembers [] base s := by
  refine takeTurns_of_key hs ?_
  show turnBefore _ _ = _
  rw [turnBefore, skipBlanks_append hbefore, skipBlanks_cons (by decide)]
  dsimp only
  rw [if_neg (by decide), if_pos rfl, if_neg hdeep, hs]
  rfl

/-- An object may be closed at once. -/
theorem takeTurns_emptyObject {before blanks : List UInt8} (hbefore : IsBlanks before)
    (hdeep : ¬ depthLimit ≤ base.length) (hblanks : IsBlanks blanks) :
    takeTurns base .before (before ++ openBrace :: (blanks ++ closeBrace :: rest)) =
      takeTurns base (.behind (.ofMembers [])) rest := by
  refine takeTurns_of_more ?_
  show turnBefore _ _ = _
  rw [turnBefore, skipBlanks_append hbefore, skipBlanks_cons (by decide)]
  dsimp only
  rw [if_neg (by decide), if_pos rfl, if_neg hdeep, skipBlanks_append hblanks,
    skipBlanks_cons (by decide)]
  rfl

/-- A member is followed by a comma and the members behind it. -/
theorem takeTurns_objectComma {done : List (String × Value)} {key : String} {value : Value}
    {blanks tail : List UInt8} (hblanks : IsBlanks blanks) (hs : skipBlanks s = quote :: tail) :
    takeTurns (.object done key :: base) (.behind value) (blanks ++ comma :: s) =
      takeMembers ((key, value) :: done) base s := by
  refine takeTurns_of_key hs ?_
  show turnInObject _ _ _ = _
  rw [turnInObject, skipBlanks_append hblanks, skipBlanks_cons (by decide)]
  dsimp only
  rw [if_neg (by decide), if_pos rfl, hs]
  rfl

/-! ## Arrays -/

/-- The reader goes on behind an array or object, unless it stands inside of too many others. -/
theorem GoesOnBehind.nest {b : UInt8} {tail : List UInt8} (hb : b ∈ [openBracket, openBrace])
    (hvalue : Derives .value (b :: tail))
    (h : ∀ (base : List Frame) (before : List UInt8) (rest : Input), IsBlanks before →
      ¬ depthLimit ≤ base.length →
      Leads (Flawed · base.length .value (b :: tail)) (fun value : Value => ∀ text, value ≠ .text text)
        (fun value => takeTurns base (.behind value) rest)
        (takeTurns base .before (before ++ b :: (tail ++ rest)))) :
    GoesOnBehind .value (b :: tail) := by
  intro base before rest hbefore _
  have hquote : b ≠ quote := by
    rintro rfl
    exact absurd hb (by decide)
  rw [List.cons_append]
  by_cases hdeep : depthLimit ≤ base.length
  · rw [takeTurns_deep hbefore hb hdeep]
    exact .error _ (.deep rfl hdeep hb hvalue)
  · refine (h base before rest hbefore hdeep).trans (fun _ hkind => hkind) fun value hne => ?_
    exact .behind value (isText_iff_of_ne hne hquote)

theorem GoesOnBehind.emptyList {blanks : List UInt8} (h : IsBlanks blanks) :
    GoesOnBehind .value (openBracket :: (blanks ++ [closeBracket])) := by
  refine .nest (by decide) (.emptyList h) fun base before rest hbefore hdeep => ?_
  have hblanks : skipBlanks (blanks ++ closeBracket :: rest) = closeBracket :: rest := by
    rw [skipBlanks_append h, skipBlanks_cons (by decide)]
  rw [List.append_assoc, List.singleton_append, takeTurns_openBracket hbefore hdeep hblanks,
    if_pos rfl]
  exact .behind (Value.list []) nofun

theorem GoesOnBehind.list {bytes : List UInt8} (h : Derives .items bytes)
    (ih : GoesOnBehind .items bytes) :
    GoesOnBehind .value (openBracket :: (bytes ++ [closeBracket])) := by
  refine .nest (by decide) (.list h) fun base before rest hbefore hdeep => ?_
  obtain ⟨b, tail, hb, hstarts⟩ := exists_head_of_items h (closeBracket :: rest)
  rw [List.append_assoc, List.singleton_append, takeTurns_openBracket hbefore hdeep hb,
    if_neg hstarts.2.1]
  exact (ih base [] rest).trans (fun _ hkind => .list hkind) fun items _ => .behind (Value.list items) nofun

theorem GoesOnBehind.item {before bytes behind : List UInt8} (hbefore : IsBlanks before)
    (ih : GoesOnBehind .value bytes) (hbehind : IsBlanks behind) :
    GoesOnBehind .items (before ++ (bytes ++ behind)) := by
  intro base items rest
  have hends := endsNumber_behind hbehind (b := closeBracket) (by decide) rest
  simp only [List.append_assoc]
  refine (ih _ before _ hbefore hends).trans (fun _ hkind => .item hbefore hkind hbehind) ?_
  intro value _
  rw [takeTurns_listClosing hbehind]
  exact .behind _ trivial

theorem GoesOnBehind.itemComma {before bytes behind more : List UInt8} (hbefore : IsBlanks before)
    (hvalue : Derives .value bytes) (ih : GoesOnBehind .value bytes) (hbehind : IsBlanks behind)
    (hmore : Derives .items more) (ihmore : GoesOnBehind .items more) :
    GoesOnBehind .items (before ++ (bytes ++ (behind ++ comma :: more))) := by
  intro base items rest
  have hends := endsNumber_behind hbehind (b := comma) (by decide) (more ++ closeBracket :: rest)
  obtain ⟨b, tail, hb, hstarts⟩ := exists_head_of_items hmore (closeBracket :: rest)
  simp only [List.append_assoc, List.cons_append]
  refine (ih _ before _ hbefore hends).trans
    (fun _ hkind => .itemComma hbefore hkind hbehind hmore) fun value _ => ?_
  rw [takeTurns_listComma hbehind hb hstarts.2.1, ← hb, takeTurns_skipBlanks]
  exact (ihmore base _ rest).trans (fun _ hkind => .laterItem hbefore hvalue hbehind hkind)
    fun items' h => .behind items' h

/-! ## Objects -/

/-- The key of a label is read, as the only text that its letters can spell. -/
theorem leads_takeMembers {letters : List (Option Char)} {label more : List UInt8}
    {entries : List (List (Option Char) × List UInt8)} (h : IsLabel letters label)
    (hmembers : Derives (.members entries) (label ++ more)) (depth : Nat)
    (done : List (String × Value)) (base : List Frame) (rest : Input) :
    Leads (Flawed · depth (.members entries) (label ++ more))
      (fun key : String => ∀ text : String, letters = text.toList.map some → key = text)
      (fun key => takeTurns (.object done key :: base) .before (more ++ rest))
      (takeMembers done base (label ++ (more ++ rest))) := by
  cases h with
  | @spaced before spelling behind hbefore hletters hbehind =>
    have hlabel : before ++ quote :: (spelling ++ quote :: (behind ++ [colon])) ++ more =
        before ++ quote :: (spelling ++ quote :: (behind ++ colon :: more)) := by
      simp
    have htail : skipBlanks (before ++ quote :: (spelling ++ quote :: (behind ++ [colon])) ++
        (more ++ rest)) = quote :: (spelling ++ quote :: (behind ++ colon :: (more ++ rest))) := by
      rw [List.append_assoc, skipBlanks_append hbefore, List.cons_append, skipBlanks_cons (by decide)]
      simp
    rw [hlabel] at hmembers ⊢
    rw [takeMembers, htail, List.tail_cons, readKey]
    have hkey : Yields (Flawed · depth (.members entries)
        (before ++ quote :: (spelling ++ quote :: (behind ++ colon :: more))))
        (fun r : String × Input => r.2 = more ++ rest ∧ Spells r.1 spelling)
        (readText (spelling ++ quote :: (behind ++ colon :: (more ++ rest))) >>= fun r =>
          readColon r.2 >>= fun tail => .ok (r.1, tail)) := by
      refine Yields.bind ((readText_yields hletters _).weaken fun _ hkind =>
        .key hbefore hletters hkind hmembers) ?_
      rintro ⟨key, _⟩ ⟨rfl, hspells⟩
      rw [readColon_of_blanks hbehind]
      exact Yields.ok (key, more ++ rest) ⟨rfl, hspells⟩
    refine .of_yields hkey (fun _ hkind => hkind) ?_
    rintro ⟨key, _⟩ ⟨rfl, hspells⟩
    refine .behind key ?_
    rintro text rfl
    exact spells_unique hspells hletters

theorem GoesOnBehind.emptyObject {blanks : List UInt8} (h : IsBlanks blanks) :
    GoesOnBehind .value (openBrace :: (blanks ++ [closeBrace])) := by
  refine .nest (by decide) (.emptyObject h) fun base before rest hbefore hdeep => ?_
  rw [List.append_assoc, List.singleton_append, takeTurns_emptyObject hbefore hdeep h]
  exact .behind (Value.ofMembers []) nofun

theorem GoesOnBehind.object {letters : List (List (Option Char) × List UInt8)} {bytes : List UInt8}
    (h : Derives (.members letters) bytes) (ih : GoesOnBehind (.members letters) bytes) :
    GoesOnBehind .value (openBrace :: (bytes ++ [closeBrace])) := by
  refine .nest (by decide) (.object h) fun base before rest hbefore hdeep => ?_
  obtain ⟨tail, htail⟩ := exists_quote_of_members h (closeBrace :: rest)
  rw [List.append_assoc, List.singleton_append, takeTurns_openBrace hbefore hdeep htail]
  exact (ih base [] rest).trans (fun _ hkind => .object hkind)
    fun members _ => .behind (Value.ofMembers members) nofun

theorem GoesOnBehind.member {key : List (Option Char)} {label before bytes behind : List UInt8}
    (hlabel : IsLabel key label) (hbefore : IsBlanks before) (hvalue : Derives .value bytes)
    (ih : GoesOnBehind .value bytes) (hbehind : IsBlanks behind) :
    GoesOnBehind (.members [(key, bytes)]) (label ++ (before ++ (bytes ++ behind))) := by
  intro base done rest
  have hends := endsNumber_behind hbehind (b := closeBrace) (by decide) rest
  have hmembers := Derives.member hlabel hbefore hvalue hbehind
  rw [List.append_assoc]
  refine (leads_takeMembers hlabel hmembers _ done base _).trans (fun _ hkind => hkind) ?_
  intro name hname
  simp only [List.append_assoc]
  refine (ih _ before _ hbefore hends).trans
    (fun _ hkind => .member hlabel hbefore hkind hbehind) fun value htext => ?_
  rw [takeTurns_objectClosing hbehind, List.reverse_cons]
  exact .behind [(name, value)] ⟨[(name, bytes)], .cons ⟨rfl, hname⟩ .nil, .cons ⟨rfl, htext⟩ .nil⟩

/-- What has been read before a member is on the stack, and the member is added to it. -/
theorem GoesOnBehind.memberComma {key : List (Option Char)} {label before bytes behind more : List UInt8}
    {letters : List (List (Option Char) × List UInt8)} (hlabel : IsLabel key label)
    (hbefore : IsBlanks before) (hvalue : Derives .value bytes) (ih : GoesOnBehind .value bytes)
    (hbehind : IsBlanks behind) (hmore : Derives (.members letters) more)
    (ihmore : GoesOnBehind (.members letters) more) :
    GoesOnBehind (.members ((key, bytes) :: letters))
      (label ++ (before ++ (bytes ++ (behind ++ comma :: more)))) := by
  intro base done rest
  have hends := endsNumber_behind hbehind (b := comma) (by decide) (more ++ closeBrace :: rest)
  have hmembers := Derives.memberComma hlabel hbefore hvalue hbehind hmore
  obtain ⟨tail, htail⟩ := exists_quote_of_members hmore (closeBrace :: rest)
  rw [List.append_assoc]
  refine (leads_takeMembers hlabel hmembers _ done base _).trans (fun _ hkind => hkind) ?_
  intro name hname
  simp only [List.append_assoc, List.cons_append]
  refine (ih _ before _ hbefore hends).trans
    (fun _ hkind => .memberComma hlabel hbefore hkind hbehind hmore) fun value htext => ?_
  rw [takeTurns_objectComma hbehind htail]
  refine (ihmore base _ rest).trans
    (fun _ hkind => .laterMember hlabel hbefore hvalue hbehind hkind) ?_
  rintro members ⟨entries, hnames, hdenotes⟩
  rw [List.reverse_cons, List.append_assoc]
  exact .behind ((name, value) :: members)
    ⟨(name, bytes) :: entries, .cons ⟨rfl, hname⟩ hnames, .cons ⟨rfl, htext⟩ hdenotes⟩

/-- The full reader goes on behind whatever is derived, unless there is a flaw in it. -/
theorem goesOnBehind_of_derives {phrase : Phrase} {bytes : List UInt8} (h : Derives phrase bytes) :
    GoesOnBehind phrase bytes := by
  induction h with
  | word h => exact .word h
  | unsigned h => exact .unsigned h
  | negative h => exact .negative h
  | text h => exact .string h
  | emptyList h => exact .emptyList h
  | list h ih => exact .list h ih
  | emptyObject h => exact .emptyObject h
  | object h ih => exact .object h ih
  | item hbefore _ hbehind ih => exact .item hbefore ih hbehind
  | itemComma hbefore h hbehind hmore ih ihmore => exact .itemComma hbefore h ih hbehind hmore ihmore
  | member hlabel hbefore h hbehind ih => exact .member hlabel hbefore h ih hbehind
  | memberComma hlabel hbefore h hbehind hmore ih ihmore =>
    exact .memberComma hlabel hbefore h ih hbehind hmore ihmore

end Json

end ControlPlane
