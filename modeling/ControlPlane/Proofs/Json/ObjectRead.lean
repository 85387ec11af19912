import ControlPlane.Proofs.Json.Legible

/-!
# The members of an object that is read

An object that is read has a member for each entry of the text (`exists_members_of_parse`): under the
entry's key, and with a text just where the entry is a string, which spells it. Where a key occurs once
in the text, what stands under it can so be told from the text (`isObjectWith_iff`).
-/

namespace ControlPlane

namespace Json

open Ascii

/-- An entry of an object with its key as the letters of a string. -/
def lettered (entry : String × List UInt8) : List (Option Char) × List UInt8 :=
  (entry.1.toList.map some, entry.2)

/-- The texts that hold an object, given by the keys of its members and the bytes of their values. -/
inductive IsObjectOf : List (String × List UInt8) → List UInt8 → Prop
  /-- The object has no members. -/
  | empty {before inner behind : List UInt8} (hbefore : IsBlanks before) (hinner : IsBlanks inner)
    (hbehind : IsBlanks behind) : IsObjectOf [] (before ++ openBrace :: (inner ++ closeBrace :: behind))
  /-- The object has members. -/
  | members {entries : List (String × List UInt8)} {before bytes behind : List UInt8}
    (hbefore : IsBlanks before) (h : Derives (.members (entries.map lettered)) bytes)
    (hbehind : IsBlanks behind) :
    IsObjectOf entries (before ++ openBrace :: (bytes ++ closeBrace :: behind))

variable {s rest : Input} {r : Value × Input} {text : String}

/-! ## What is read -/

/-- Where no array or object is open, none is too deep. -/
theorem not_deep : ¬ depthLimit ≤ ([] : List Frame).length := by decide

/-- Items in brackets are read as a list. -/
theorem list_of_readValue {before bytes : List UInt8} (hbefore : IsBlanks before)
    (h : Derives .items bytes)
    (hread : readValue (before ++ openBracket :: (bytes ++ closeBracket :: rest)) = .ok r) :
    ∃ items, r = (.list items, rest) := by
  obtain ⟨b, tail, hb, hstarts⟩ := exists_head_of_items h (closeBracket :: rest)
  rw [readValue, takeTurns_openBracket hbefore not_deep hb, if_neg hstarts.2.1] at hread
  have hleads := goesOnBehind_of_derives h [] [] rest
  rw [hread] at hleads
  generalize hr : Except.ok r = result at hleads
  cases hleads with
  | behind items =>
    rw [takeTurns_done] at hr
    exact ⟨items, Except.ok.inj hr⟩
  | error => cases hr

/-- The members of an object that is read. -/
theorem members_of_readValue {before bytes : List UInt8} (hbefore : IsBlanks before)
    {letters : List (List (Option Char) × List UInt8)} (h : Derives (.members letters) bytes)
    (hread : readValue (before ++ openBrace :: (bytes ++ closeBrace :: rest)) = .ok r) :
    ∃ entries members, List.Forall₂ Names letters entries ∧ List.Forall₂ Denotes entries members ∧
      r = (.ofMembers members, rest) := by
  obtain ⟨tail, htail⟩ := exists_quote_of_members h (closeBrace :: rest)
  rw [readValue, takeTurns_openBrace hbefore not_deep htail] at hread
  have hleads := goesOnBehind_of_derives h [] [] rest
  rw [hread] at hleads
  generalize hr : Except.ok r = result at hleads
  cases hleads with
  | behind members hmembers =>
    obtain ⟨entries, hnames, hdenotes⟩ := hmembers
    rw [takeTurns_done] at hr
    exact ⟨entries, members, hnames, hdenotes, Except.ok.inj hr⟩
  | error => cases hr

theorem eq_of_names {entries entries' : List (String × List UInt8)}
    (h : List.Forall₂ Names (entries.map lettered) entries') : entries' = entries := by
  induction entries generalizing entries' with
  | nil =>
    cases h
    rfl
  | cons entry entries ih =>
    cases h with
    | cons hname hnames => rw [ih hnames, Prod.ext (hname.key entry.1 rfl) hname.value]

/-- The members of the object that is read are what the entries say. -/
theorem exists_members_of_parse {entries : List (String × List UInt8)} {value : Value}
    (hobject : IsObjectOf entries s) (h : Value.parse s = .ok value) :
    ∃ members, value = .ofMembers members ∧ List.Forall₂ Denotes entries members := by
  obtain ⟨rest, hread, -⟩ := of_parseWith h
  cases hobject with
  | @empty before inner behind hbefore hinner _ =>
    rw [readValue, takeTurns_emptyObject hbefore not_deep hinner, takeTurns_done] at hread
    cases hread
    exact ⟨[], rfl, .nil⟩
  | members hbefore hmembers _ =>
    obtain ⟨entries', members, hnames, hdenotes, hresult⟩ :=
      members_of_readValue hbefore hmembers hread
    obtain rfl := eq_of_names hnames
    exact ⟨members, (Prod.mk.inj hresult).1, hdenotes⟩

/-! ## What stands under a key -/

/-- Whether a text holds an object that has a key once, whatever stands under it. -/
def HasOnce (key : String) (s : List UInt8) : Prop :=
  ∃ entries bytes, IsObjectOf entries s ∧ entries.filter (·.1 = key) = [(key, bytes)]

theorem lookup_eq_head? (members : List (String × Value)) (key : String) :
    members.lookup key = (members.filter (·.1 = key)).head?.map Prod.snd := by
  induction members with
  | nil => rfl
  | cons member members ih =>
    obtain ⟨name, value⟩ := member
    rw [List.lookup_cons]
    by_cases hname : name = key
    · subst hname
      simp
    · have hne : (key == name) = false := by simpa using Ne.symm hname
      rw [hne, List.filter_cons_of_neg (by simpa using hname)]
      exact ih

/-- If a text has a key once, then a text stands under the key just if it is given by a string. -/
theorem member?_of_entries {entries : List (String × List UInt8)} {members : List (String × Value)}
    {key : String} {bytes : List UInt8} (h : List.Forall₂ Denotes entries members)
    (honce : entries.filter (·.1 = key) = [(key, bytes)]) :
    (Value.ofMembers members).member? key = some (.text text) ↔ IsStringOf text bytes := by
  have hfilter : List.Forall₂ Denotes (entries.filter (·.1 = key)) (members.filter (·.1 = key)) :=
    List.rel_filter (fun entry member hdenotes => by simp [hdenotes.key]) h
  rw [honce] at hfilter
  generalize hfound : members.filter (·.1 = key) = found at hfilter
  cases hfilter with
  | @cons _ member _ _ hdenotes hnil =>
    cases hnil
    rw [member?_ofMembers, lookup_eq_head?, List.filter_reverse, hfound, ← hdenotes.text text]
    exact Option.some_inj

/-- Entries whose keys are texts other than a key. -/
theorem exists_entries_of_others {key : String} {letters : List (List (Option Char) × List UInt8)}
    (h : ∀ entry ∈ letters, ∃ other : String, other ≠ key ∧ entry.1 = other.toList.map some) :
    ∃ entries : List (String × List UInt8), entries.map lettered = letters ∧
      entries.filter (·.1 = key) = [] := by
  induction letters with
  | nil => exact ⟨[], rfl, rfl⟩
  | cons entry letters ih =>
    obtain ⟨other, hne, hentry⟩ := h entry List.mem_cons_self
    obtain ⟨entries, rfl, hfilter⟩ := ih fun entry' hmem => h entry' (List.mem_cons_of_mem _ hmem)
    refine ⟨(other, entry.2) :: entries, ?_, ?_⟩
    · rw [List.map_cons, lettered, ← hentry]
    · rw [List.filter_cons_of_neg (by simpa using hne), hfilter]

/-- An object that gives a string under a key has the key once. -/
theorem exists_entries_of_isObjectWith {key : String} (h : IsObjectWith key text s) :
    ∃ entries bytes, IsObjectOf entries s ∧ IsStringOf text bytes ∧
      entries.filter (·.1 = key) = [(key, bytes)] := by
  cases h with
  | spaced hbefore hmembers hgives hbehind =>
    cases hgives with
    | @entry first last spelling hspells hothers =>
      obtain ⟨before, rfl, hfirst⟩ := exists_entries_of_others fun entry hmem =>
        hothers entry (List.mem_append_left last hmem)
      obtain ⟨after, rfl, hlast⟩ := exists_entries_of_others fun entry hmem =>
        hothers entry (List.mem_append_right (before.map lettered) hmem)
      refine ⟨before ++ (key, quote :: (spelling ++ [quote])) :: after, _,
        .members hbefore ?_ hbehind, ⟨spelling, rfl, hspells⟩, ?_⟩
      · rw [List.map_append, List.map_cons]
        exact hmembers
      · rw [List.filter_append, hfirst, List.filter_cons_of_pos (by simp), hlast]
        rfl

/-- An object that has a key once, with a string, gives the string under the key. -/
theorem isObjectWith_of_entries {key : String} {entries : List (String × List UInt8)}
    {bytes : List UInt8} (h : IsObjectOf entries s) (hstring : IsStringOf text bytes)
    (honce : entries.filter (·.1 = key) = [(key, bytes)]) : IsObjectWith key text s := by
  obtain ⟨spelling, rfl, hspells⟩ := hstring
  cases h with
  | empty => cases honce
  | members hbefore hmembers hbehind =>
    obtain ⟨before, after, rfl, hfirst, -, hlast⟩ := List.filter_eq_cons_iff.mp honce
    rw [List.map_append, List.map_cons] at hmembers
    refine .spaced hbefore hmembers (.entry hspells fun entry hmem => ?_) hbehind
    rw [← List.map_append] at hmem
    obtain ⟨other, hother, rfl⟩ := List.mem_map.mp hmem
    refine ⟨other.1, ?_, rfl⟩
    rcases List.mem_append.mp hother with hbefore | hafter
    · simpa using hfirst other hbefore
    · simpa using List.filter_eq_nil_iff.mp hlast other hafter

/--
Where an object is read, it gives a string under a key just if it has the key once and the text of the
string is what stands under the key.
-/
theorem isObjectWith_iff {members : List (String × Value)}
    (h : Value.parse s = .ok (.object members)) (key text : String) :
    IsObjectWith key text s ↔
      HasOnce key s ∧ (Value.object members).member? key = some (.text text) := by
  constructor
  · intro hobject
    obtain ⟨entries, bytes, hentries, hstring, honce⟩ := exists_entries_of_isObjectWith hobject
    obtain ⟨listed, hlisted, hdenotes⟩ := exists_members_of_parse hentries h
    rw [hlisted]
    exact ⟨⟨entries, bytes, hentries, honce⟩, (member?_of_entries hdenotes honce).mpr hstring⟩
  · rintro ⟨⟨entries, bytes, hentries, honce⟩, hmember⟩
    obtain ⟨listed, hlisted, hdenotes⟩ := exists_members_of_parse hentries h
    rw [hlisted] at hmember
    exact isObjectWith_of_entries hentries ((member?_of_entries hdenotes honce).mp hmember) honce

end Json

end ControlPlane
