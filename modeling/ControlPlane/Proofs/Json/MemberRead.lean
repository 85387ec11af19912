import ControlPlane.Json.Record
import ControlPlane.Proofs.Json.ValueSkip

/-!
# The string under a key is read

A record of one string is read from every object that gives the string under its key, whatever other
members the object has and however all of it is written (`Shape.parse_of_isObjectWith`). The reader
carries along whether it has seen the key (`Takes`), and each member is taken in its turn.
-/

namespace ControlPlane

namespace Json

open Ascii

/-- What a member does to what has been seen of a key: the key is seen once, and other keys are none
of it. -/
inductive Takes (key : String) :
    Option String → List (Option Char) × List UInt8 → Option String → Prop
  /-- The member has the key. -/
  | field {text : String} {s : List UInt8} (h : Spells text s) :
    Takes key none (key.toList.map some, quote :: (s ++ [quote])) (some text)
  /-- The member has another key. -/
  | other {seen : Option String} {name : String} {s : List UInt8} (h : name ≠ key) :
    Takes key seen (name.toList.map some, s) seen

/-- What members do to it one after another. -/
inductive TakesAll (key : String) :
    Option String → List (List (Option Char) × List UInt8) → Option String → Prop
  /-- There is none. -/
  | nil (seen : Option String) : TakesAll key seen [] seen
  /-- One follows after another. -/
  | cons {seen mid seen' : Option String} {entry : List (Option Char) × List UInt8}
    {entries : List (List (Option Char) × List UInt8)} (h : Takes key seen entry mid)
    (hs : TakesAll key mid entries seen') : TakesAll key seen (entry :: entries) seen'

variable {key text : String} {entries : List (List (Option Char) × List UInt8)}

theorem takesAll_of_others (h : ∀ entry ∈ entries, ∃ other : String, other ≠ key ∧
    entry.1 = other.toList.map some) (seen : Option String) : TakesAll key seen entries seen := by
  induction entries with
  | nil => exact .nil seen
  | cons entry entries ih =>
    obtain ⟨letters, s⟩ := entry
    obtain ⟨other, hne, rfl⟩ := h _ List.mem_cons_self
    exact .cons (.other hne) (ih fun entry' hmem => h entry' (List.mem_cons_of_mem _ hmem))

theorem TakesAll.of_gives (h : Gives key text entries) : TakesAll key none entries (some text) := by
  cases h with
  | @entry before after s h hothers =>
    have hafter : TakesAll key (some text) after (some text) :=
      takesAll_of_others (fun entry hmem => hothers entry (List.mem_append_right before hmem)) _
    have hfrom : ∀ entry ∈ before, ∃ other : String, other ≠ key ∧
        entry.1 = other.toList.map some :=
      fun entry hmem => hothers entry (List.mem_append_left after hmem)
    clear hothers
    induction before with
    | nil => exact .cons (.field h) hafter
    | cons entry before ih =>
      obtain ⟨letters, value⟩ := entry
      obtain ⟨other, hne, rfl⟩ := hfrom _ List.mem_cons_self
      exact .cons (.other hne) (ih fun entry' hmem => hfrom entry' (List.mem_cons_of_mem _ hmem))

/-! ## Members -/

theorem readColon_of_blanks {blanks : List UInt8} (h : IsBlanks blanks) (rest : Input) :
    readColon (blanks ++ colon :: rest) = .ok rest := by
  rw [readColon, skipBlanks_append h]
  rfl

/-- The string under the key is read. -/
theorem take_field {behind before s : List UInt8} (hbehind : IsBlanks behind)
    (hbefore : IsBlanks before) (h : Spells text s) (rest : Input) :
    Gathered.take [⟨key, .text⟩] (none, ()) key
        (behind ++ colon :: (before ++ (quote :: (s ++ [quote]) ++ rest))) =
      .ok ((some text, ()), rest) := by
  have hread : FieldType.read .text (before ++ (quote :: (s ++ [quote]) ++ rest)) =
      .ok (text, rest) := by
    have htext := readText_of_spells h rest
    rw [FieldType.read, skipBlanks_append hbefore, List.cons_append, skipBlanks_cons (by decide),
      List.append_assoc]
    exact htext
  unfold Gathered.take
  rw [if_pos rfl]
  dsimp only
  rw [readColon_of_blanks hbehind]
  simp only [bind, Except.bind]
  rw [hread]

/-- Any value under another key is passed over. -/
theorem take_other {name : String} (hname : name ≠ key) {seen : Option String}
    {behind before s : List UInt8} (hbehind : IsBlanks behind) (hbefore : IsBlanks before)
    (h : Derives .value s) {rest : Input} (hrest : EndsNumber rest) :
    Gathered.take [⟨key, .text⟩] (seen, ()) name
        (behind ++ colon :: (before ++ (s ++ rest))) = .ok ((seen, ()), rest) := by
  have hskip : skipValue (before ++ (s ++ rest)) = .ok rest := by
    rw [skipValue, takeHops_of_blanks hbefore]
    exact skipValue_of_derives h hrest
  unfold Gathered.take
  rw [if_neg hname]
  unfold Gathered.take
  rw [readColon_of_blanks hbehind]
  simp only [bind, Except.bind]
  rw [hskip]

theorem readMember_of_takes {seen seen' : Option String} {letters : List (Option Char)}
    {label before s : List UInt8} (h : Takes key seen (letters, s) seen')
    (hlabel : IsLabel letters label) (hbefore : IsBlanks before) (hvalue : Derives .value s)
    {rest : Input} (hrest : EndsNumber rest) :
    ∃ tail, skipBlanks (label ++ (before ++ (s ++ rest))) = quote :: tail ∧
      readMember [⟨key, .text⟩] (seen, ()) tail = .ok ((seen', ()), rest) := by
  cases hlabel with
  | @spaced before' name behind hbefore' hname hbehind =>
    refine ⟨name ++ quote :: (behind ++ colon :: (before ++ (s ++ rest))), ?_, ?_⟩
    · rw [List.append_assoc, skipBlanks_append hbefore', List.cons_append, skipBlanks_cons (by decide),
        List.append_assoc, List.cons_append, List.append_assoc]
      rfl
    · cases h with
      | field htext =>
        rw [readMember, readText_of_spells hname]
        exact take_field hbehind hbefore htext rest
      | other hne =>
        rw [readMember, readText_of_spells hname]
        exact take_other hne hbehind hbefore hvalue hrest

theorem readMembers_of_brace {fields : List Field} {got : Gathered fields} {s rest : Input}
    (hs : skipBlanks s = closeBrace :: rest) : readMembers fields got s = .ok (got, rest) := by
  rw [readMembers.eq_def]
  split
  · next hnil =>
    rw [hs] at hnil
    cases hnil
  · next hcons =>
    rw [hs] at hcons
    cases hcons
    exact if_pos rfl

theorem readMembers_of_comma {fields : List Field} {got got' : Gathered fields}
    {s rest tail mid : Input} (hs : skipBlanks s = comma :: rest) (hrest : skipBlanks rest = quote :: tail)
    (h : readMember fields got tail = .ok (got', mid)) :
    readMembers fields got s = readMembers fields got' mid := by
  rw [readMembers.eq_def]
  split
  · next hnil =>
    rw [hs] at hnil
    cases hnil
  · next hcons =>
    rw [hs] at hcons
    cases hcons
    rw [if_neg (by decide), if_pos rfl]
    split
    · next hnil =>
      rw [hrest] at hnil
      cases hnil
    · next hcons =>
      rw [hrest] at hcons
      cases hcons
      rw [if_pos rfl]
      split
      · next hread =>
        rw [h] at hread
        cases hread
        rfl
      · next hread =>
        rw [h] at hread
        cases hread

/-- The members of an object are taken up to the closing brace. -/
theorem readMembers_of_derives {s : List UInt8} (h : Derives (.members entries) s)
    {seen seen' : Option String} (htakes : TakesAll key seen entries seen') (rest : Input) :
    ∃ tail got mid, skipBlanks (s ++ closeBrace :: rest) = quote :: tail ∧
      readMember [⟨key, .text⟩] (seen, ()) tail = .ok (got, mid) ∧
      readMembers [⟨key, .text⟩] got mid = .ok ((seen', ()), rest) := by
  generalize hphrase : Phrase.members entries = phrase at h
  induction h generalizing entries seen with
  | word | unsigned | negative | text | emptyList | list | emptyObject | object => cases hphrase
  | item | itemComma => cases hphrase
  | @member letters label before s behind hlabel hbefore hvalue hbehind _ =>
    cases hphrase
    cases htakes with
    | cons htake hnone =>
      cases hnone
      have hends := endsNumber_behind hbehind (b := closeBrace) (by decide) rest
      obtain ⟨tail, htail, hread⟩ := readMember_of_takes htake hlabel hbefore hvalue hends
      refine ⟨tail, _, _, ?_, hread, readMembers_of_brace ?_⟩
      · rw [List.append_assoc, List.append_assoc, List.append_assoc]
        exact htail
      · rw [skipBlanks_append hbehind]
        exact skipBlanks_cons (by decide) rest
  | @memberComma letters label before s behind more entries' hlabel hbefore hvalue hbehind _ _ ih =>
    cases hphrase
    cases htakes with
    | cons htake hmore =>
      obtain ⟨tail', got', mid', htail', hread', hreads'⟩ := ih hmore rfl
      have hends := endsNumber_behind hbehind (b := comma) (by decide) (more ++ closeBrace :: rest)
      obtain ⟨tail, htail, hread⟩ := readMember_of_takes htake hlabel hbefore hvalue hends
      refine ⟨tail, _, _, ?_, hread, ?_⟩
      · rw [List.append_assoc, List.append_assoc, List.append_assoc, List.append_assoc,
          List.cons_append]
        exact htail
      · rw [readMembers_of_comma _ htail' hread', hreads']
        rw [skipBlanks_append hbehind]
        exact skipBlanks_cons (by decide) _

/-! ## Objects -/

/-- A record of one string is read from an object that gives the string under its key. -/
theorem Shape.parse_of_isObjectWith {s : List UInt8} (h : IsObjectWith key text s) (name : String) :
    Shape.parse ⟨name, [⟨key, .text⟩]⟩ s = .ok (text, ()) := by
  cases h with
  | @spaced before s behind entries hbefore h hgives hbehind =>
    obtain ⟨tail, got, mid, htail, hread, hreads⟩ :=
      readMembers_of_derives h (TakesAll.of_gives hgives) behind
    have hobject : readObject [⟨key, .text⟩] (s ++ closeBrace :: behind) =
        .ok ((text, ()), behind) := by
      unfold readObject
      rw [htail]
      simp only [bind, Except.bind]
      rw [if_neg (by decide), if_pos trivial, show Gathered.none [⟨key, .text⟩] = (none, ()) from rfl,
        hread]
      dsimp only
      rw [hreads]
      rfl
    refine parseWith_of_blanks ?_ hbehind
    unfold Shape.read
    rw [skipBlanks_append hbefore, skipBlanks_cons (by decide)]
    dsimp only
    rw [if_neg (by decide), if_pos rfl]
    exact hobject

end Json

end ControlPlane
