import ControlPlane.Proofs.Json.MemberRead
import ControlPlane.Proofs.Json.RecordSize
import ControlPlane.Proofs.Json.ValueForm

/-!
# Which texts hold a record of one string

A record of one string is read from a text in two cases and no others: the text holds an object that
gives the string under its key, or an array of the string alone (`Shape.parse_iff`).
-/

namespace ControlPlane

namespace Json

open Ascii

variable {key text : String} {seen seen' : Option String} {s rest : Input}
  {entries : List (List (Option Char) × List UInt8)}

/-- The texts that hold an array of which a string that spells a text is the only item. -/
inductive IsListWith (text : String) : List UInt8 → Prop
  /-- There may be white space around the array and in it. -/
  | spaced {before inner bytes outer behind : List UInt8} (hbefore : IsBlanks before)
    (hinner : IsBlanks inner) (h : Spells text bytes) (houter : IsBlanks outer)
    (hbehind : IsBlanks behind) :
    IsListWith text (before ++ openBracket ::
      (inner ++ quote :: (bytes ++ quote :: (outer ++ closeBracket :: behind))))

/-! ## Members -/

theorem string_of_read (hs : IsEndOfText s) (h : FieldType.text.read s = .ok (text, rest)) :
    ∃ blanks bytes, IsBlanks blanks ∧ Spells text bytes ∧
      s = blanks ++ quote :: (bytes ++ quote :: rest) := by
  obtain ⟨blanks, hblanks, heq⟩ := exists_blanks s
  have hsuffix := hs.of_suffix (skipBlanks_suffix s)
  unfold FieldType.read at h
  split at h
  · cases h
  · next b tail htail =>
    dsimp only at h
    split_ifs at h with hquote
    subst hquote
    rw [htail] at heq hsuffix
    obtain ⟨bytes, hspells, rfl⟩ := spells_of_readText (hsuffix.isText_behind (by decide)) h
    exact ⟨blanks, bytes, hblanks, hspells, heq⟩

/-- What is taken behind a key is a colon and a value, of the kind that the key asks for. -/
theorem value_of_take {name : String} {got : Gathered [⟨key, .text⟩]} (hs : IsEndOfText s)
    (h : Gathered.take [⟨key, .text⟩] (seen, ()) name s = .ok (got, rest)) :
    ∃ behind before bytes seen', IsBlanks behind ∧ IsBlanks before ∧ Derives .value bytes ∧
      s = behind ++ colon :: (before ++ (bytes ++ rest)) ∧ got = (seen', ()) ∧
      Takes key seen (name.toList.map some, bytes) seen' := by
  unfold Gathered.take at h
  split_ifs at h with hname
  · cases seen with
    | some value => cases h
    | none =>
      dsimp only at h
      cases hcolon : readColon s with
      | error f => rw [hcolon] at h; cases h
      | ok mid =>
        obtain ⟨behind, hbehind, rfl⟩ := colon_of_readColon hcolon
        have hmid : IsEndOfText mid :=
          hs.of_suffix ((List.suffix_cons _ _).trans (List.suffix_append _ _))
        rw [hcolon] at h
        simp only [bind, Except.bind] at h
        split at h
        · cases h
        · next value hread =>
          obtain ⟨value, tail⟩ := value
          cases h
          obtain ⟨before, bytes, hbefore, hspells, rfl⟩ := string_of_read hmid hread
          subst hname
          exact ⟨behind, before, quote :: (bytes ++ [quote]), some value, hbehind, hbefore, .text hspells,
            by simp, rfl, .field hspells⟩
  · unfold Gathered.take at h
    cases hcolon : readColon s with
    | error f => rw [hcolon] at h; cases h
    | ok mid =>
      obtain ⟨behind, hbehind, rfl⟩ := colon_of_readColon hcolon
      have hmid : IsEndOfText mid :=
        hs.of_suffix ((List.suffix_cons _ _).trans (List.suffix_append _ _))
      cases hskip : skipValue mid with
      | error f => simp only [bind, Except.bind, hcolon, hskip] at h; cases h
      | ok tail =>
        simp only [bind, Except.bind, hcolon, hskip] at h
        cases h
        obtain ⟨before, bytes, hbefore, hvalue, rfl⟩ := value_of_skipValue hmid hskip
        exact ⟨behind, before, bytes, seen, hbehind, hbefore, hvalue, rfl, rfl, .other hname⟩

theorem member_of_readMember {tail : Input} {got : Gathered [⟨key, .text⟩]} (hs : IsEndOfText s)
    (htail : skipBlanks s = quote :: tail)
    (h : readMember [⟨key, .text⟩] (seen, ()) tail = .ok (got, rest)) :
    ∃ letters label before bytes seen', IsLabel letters label ∧ IsBlanks before ∧
      Derives .value bytes ∧ s = label ++ (before ++ (bytes ++ rest)) ∧ got = (seen', ()) ∧
      Takes key seen (letters, bytes) seen' := by
  obtain ⟨blanks, hblanks, heq⟩ := exists_blanks s
  have hsuffix := hs.of_suffix (skipBlanks_suffix s)
  rw [htail] at heq hsuffix
  have htext : IsText tail := hsuffix.isText_behind (by decide)
  unfold readMember at h
  cases hread : readText tail with
  | error f => rw [hread] at h; cases h
  | ok r =>
    obtain ⟨name, mid⟩ := r
    obtain ⟨spelling, hspells, rfl⟩ := spells_of_readText htext hread
    have hmid : IsEndOfText mid := by
      refine hsuffix.of_suffix ((List.suffix_cons quote mid).trans ?_)
      exact (List.suffix_append spelling _).trans (List.suffix_cons quote _)
    rw [hread] at h
    obtain ⟨behind, before, bytes, seen', hbehind, hbefore, hvalue, rfl, hgot, htakes⟩ :=
      value_of_take hmid h
    exact ⟨_, _, before, bytes, seen', .spaced hblanks hspells hbehind, hbefore, hvalue,
      by simp [heq], hgot, htakes⟩

/-- How an object goes on behind a member, up to what stands behind its closing brace. -/
inductive GoesOn (key : String) (seen seen' : Option String) (rest : Input) : Input → Prop
  /-- It ends. -/
  | closing {blanks : List UInt8} (h : IsBlanks blanks) (hseen : seen' = seen) :
    GoesOn key seen seen' rest (blanks ++ closeBrace :: rest)
  /-- Further members follow. -/
  | comma {blanks bytes : List UInt8} {entries : List (List (Option Char) × List UInt8)}
    (hblanks : IsBlanks blanks) (h : Derives (.members entries) bytes)
    (htakes : TakesAll key seen entries seen') :
    GoesOn key seen seen' rest (blanks ++ comma :: (bytes ++ closeBrace :: rest))

/-- A member and what follows it are members. -/
theorem GoesOn.members {mid : Option String} {letters : List (Option Char)}
    {label before bytes : List UInt8} (hlabel : IsLabel letters label) (hbefore : IsBlanks before)
    (hvalue : Derives .value bytes) (htakes : Takes key seen (letters, bytes) mid)
    (h : GoesOn key mid seen' rest s) :
    ∃ entries members, Derives (.members entries) members ∧ TakesAll key seen entries seen' ∧
      label ++ (before ++ (bytes ++ s)) = members ++ closeBrace :: rest := by
  cases h with
  | closing hblanks hseen =>
    subst hseen
    exact ⟨_, _, .member hlabel hbefore hvalue hblanks, .cons htakes (.nil _), by simp⟩
  | comma hblanks hmembers hmore =>
    exact ⟨_, _, .memberComma hlabel hbefore hvalue hblanks hmembers, .cons htakes hmore, by simp⟩

theorem goesOn_of_readMembers {got : Gathered [⟨key, .text⟩]} (hs : IsEndOfText s)
    (h : readMembers [⟨key, .text⟩] (seen, ()) s = .ok (got, rest)) :
    ∃ seen', got = (seen', ()) ∧ GoesOn key seen seen' rest s := by
  generalize hfrom : ((seen, ()) : Gathered [⟨key, .text⟩]) = from' at h
  obtain ⟨blanks, hblanks, heq⟩ := exists_blanks s
  fun_induction readMembers [⟨key, .text⟩] from' s generalizing seen blanks with
  | case1 => cases h
  | case2 from' s tail hbrace =>
    cases h
    subst hfrom
    rw [hbrace] at heq
    exact ⟨seen, rfl, heq ▸ .closing hblanks rfl⟩
  | case3 => cases h
  | case4 from' s tail tail' got' mid hmember hcomma _ hquote ih =>
    subst hfrom
    rw [hcomma] at heq
    have hsuffix : tail <:+ s := heq ▸ (List.suffix_cons _ _).trans (List.suffix_append _ _)
    obtain ⟨letters, label, before, bytes, mid', hlabel, hbefore, hvalue, htail, rfl, htakes⟩ :=
      member_of_readMember (hs.of_suffix hsuffix) hquote hmember
    have hend : IsEndOfText mid := by
      refine hs.of_suffix (List.IsSuffix.trans ?_ hsuffix)
      exact ⟨label ++ before ++ bytes, by simp [htail]⟩
    obtain ⟨blanks', hblanks', hmid⟩ := exists_blanks mid
    obtain ⟨seen', rfl, hgoes⟩ := ih hend rfl h blanks' hblanks' hmid
    obtain ⟨entries, members, hmembers, hall, hbytes⟩ :=
      GoesOn.members hlabel hbefore hvalue htakes hgoes
    rw [heq, htail, hbytes]
    exact ⟨seen', rfl, .comma hblanks hmembers hall⟩
  | case5 => cases h
  | case6 => cases h
  | case7 => cases h
  | case8 => cases h

/-! ## Objects -/

/-- Once the key has been seen, no other member has it. -/
theorem others_of_takesAll (h : TakesAll key (some text) entries seen') :
    seen' = some text ∧
      ∀ entry ∈ entries, ∃ other : String, other ≠ key ∧ entry.1 = other.toList.map some := by
  generalize hseen : some text = seen at h
  induction h with
  | nil => exact ⟨rfl, fun entry hmem => absurd hmem List.not_mem_nil⟩
  | cons htake _ ih =>
    cases htake with
    | field => cases hseen
    | @other _ name _ hname =>
      obtain ⟨hend, hothers⟩ := ih hseen
      refine ⟨hend, fun entry hmem => ?_⟩
      rcases List.mem_cons.mp hmem with rfl | hmem
      · exact ⟨name, hname, rfl⟩
      · exact hothers entry hmem

theorem gives_of_takesAll (h : TakesAll key none entries (some text)) : Gives key text entries := by
  generalize hseen : none = seen at h
  generalize hend : some text = seen' at h
  induction h with
  | nil =>
    subst hseen
    cases hend
  | cons htake hall ih =>
    cases htake with
    | @field _ bytes hspells =>
      obtain ⟨hvalue, hothers⟩ := others_of_takesAll hall
      obtain rfl : text = _ := Option.some.inj (hend.trans hvalue)
      have hfirst : Gives key text ([] ++ (key.toList.map some, quote :: (bytes ++ [quote])) :: _) :=
        .entry hspells hothers
      exact hfirst
    | @other _ name bytes hname =>
      cases ih hseen hend with
      | @entry before after _ hspells hothers =>
        have hmore : ∀ entry ∈ (name.toList.map some, bytes) :: before ++ after,
            ∃ other : String, other ≠ key ∧ entry.1 = other.toList.map some := by
          intro entry hmem
          rcases List.mem_cons.mp hmem with rfl | hmem
          · exact ⟨name, hname, rfl⟩
          · exact hothers entry hmem
        exact .entry hspells hmore

theorem members_of_readObject {values : Values [⟨key, .text⟩]} (hs : IsEndOfText s)
    (h : readObject [⟨key, .text⟩] s = .ok (values, rest)) :
    ∃ entries bytes, Derives (.members entries) bytes ∧ Gives key values.1 entries ∧
      s = bytes ++ closeBrace :: rest := by
  unfold readObject at h
  split at h
  · cases h
  · next b tail htail =>
    split_ifs at h with hbrace hquote
    · cases h
    · subst hquote
      cases hmember : readMember [⟨key, .text⟩] (Gathered.none [⟨key, .text⟩]) tail with
      | error f => rw [hmember] at h; cases h
      | ok r =>
        obtain ⟨got, mid⟩ := r
        obtain ⟨letters, label, before, bytes, seen, hlabel, hbefore, hvalue, rfl, rfl, htakes⟩ :=
          member_of_readMember hs htail hmember
        have hmid : IsEndOfText mid := hs.of_suffix ⟨label ++ before ++ bytes, by simp⟩
        cases hmembers : readMembers [⟨key, .text⟩] (seen, ()) mid with
        | error f => simp only [bind, Except.bind, hmember, hmembers] at h; cases h
        | ok r =>
          obtain ⟨got, rest'⟩ := r
          obtain ⟨seen', rfl, hgoes⟩ := goesOn_of_readMembers hmid hmembers
          simp only [bind, Except.bind, hmember, hmembers] at h
          cases seen' with
          | none => cases h
          | some text =>
            cases h
            obtain ⟨entries, members, hderives, hall, hbytes⟩ :=
              GoesOn.members hlabel hbefore hvalue htakes hgoes
            exact ⟨entries, members, hderives, gives_of_takesAll hall, hbytes⟩
    · cases h

/-! ## Arrays -/

theorem skipBlanks_of_endList {s rest : Input} (h : endList s = .ok rest) :
    skipBlanks s = closeBracket :: rest := by
  unfold endList at h
  split at h
  · cases h
  · next b tail hs =>
    split_ifs at h with hb
    · cases h
      rw [hs, hb]
    · split at h <;> cases h

theorem list_of_readItems {wanted : String} {mid : Input} {values : Values [⟨key, .text⟩]}
    (hs : IsEndOfText s) (h : readItems wanted [⟨key, .text⟩] 0 s = .ok (values, mid))
    (hend : endList mid = .ok rest) :
    ∃ inner bytes outer, IsBlanks inner ∧ Spells values.1 bytes ∧ IsBlanks outer ∧
      s = inner ++ quote :: (bytes ++ quote :: (outer ++ closeBracket :: rest)) := by
  obtain ⟨s', s'', first, values', hnext, hread, hnil, rfl⟩ := of_readItems_cons h
  cases hnil
  obtain ⟨blanks, hblanks, heq⟩ := exists_blanks s
  have hsuffix := hs.of_suffix (skipBlanks_suffix s)
  unfold nextItem at hnext
  split at hnext
  · cases hnext
  · next b tail htail =>
    rw [htail] at heq hsuffix
    rw [if_pos rfl] at hnext
    split_ifs at hnext with hbracket
    cases hnext
    obtain ⟨inner, bytes, hinner, hspells, hbytes⟩ := string_of_read hsuffix hread
    obtain ⟨outer, houter, hmid⟩ := exists_blanks mid
    rw [skipBlanks_of_endList hend] at hmid
    refine ⟨blanks ++ inner, bytes, outer, ?_, hspells, houter, ?_⟩
    · intro d hd
      rcases List.mem_append.mp hd with hd | hd
      · exact hblanks d hd
      · exact hinner d hd
    · rw [heq, hbytes, hmid, List.append_assoc]

/-! ## Whole texts -/

theorem form_of_parse {name : String} (hs : IsText s)
    (h : Shape.parse ⟨name, [⟨key, .text⟩]⟩ s = .ok (text, ())) :
    IsObjectWith key text s ∨ IsListWith text s := by
  obtain ⟨rest, hread, hrest⟩ := of_parseWith h
  obtain ⟨blanks, hblanks, heq⟩ := exists_blanks s
  have hsuffix : IsEndOfText (skipBlanks s) := by
    have hend : IsEndOfText s := ⟨[], hs⟩
    exact hend.of_suffix (skipBlanks_suffix s)
  unfold Shape.read at hread
  split at hread
  · cases hread
  · next b tail htail =>
    rw [htail] at heq hsuffix
    have hend : IsEndOfText tail := hsuffix.of_suffix (List.suffix_cons b tail)
    split_ifs at hread with hlist hobject
    · subst hlist
      cases hitems : readItems (Shape.describeList ⟨name, [⟨key, .text⟩]⟩) [⟨key, .text⟩] 0 tail with
      | error f => simp only [bind, Except.bind, hitems] at hread; cases hread
      | ok r =>
        obtain ⟨values, mid⟩ := r
        simp only [bind, Except.bind, hitems] at hread
        split at hread
        · cases hread
        · next hclose =>
          cases hread
          obtain ⟨inner, bytes, outer, hinner, hspells, houter, rfl⟩ :=
            list_of_readItems hend hitems hclose
          exact .inr (heq ▸ .spaced hblanks hinner hspells houter hrest)
    · subst hobject
      obtain ⟨entries, bytes, hmembers, hgives, rfl⟩ := members_of_readObject hend hread
      exact .inl (heq ▸ .spaced hblanks hmembers hgives hrest)

/-- A record of one string is read from an array of the string alone. -/
theorem Shape.parse_of_isListWith (h : IsListWith text s) (key name : String) :
    Shape.parse ⟨name, [⟨key, .text⟩]⟩ s = .ok (text, ()) := by
  cases h with
  | @spaced before inner bytes outer behind hbefore hinner hspells houter hbehind =>
    have hread : FieldType.text.read (quote :: (bytes ++ quote :: (outer ++ closeBracket :: behind))) =
        .ok (text, outer ++ closeBracket :: behind) := readText_of_spells hspells _
    have hnext (wanted : String) :
        nextItem wanted 0 (inner ++ quote :: (bytes ++ quote :: (outer ++ closeBracket :: behind))) =
          .ok (quote :: (bytes ++ quote :: (outer ++ closeBracket :: behind))) := by
      rw [nextItem, skipBlanks_append hinner]
      rfl
    have hend : endList (outer ++ closeBracket :: behind) = .ok behind := by
      rw [endList, skipBlanks_append houter]
      rfl
    refine parseWith_of_blanks ?_ hbehind
    unfold Shape.read
    rw [skipBlanks_append hbefore, skipBlanks_cons (by decide)]
    dsimp only
    rw [if_pos rfl]
    simp only [readItems, hnext, bind, Except.bind, hread, hend]

/-- The texts from which a record of one string is read. -/
theorem Shape.parse_iff {name : String} (hs : IsText s) :
    Shape.parse ⟨name, [⟨key, .text⟩]⟩ s = .ok (text, ()) ↔
      IsObjectWith key text s ∨ IsListWith text s := by
  refine ⟨form_of_parse hs, ?_⟩
  rintro (hobject | hlist)
  · exact Shape.parse_of_isObjectWith hobject name
  · exact Shape.parse_of_isListWith hlist key name

end Json

end ControlPlane
