import ControlPlane.Proofs.Json.StringForm
import ControlPlane.Proofs.Json.Yields

/-!
# Halves of surrogate pairs

A string that is passed over spells a text, unless an escape in it writes half a surrogate pair
without the other half (`spells_or_unpaired`). Where it spells a text it is read as the text; where it
does not, the reader says in which way the first such half is alone (`Unpaired`).
-/

namespace ControlPlane

namespace Json

open Ascii

/-- The strings in which half a surrogate pair is alone, given by what is wrong with it. What stands in
front of it spells a text. -/
inductive Unpaired : FaultKind → List UInt8 → Prop
  /-- It is the second half. -/
  | trailing {text : String} {front digits behind : List UInt8} {n : Nat} (hfront : Spells text front)
    (h : IsHex n digits) (hn : isTrailing n = true) :
    Unpaired .loneSurrogate (front ++ backslash :: 0x75 :: (digits ++ behind))
  /-- It is the first half, and an escape that is no second half follows. -/
  | leading {text : String} {front digits digits' behind : List UInt8} {n m : Nat}
    (hfront : Spells text front) (h : IsHex n digits) (hn : isLeading n = true)
    (h' : IsHex m digits') (hm : isTrailing m = false) :
    Unpaired .loneSurrogate
      (front ++ backslash :: 0x75 :: (digits ++ backslash :: 0x75 :: (digits' ++ behind)))
  /-- It is the first half, and no such escape follows. -/
  | single {text : String} {front digits behind : List UInt8} {n : Nat} (hfront : Spells text front)
    (h : IsHex n digits) (hn : isLeading n = true) (hbehind : ¬ [backslash, 0x75] <+: behind) :
    Unpaired .endOfHexEscape (front ++ backslash :: 0x75 :: (digits ++ behind))

/-! ## Spelling -/

theorem spells_nil : Spells "" [] := .nil

theorem spells_cons {c : Char} {letter s : List UInt8} {text : String} (h : Letter (some c) letter)
    (hs : Spells text s) : Spells (String.singleton c ++ text) (letter ++ s) := by
  unfold Spells
  rw [String.toList_append, String.toList_singleton, List.singleton_append, List.map_cons]
  exact .cons h hs

/-- A letter in front of a string leaves a half alone. -/
theorem Unpaired.cons {kind : FaultKind} {c : Char} {letter s : List UInt8}
    (hletter : Letter (some c) letter) (h : Unpaired kind s) : Unpaired kind (letter ++ s) := by
  cases h with
  | trailing hfront h hn =>
    rw [← List.append_assoc]
    exact .trailing (spells_cons hletter hfront) h hn
  | leading hfront h hn h' hm =>
    rw [← List.append_assoc]
    exact .leading (spells_cons hletter hfront) h hn h' hm
  | single hfront h hn hbehind =>
    rw [← List.append_assoc]
    exact .single (spells_cons hletter hfront) h hn hbehind

theorem Letter.length_pos {letter : Option Char} {s : List UInt8} (h : Letter letter s) :
    0 < s.length := by
  cases h with
  | @plain c =>
    rw [String.length_utf8EncodeChar]
    exact c.utf8Size_pos
  | short | hex | pair | half => exact Nat.succ_pos _

/-- Behind the first half of a pair a string goes on with the second half, or leaves the first alone. -/
theorem unpaired_or_letter {n : Nat} {digits s : List UInt8} {letters : List (Option Char)}
    (h : IsHex n digits) (hn : isLeading n = true) (hs : Letters letters s) :
    (∃ kind, Unpaired kind (backslash :: 0x75 :: (digits ++ s))) ∨
      ∃ c letter letters' s', Letter (some c) letter ∧ Letters letters' s' ∧
        backslash :: 0x75 :: (digits ++ s) = letter ++ s' := by
  cases hs with
  | nil => exact .inl ⟨_, .single spells_nil h hn (by simp)⟩
  | @cons _ letters' t s' hletter hs' =>
    -- an escape by a code point leaves the half alone unless the code point is a second half
    have halone {m : Nat} {digits' behind : List UInt8} (h' : IsHex m digits')
        (hm : isTrailing m = false) :
        ∃ kind, Unpaired kind (backslash :: 0x75 :: (digits ++ (backslash :: 0x75 :: digits' ++ behind))) :=
      ⟨_, .leading spells_nil h hn h' hm⟩
    cases hletter with
    | @plain c hcontrol hquote hbackslash =>
      refine .inl ⟨_, .single spells_nil h hn fun hprefix => ?_⟩
      have hplain := plain_of_mem hcontrol hquote hbackslash
      have hne : String.utf8EncodeChar c ≠ [] := String.utf8EncodeChar_ne_nil
      obtain ⟨b, tail, hb⟩ := List.exists_cons_of_ne_nil hne
      rw [hb, List.cons_append] at hprefix
      exact (hplain b (hb ▸ List.mem_cons_self)).2.1 (List.cons_prefix_cons.mp hprefix).1.symm
    | @short c b hshort =>
      refine .inl ⟨_, .single spells_nil h hn fun hprefix => ?_⟩
      have hread := shortEscape?_of_mem _ hshort
      rw [← (List.cons_prefix_cons.mp (List.cons_prefix_cons.mp hprefix).2).1] at hread
      cases hread
    | hex hhex => exact .inl (halone hhex (not_surrogate _).2)
    | @pair c high low hc hhigh hlow =>
      have hvalid : c.toNat < 0xD800 ∨ 0xDFFF < c.toNat ∧ c.toNat < 0x110000 := c.valid
      have hfirst : isTrailing (0xD800 + (c.toNat - 0x10000) / 0x400) = false := by
        simp only [isTrailing, Bool.and_eq_false_iff, decide_eq_false_iff_not]
        omega
      rw [show backslash :: 0x75 :: (high ++ backslash :: 0x75 :: low) ++ s' =
        backslash :: 0x75 :: high ++ (backslash :: 0x75 :: low ++ s') by simp]
      exact .inl (halone hhigh hfirst)
    | @half m digits' hleast hgreatest hhex =>
      by_cases hm : isTrailing m = true
      · exact .inr ⟨_, _, letters', s', letter_of_halves h hn hhex hm, hs', by simp⟩
      · exact .inl (halone hhex (Bool.eq_false_iff.mpr hm))

/-- A sequence of letters spells a text, or leaves half a pair alone. The induction is on the length of
the string, since two letters may write the halves of one pair. -/
theorem spells_or_unpaired {letters : List (Option Char)} {s : List UInt8} (h : Letters letters s) :
    (∃ text, Spells text s) ∨ ∃ kind, Unpaired kind s := by
  induction hlength : s.length using Nat.strong_induction_on generalizing letters s with
  | _ n ih =>
    subst hlength
    -- a character goes in front of what the rest of the string is
    have hchar {c : Char} {letter s' : List UInt8} {letters' : List (Option Char)}
        (hletter : Letter (some c) letter) (hs' : Letters letters' s') (hs : s = letter ++ s')
        (hlt : s'.length < s.length) : (∃ text, Spells text s) ∨ ∃ kind, Unpaired kind s := by
      rw [hs]
      rcases ih _ hlt hs' rfl with ⟨text, htext⟩ | ⟨kind, hkind⟩
      · exact .inl ⟨_, spells_cons hletter htext⟩
      · exact .inr ⟨kind, .cons hletter hkind⟩
    cases h with
    | nil => exact .inl ⟨"", spells_nil⟩
    | @cons letter letters' t s' hletter hs' =>
      have hlt : s'.length < (t ++ s').length := by
        have := hletter.length_pos
        rw [List.length_append]
        omega
      cases letter with
      | some c => exact hchar hletter hs' rfl hlt
      | none =>
        cases hletter with
        | @half n digits hleast hgreatest hhex =>
          by_cases hn : isTrailing n = true
          · exact .inr ⟨_, .trailing spells_nil hhex hn⟩
          · have hleading : isLeading n = true := by
              simp only [isLeading, isTrailing, Bool.and_eq_true, decide_eq_true_eq] at hn ⊢
              omega
            rcases unpaired_or_letter hhex hleading hs' with
              hkind | ⟨c, letter, letters', s'', hletter, hs'', heq⟩
            · exact .inr hkind
            · refine hchar hletter hs'' heq ?_
              have hpos := hletter.length_pos
              rw [List.cons_append, List.cons_append, heq, List.length_append]
              omega

/-! ## Reading -/

theorem readTextFrom_of_escape {done : ByteArray} {s : Input} {f : Fault} (h : readEscape s = .error f) :
    readTextFrom done (backslash :: s) = .error f := by
  rw [readTextFrom, if_neg (by decide), if_pos rfl]
  split
  · next hread =>
    rw [h] at hread
    cases hread
  · next hread =>
    rw [h] at hread
    cases hread
    rfl

theorem isTrailing_of_isLeading {n : Nat} (h : isLeading n = true) : isTrailing n = false := by
  simp only [isLeading, isTrailing, Bool.and_eq_true, Bool.and_eq_false_iff, decide_eq_true_eq,
    decide_eq_false_iff_not] at h ⊢
  omega

/-- Where no escape by a code point follows, a first half is not completed. -/
theorem readTrailing_of_not_prefix {behind : List UInt8} (h : ¬ [backslash, 0x75] <+: behind)
    (high : Nat) (rest : Input) :
    ∃ left, readTrailing high (behind ++ quote :: rest) = .error (.behind .endOfHexEscape left) := by
  cases behind with
  | nil => cases rest <;> exact ⟨_, rfl⟩
  | cons b tail =>
    by_cases hb : b = backslash
    · subst hb
      cases tail with
      | nil => exact ⟨rest, rfl⟩
      | cons u tail =>
        have hu : u ≠ 0x75 := by
          rintro rfl
          exact h ⟨tail, rfl⟩
        refine ⟨tail ++ quote :: rest, ?_⟩
        rw [List.cons_append, List.cons_append, readTrailing, if_neg (not_not.mpr rfl), if_pos hu]
    · cases tail with
      | nil => exact ⟨_, if_pos hb⟩
      | cons u tail => exact ⟨_, if_pos hb⟩

/-- A string in which a half is alone is not read, for the reason that it is. -/
theorem readText_of_unpaired {kind : FaultKind} {s : List UInt8} (h : Unpaired kind s) (rest : Input) :
    ∃ left, readText (s ++ quote :: rest) = .error (.behind kind left) := by
  cases h with
  | @trailing text front digits behind n hfront h hn =>
    refine ⟨behind ++ quote :: rest, ?_⟩
    rw [List.append_assoc, readText_append hfront]
    refine readTextFrom_of_escape ?_
    show readUnicodeEscape (digits ++ behind ++ quote :: rest) = _
    rw [readUnicodeEscape, List.append_assoc, readHex_of_isHex h]
    exact if_pos hn
  | @leading text front digits digits' behind n m hfront h hn h' hm =>
    refine ⟨behind ++ quote :: rest, ?_⟩
    rw [List.append_assoc, readText_append hfront]
    refine readTextFrom_of_escape ?_
    show readUnicodeEscape (digits ++ backslash :: 0x75 :: (digits' ++ behind) ++ quote :: rest) = _
    rw [List.append_assoc, readUnicodeEscape_of_leading h hn (isTrailing_of_isLeading hn),
      List.cons_append, List.cons_append, readTrailing, if_neg (not_not.mpr rfl),
      if_neg (not_not.mpr rfl), List.append_assoc, readHex_of_isHex h']
    exact if_neg (by rw [hm]; decide)
  | @single text front digits behind n hfront h hn hbehind =>
    obtain ⟨left, hleft⟩ := readTrailing_of_not_prefix hbehind n rest
    refine ⟨left, ?_⟩
    rw [List.append_assoc, readText_append hfront]
    refine readTextFrom_of_escape ?_
    show readUnicodeEscape (digits ++ behind ++ quote :: rest) = _
    rw [List.append_assoc, readUnicodeEscape_of_leading h hn (isTrailing_of_isLeading hn), hleft]

/-- A sequence of letters is read as what it spells, unless half a pair is alone in it. -/
theorem readText_yields {letters : List (Option Char)} {s : List UInt8} (h : Letters letters s)
    (rest : Input) :
    Yields (Unpaired · s) (fun a => a.2 = rest ∧ Spells a.1 s) (readText (s ++ quote :: rest)) := by
  rcases spells_or_unpaired h with ⟨text, htext⟩ | ⟨kind, hkind⟩
  · rw [readText_of_spells htext]
    exact .ok _ ⟨rfl, htext⟩
  · obtain ⟨left, hleft⟩ := readText_of_unpaired hkind rest
    rw [hleft]
    exact .error _ hkind

end Json

end ControlPlane
