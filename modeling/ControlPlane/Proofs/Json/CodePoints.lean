import ControlPlane.Json.Reader
import ControlPlane.Proofs.Json.Yields
import Mathlib.Tactic.SplitIfs

/-!
# Reading JSON from text

A reader that is given text never complains of bytes that are not UTF-8, and what a turn of it leaves is
the end of a text again (`turn_keeps`). The bytes outside of strings, and the quotes and backslashes in
them, are ASCII, and where a text is cut at an ASCII byte both pieces are text (`IsText.split`).
-/

namespace ControlPlane

namespace Json

open Ascii

/-! ## Text -/

/-- Whether bytes are the UTF-8 form of characters. -/
def IsText (bytes : List UInt8) : Prop :=
  ∃ chars : List Char, bytes = chars.flatMap String.utf8EncodeChar

theorem isText_nil : IsText [] := ⟨[], rfl⟩

theorem IsText.append {a b : List UInt8} : IsText a → IsText b → IsText (a ++ b) := by
  rintro ⟨chars, rfl⟩ ⟨chars', rfl⟩
  exact ⟨chars ++ chars', by rw [List.flatMap_append]⟩

theorem isText_toUTF8 (text : String) : IsText text.toUTF8.data.toList := by
  obtain ⟨chars, hchars⟩ := text.isValidUTF8
  refine ⟨chars, ?_⟩
  rw [String.toUTF8_eq_toByteArray, hchars, List.utf8Encode, List.data_toByteArray]

/-- Bytes are read as text just if they are text. -/
theorem fromUTF8?_of_isText {bytes : ByteArray} (h : IsText bytes.data.toList) :
    ∃ text, String.fromUTF8? bytes = some text := by
  obtain ⟨chars, hchars⟩ := h
  have hvalid : bytes.IsValidUTF8 := by
    refine ⟨chars, ByteArray.ext (Array.ext' ?_)⟩
    rw [hchars, List.utf8Encode, List.data_toByteArray]
  exact ⟨_, dif_pos hvalid⟩

/-- An ASCII byte in the form of a character is all of it. -/
theorem utf8EncodeChar_of_mem {c : Char} {b : UInt8} (hb : b < 0x80)
    (h : b ∈ String.utf8EncodeChar c) : String.utf8EncodeChar c = [b] := by
  rw [UInt8.lt_iff_toNat_lt] at hb
  unfold String.utf8EncodeChar at h ⊢
  dsimp only at h ⊢
  by_cases hc : c.val.toNat ≤ 0x7F
  · rw [if_pos hc, List.mem_singleton] at h
    rw [if_pos hc, h]
  · rw [if_neg hc] at h
    exfalso
    -- every byte of a longer form has its highest bit set
    repeat' split at h
    all_goals
      simp only [List.mem_cons, List.not_mem_nil, or_false] at h
      rcases h with rfl | rfl | rfl | rfl <;> simp at hb <;> omega

/-- Where a text is cut at an ASCII byte, both pieces are text. -/
theorem IsText.split {a s : List UInt8} {b : UInt8} (hb : b < 0x80) (h : IsText (a ++ b :: s)) :
    IsText a ∧ IsText s := by
  obtain ⟨chars, hchars⟩ := h
  induction chars generalizing a with
  | nil => simp at hchars
  | cons c chars ih =>
    rw [List.flatMap_cons, List.append_eq_append_iff] at hchars
    -- the cut is in the form of the first character, or behind it
    rcases hchars with ⟨front, hfront, hs⟩ | ⟨back, rfl, hback⟩
    · have hc : IsText (String.utf8EncodeChar c) := ⟨[c], by simp⟩
      cases front with
      | nil =>
        rw [List.append_nil] at hfront
        have hrest : [] ++ b :: s = chars.flatMap String.utf8EncodeChar := hs
        exact ⟨hfront ▸ hc, (ih hrest).2⟩
      | cons x front =>
        rw [List.cons_append] at hs
        obtain ⟨rfl, rfl⟩ := List.cons.inj hs
        have hone := utf8EncodeChar_of_mem hb (hfront ▸ List.mem_append_right a List.mem_cons_self)
        rw [hfront, List.append_eq_singleton_iff] at hone
        rcases hone with ⟨rfl, hnil⟩ | ⟨-, hnil⟩
        · obtain ⟨-, rfl⟩ := List.cons.inj hnil
          exact ⟨isText_nil, chars, rfl⟩
        · cases hnil
    · obtain ⟨hleft, hright⟩ := ih hback.symm
      exact ⟨IsText.append ⟨[c], by simp⟩ hleft, hright⟩

/-- What follows an ASCII byte of a text is text. -/
theorem IsText.behind {b : UInt8} {s : List UInt8} (h : IsText (b :: s)) (hb : b < 0x80) :
    IsText s := by
  have hs : IsText ([] ++ b :: s) := h
  exact (hs.split hb).2

/-- Whether bytes are the end of a text, where the cut need not be between characters. -/
def IsEndOfText (s : Input) : Prop := ∃ before, IsText (before ++ s)

theorem IsEndOfText.of_suffix {s rest : Input} (h : IsEndOfText s) (hrest : rest <:+ s) :
    IsEndOfText rest := by
  obtain ⟨before, h⟩ := h
  obtain ⟨passed, rfl⟩ := hrest
  exact ⟨before ++ passed, by rwa [List.append_assoc]⟩

theorem IsEndOfText.isText_behind {b : UInt8} {s : Input} (h : IsEndOfText (b :: s))
    (hb : b < 0x80) : IsText s := by
  obtain ⟨before, h⟩ := h
  exact (h.split hb).2

/-! ## Readers that keep to the text -/

/--
Whether a reader keeps to an input: it leaves an end of the input behind, as `left` tells, or it
fails, but not because of a bad code point.
-/
abbrev Keeps {α : Type} (left : α → Input) (s : Input) : Except Fault α → Prop :=
  Yields (· ≠ .badCodePoint) fun a => left a <:+ s

theorem Yields.of_suffix {α : Type} {left : α → Input} {s s' : Input} {r : Except Fault α}
    (h : Keeps left s r) (hs : s <:+ s') : Keeps left s' r :=
  h.mono fun _ ha => ha.trans hs

theorem skipBlanks_suffix (s : Input) : skipBlanks s <:+ s := List.dropWhile_suffix isBlank

theorem behindDigits_suffix (s : Input) : behindDigits s <:+ s := List.dropWhile_suffix isDigit

/-! ## Words and strings -/

theorem readWord_keeps (word : List UInt8) (s : Input) : Keeps id s (readWord word s) := by
  fun_induction readWord word s with
  | case1 s => exact .ok s (List.suffix_refl s)
  | case2 => exact .behind (by simp)
  | case3 word b s ih => exact ih.of_suffix (List.suffix_cons b s)
  | case4 => exact .behind (by simp)

theorem readHex_keeps (s : Input) : Keeps Prod.snd s (readHex s) := by
  unfold readHex
  split
  · split
    · exact .ok _ ⟨[_, _, _, _], rfl⟩
    · exact .behind (by simp)
  · exact .behind (by simp)

theorem readTrailing_keeps (high : Nat) (s : Input) : Keeps Prod.snd s (readTrailing high s) := by
  unfold readTrailing
  split
  · exact .behind (by simp)
  · exact .behind (by split <;> simp)
  · next b u rest =>
    split_ifs
    · exact .behind (by simp)
    · exact .behind (by simp)
    · refine (readHex_keeps rest).of_suffix ((List.suffix_cons u rest).trans (List.suffix_cons b _))
        |>.bind fun a ha => ?_
      dsimp only
      split_ifs
      · exact .ok _ ha
      · exact .behind (by simp)

theorem readUnicodeEscape_keeps (s : Input) : Keeps Prod.snd s (readUnicodeEscape s) := by
  refine (readHex_keeps s).bind fun a ha => ?_
  dsimp only
  split_ifs
  · exact .behind (by simp)
  · exact (readTrailing_keeps _ _).of_suffix ha
  · exact .ok _ ha

theorem readEscape_keeps (s : Input) : Keeps Prod.snd s (readEscape s) := by
  unfold readEscape
  split
  · exact .behind (by simp)
  · next b rest =>
    split
    · exact .ok _ (List.suffix_cons b rest)
    · split_ifs
      · exact (readUnicodeEscape_keeps rest).of_suffix (List.suffix_cons b rest)
      · exact .behind (by simp)

theorem lt_of_hexValue? {b : UInt8} {n : Nat} (h : hexValue? b = some n) : b < 0x80 := by
  unfold hexValue? isDigit zero nine at h
  rw [UInt8.lt_iff_toNat_lt]
  split_ifs at h <;> simp [UInt8.le_iff_toNat_le] at * <;> omega

theorem lt_of_shortEscape? {b : UInt8} {c : Char} (h : shortEscape? b = some c) : b < 0x80 := by
  unfold shortEscape? at h
  split_ifs at h <;> subst b <;> decide

theorem isText_behind_hex {s rest : Input} {n : Nat} (h : readHex s = .ok (n, rest))
    (hs : IsText s) : IsText rest := by
  unfold readHex at h
  split at h
  · next a b c d tail =>
    split at h
    · next ha hb hc hd =>
      cases h
      exact (((hs.behind (lt_of_hexValue? ha)).behind (lt_of_hexValue? hb)).behind
        (lt_of_hexValue? hc)).behind (lt_of_hexValue? hd)
    · cases h
  · cases h

theorem isText_behind_trailing {high : Nat} {s rest : Input} {c : Char}
    (h : readTrailing high s = .ok (c, rest)) (hs : IsText s) : IsText rest := by
  unfold readTrailing at h
  split at h
  · cases h
  · cases h
  · next b u tail =>
    by_cases hb : b = backslash
    · by_cases hu : u = 0x75
      · subst hb hu
        simp only [ne_eq, not_true_eq_false, if_false] at h
        cases hx : readHex tail with
        | error f => rw [hx] at h; cases h
        | ok r =>
          rw [hx] at h
          have htail := (hs.behind (by decide)).behind (by decide)
          have hrest := isText_behind_hex hx htail
          simp only [bind, Except.bind] at h
          split at h
          · simp only [Except.ok.injEq, Prod.mk.injEq] at h
            obtain ⟨-, rfl⟩ := h
            exact hrest
          · cases h
      · simp [hb, hu] at h
    · simp [hb] at h

theorem isText_behind_escape {s rest : Input} {c : Char} (h : readEscape s = .ok (c, rest))
    (hs : IsText s) : IsText rest := by
  unfold readEscape at h
  split at h
  · cases h
  · next b tail =>
    split at h
    · next hshort =>
      cases h
      exact hs.behind (lt_of_shortEscape? hshort)
    · by_cases hu : b = 0x75
      · subst hu
        rw [if_pos rfl, readUnicodeEscape] at h
        cases hx : readHex tail with
        | error f => rw [hx] at h; cases h
        | ok r =>
          rw [hx] at h
          have hrest := isText_behind_hex hx (hs.behind (by decide))
          simp only [bind, Except.bind] at h
          split at h
          · cases h
          · split at h
            · exact isText_behind_trailing h hrest
            · cases h
              exact hrest
      · rw [if_neg hu] at h
        cases h

/--
A string is read from text without a bad code point: what it holds so far and what follows are one
text.
-/
theorem readTextFrom_keeps (done : ByteArray) (s : Input) (h : IsText (done.data.toList ++ s)) :
    Keeps Prod.snd s (readTextFrom done s) := by
  fun_induction readTextFrom done s with
  | case1 => exact .behind (by simp)
  | case2 done rest text => exact .ok _ (List.suffix_cons _ _)
  | case3 done rest hnone =>
    obtain ⟨text, htext⟩ := fromUTF8?_of_isText (h.split (by decide)).1
    rw [htext] at hnone
    cases hnone
  | case4 done rest c rest' hescape hq ih =>
    have hkeeps := readEscape_keeps rest
    rw [hescape] at hkeeps
    cases hkeeps with
    | ok _ hsuffix =>
      obtain ⟨hdone, hrest⟩ := h.split (by decide)
      have hrest' := ih ?_
      · exact hrest'.of_suffix (hsuffix.trans (List.suffix_cons _ _))
      · rw [ByteArray.data_append, Array.toList_append]
        exact (hdone.append (isText_toUTF8 c.toString)).append (isText_behind_escape hescape hrest)
  | case5 done rest f hescape hq =>
    have hkeeps := readEscape_keeps rest
    rw [hescape] at hkeeps
    cases hkeeps with
    | error _ hf => exact .error f hf
  | case6 => exact .behind (by simp)
  | case7 done b rest _ _ _ ih =>
    refine (ih ?_).of_suffix (List.suffix_cons b rest)
    rw [ByteArray.data_push, Array.toList_push, List.append_assoc]
    exact h

theorem readText_keeps {s : Input} (h : IsText s) : Keeps Prod.snd s (readText s) :=
  readTextFrom_keeps .empty s h

/-! ## Numbers -/

theorem readWhole_keeps (s : Input) : Keeps Prod.snd s (readWhole s) := by
  unfold readWhole
  split
  · exact .behind (by simp)
  · next b rest =>
    split
    · split
      · split
        · exact .facing (by simp)
        · exact .ok _ (List.suffix_cons b _)
      · exact .ok _ (List.suffix_cons b _)
    · split
      · exact .ok _ ((behindDigits_suffix rest).trans (List.suffix_cons b rest))
      · exact .behind (by simp)

theorem readFractionDigits_keeps (s : Input) : Keeps Prod.snd s (readFractionDigits s) := by
  unfold readFractionDigits
  split
  · exact .facing (by split <;> simp)
  · exact .ok _ (behindDigits_suffix s)

theorem readExponentDigits_suffix (value : Nat) (s : Input) :
    (∀ r, readExponentDigits value s = .ok r → r.2 <:+ s) ∧
      ∀ rest, readExponentDigits value s = .error rest → rest <:+ s := by
  fun_induction readExponentDigits value s with
  | case1 =>
    constructor
    · intro r h
      cases h
      exact List.suffix_rfl
    · intro rest h
      cases h
  | case2 value b rest =>
    constructor
    · intro r h
      cases h
    · intro rest' h
      cases h
      exact List.suffix_cons b rest
  | case3 value b rest _ value' _ ih =>
    constructor
    · intro r h
      exact (ih.1 r h).trans (List.suffix_cons b rest)
    · intro rest' h
      exact (ih.2 rest' h).trans (List.suffix_cons b rest)
  | case4 =>
    constructor
    · intro r h
      cases h
      exact List.suffix_rfl
    · intro rest h
      cases h

theorem readExponentSign_suffix (s : Input) : (readExponentSign s).2 <:+ s := by
  unfold readExponentSign
  split
  · split_ifs
    · exact List.suffix_cons _ _
    · exact List.suffix_cons _ _
    · exact List.suffix_rfl
  · exact List.suffix_rfl

theorem finish_keeps (significand : Significand) (negative : Bool) {s rest : Input}
    (h : rest <:+ s) : Keeps Prod.snd s (significand.finish negative rest) := by
  unfold Significand.finish
  split
  · exact .ok _ h
  · exact .behind (by simp)

theorem readExponent_keeps (significand : Significand) (negative : Bool) (s : Input) :
    Keeps Prod.snd s (readExponent significand negative s) := by
  have hsign := readExponentSign_suffix s
  unfold readExponent
  dsimp only
  split
  · exact .behind (by simp)
  · next b rest hs =>
    rw [hs] at hsign
    have hrest := (List.suffix_cons b rest).trans hsign
    split
    · split
      · next he => exact finish_keeps _ negative (((readExponentDigits_suffix _ _).1 _ he).trans hrest)
      · next he =>
        have htail := ((readExponentDigits_suffix _ _).2 _ he).trans hrest
        split
        · exact .behind (by simp)
        · exact .ok _ ((behindDigits_suffix _).trans htail)
    · exact .behind (by simp)

theorem readOptionalExponent_keeps (significand : Significand) (negative : Bool) (s : Input) :
    Keeps Prod.snd s (readOptionalExponent significand negative s) := by
  unfold readOptionalExponent
  split
  · next b rest =>
    split_ifs
    · exact (readExponent_keeps significand negative rest).of_suffix (List.suffix_cons b rest)
    · exact finish_keeps significand negative List.suffix_rfl
  · exact finish_keeps significand negative List.suffix_rfl

theorem readNumber_keeps (negative : Bool) (s : Input) :
    Keeps Prod.snd s (readNumber negative s) := by
  refine (readWhole_keeps s).bind fun a ha => ?_
  dsimp only
  split
  · next b tail hrest =>
    have htail : tail <:+ s := (List.suffix_cons b tail).trans (hrest ▸ ha)
    split_ifs
    · refine ((readFractionDigits_keeps tail).of_suffix htail).bind fun part hpart => ?_
      exact (readOptionalExponent_keeps _ negative _).of_suffix hpart
    · exact (readExponent_keeps _ negative tail).of_suffix htail
    · exact finish_keeps _ negative ha
    · exact .ok _ ha
  · split_ifs
    · exact finish_keeps _ negative (List.nil_suffix)
    · exact .ok _ List.nil_suffix

/-! ## Values -/

theorem readColon_keeps (s : Input) : Keeps id s (readColon s) := by
  have hblanks := skipBlanks_suffix s
  unfold readColon
  split
  · exact .facing (by simp)
  · next b rest hs =>
    rw [hs] at hblanks
    split_ifs
    · exact .ok _ ((List.suffix_cons b rest).trans hblanks)
    · exact .facing (by simp)

theorem readKey_keeps {s : Input} (h : IsText s) : Keeps Prod.snd s (readKey s) := by
  refine (readText_keeps h).bind fun a ha => ?_
  refine ((readColon_keeps a.2).of_suffix ha).bind fun rest hrest => ?_
  exact .ok _ hrest

theorem readScalar_keeps {b : UInt8} {rest : Input} (h : IsEndOfText (b :: rest)) :
    Keeps Prod.snd (b :: rest) (readScalar b rest) := by
  have hcons := List.suffix_cons b rest
  unfold readScalar
  split_ifs with _ _ _ _ _ hq
  · exact ((readWord_keeps nullTail rest).of_suffix hcons).map fun _ ha => ha
  · exact ((readWord_keeps trueTail rest).of_suffix hcons).map fun _ ha => ha
  · exact ((readWord_keeps falseTail rest).of_suffix hcons).map fun _ ha => ha
  · exact ((readNumber_keeps true rest).of_suffix hcons).map fun _ ha => ha
  · exact (readNumber_keeps false (b :: rest)).map fun _ ha => ha
  · subst hq
    exact ((readText_keeps (h.isText_behind (by decide))).of_suffix hcons).map fun _ ha => ha
  · exact .facing (by simp)

/-- What a turn of the reader leaves. -/
def Turn.rest : Turn → Input
  | .done _ rest => rest
  | .more _ _ rest => rest

theorem turnBefore_keeps (stack : List Frame) {s : Input} (h : IsEndOfText s) :
    Keeps Turn.rest s (turnBefore stack s) := by
  have hblanks := skipBlanks_suffix s
  unfold turnBefore
  split
  · exact .facing (by simp)
  · next b rest hs =>
    rw [hs] at hblanks
    have hrest := (List.suffix_cons b rest).trans hblanks
    have hopened := (skipBlanks_suffix rest).trans hrest
    split_ifs
    · exact .facing (by simp)
    · split
      · exact .facing (by simp)
      · next c tail hc =>
        rw [hc] at hopened
        split_ifs
        · exact .ok _ ((List.suffix_cons c tail).trans hopened)
        · exact .ok _ hopened
    · exact .facing (by simp)
    · split
      · exact .facing (by simp)
      · next c tail hc =>
        rw [hc] at hopened
        have htail := (List.suffix_cons c tail).trans hopened
        split_ifs with _ hq
        · exact .ok _ htail
        · subst hq
          have htext := (h.of_suffix hopened).isText_behind (by decide)
          exact ((readKey_keeps htext).of_suffix htail).bind fun a ha => .ok _ ha
        · exact .facing (by simp)
    · exact ((readScalar_keeps (h.of_suffix hblanks)).of_suffix hblanks).bind fun a ha => .ok _ ha

theorem turnInList_keeps (items : List Value) (stack : List Frame) (s : Input) :
    Keeps Turn.rest s (turnInList items stack s) := by
  have hblanks := skipBlanks_suffix s
  unfold turnInList
  split
  · exact .facing (by simp)
  · next b rest hs =>
    rw [hs] at hblanks
    have hrest := (List.suffix_cons b rest).trans hblanks
    split_ifs
    · exact .ok _ hrest
    · split
      · exact .facing (by simp)
      · next c tail hc =>
        split_ifs
        · exact .facing (by simp)
        · exact .ok _ (hc ▸ (skipBlanks_suffix rest).trans hrest)
    · exact .facing (by simp)

theorem turnInObject_keeps (members : List (String × Value)) (stack : List Frame) {s : Input}
    (h : IsEndOfText s) : Keeps Turn.rest s (turnInObject members stack s) := by
  have hblanks := skipBlanks_suffix s
  unfold turnInObject
  split
  · exact .facing (by simp)
  · next b rest hs =>
    rw [hs] at hblanks
    have hrest := (List.suffix_cons b rest).trans hblanks
    split_ifs
    · exact .ok _ hrest
    · split
      · exact .facing (by simp)
      · next c tail hc =>
        have hnext := hc ▸ (skipBlanks_suffix rest).trans hrest
        split_ifs with hq
        · subst hq
          have htext := (h.of_suffix hnext).isText_behind (by decide)
          have htail := (List.suffix_cons quote tail).trans hnext
          exact ((readKey_keeps htext).of_suffix htail).bind fun a ha => .ok _ ha
        · exact .facing (by simp)
        · exact .facing (by simp)
    · exact .facing (by simp)

theorem turn_keeps (stack : List Frame) (stage : Stage) {s : Input} (h : IsEndOfText s) :
    Keeps Turn.rest s (turn stack stage s) := by
  unfold turn
  split
  · exact turnBefore_keeps stack h
  · split
    · exact .ok _ List.suffix_rfl
    · exact turnInList_keeps _ _ s
    · exact turnInObject_keeps _ _ h

end Json

end ControlPlane
