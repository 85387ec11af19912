import ControlPlane.Proofs.Json.Grammar
import ControlPlane.Proofs.Json.CodePoints
import ControlPlane.Proofs.Json.PassedOver
import ControlPlane.Proofs.Record.RoundTrip
import ControlPlane.Proofs.Text.Utf8Order

/-!
# Strings are read as what they spell

A string that spells a text is read as the text, whichever of its spellings is chosen
(`readText_of_spells`), and every string is passed over, also one that spells none
(`skipText_of_letters`). Both go letter by letter.
-/

namespace ControlPlane

namespace Json

open Ascii

/-- Whether a character stands for itself in a string. -/
def standsForItself (c : Char) : Bool := 0x20 ≤ c.toNat && c != '"' && c != '\\'

/-- A text without controls, quotes and backslashes spells itself. -/
theorem spells_self {text : String} (h : text.toList.all standsForItself = true) :
    Spells text (Utf8.bytes text) := by
  rw [Spells, Utf8.bytes_eq_flatMap]
  generalize text.toList = chars at h ⊢
  induction chars with
  | nil => exact .nil
  | cons c chars ih =>
    simp only [List.all_cons, standsForItself, Bool.and_eq_true, decide_eq_true_eq, bne_iff_ne] at h
    obtain ⟨⟨⟨hcontrol, hquote⟩, hbackslash⟩, hrest⟩ := h
    rw [List.map_cons, List.flatMap_cons]
    exact .cons (.plain hcontrol hquote hbackslash) (ih hrest)

/-! ## Escapes -/

theorem hexValue?_of_mem {n : Nat} (hn : n < 0x10) : ∀ b ∈ digitForms n, hexValue? b = some n := by
  intro b hb
  simp only [digitForms, List.mem_cons, List.not_mem_nil, or_false] at hb
  rcases hb with rfl | rfl
  · exact hexValue?_upperHexDigit hn
  · exact hexValue?_lowerHexDigit hn

theorem readHex_of_isHex {n : Nat} {digits : List UInt8} (h : IsHex n digits) (rest : Input) :
    readHex (digits ++ rest) = .ok (n, rest) := by
  cases h with
  | digits hn ha hb hc hd =>
    have hvalue : ((n / 0x1000 * 16 + n / 0x100 % 0x10) * 16 + n / 0x10 % 0x10) * 16 + n % 0x10 = n := by
      omega
    simp only [List.cons_append, List.nil_append, readHex]
    rw [hexValue?_of_mem (by omega) _ ha, hexValue?_of_mem (by omega) _ hb,
      hexValue?_of_mem (by omega) _ hc, hexValue?_of_mem (by omega) _ hd]
    dsimp only
    rw [hvalue]

theorem shortEscape?_of_mem : ∀ entry ∈ shortEscapes, shortEscape? entry.1 = some entry.2 := by
  decide

/-- The code point of a character is no half of a surrogate pair. -/
theorem not_surrogate (c : Char) : isLeading c.toNat = false ∧ isTrailing c.toNat = false := by
  have hvalid : c.toNat < 0xD800 ∨ 0xDFFF < c.toNat ∧ c.toNat < 0x110000 := c.valid
  simp only [isLeading, isTrailing, Bool.and_eq_false_iff, decide_eq_false_iff_not]
  omega

theorem readUnicodeEscape_of_hex {c : Char} {digits : List UInt8} (h : IsHex c.toNat digits)
    (rest : Input) : readUnicodeEscape (digits ++ rest) = .ok (c, rest) := by
  obtain ⟨hleading, htrailing⟩ := not_surrogate c
  rw [readUnicodeEscape, readHex_of_isHex h]
  simp only [bind, Except.bind, hleading, htrailing, Char.ofNat_toNat]
  rfl

theorem readTrailing_of_isHex {high n : Nat} {digits : List UInt8} (h : IsHex n digits)
    (hn : isTrailing n = true) (rest : Input) :
    readTrailing high (backslash :: 0x75 :: (digits ++ rest)) =
      .ok (Char.ofNat (0x10000 + (high - 0xD800) * 0x400 + (n - 0xDC00)), rest) := by
  rw [readTrailing, if_neg (not_not.mpr rfl), if_neg (not_not.mpr rfl), readHex_of_isHex h]
  exact if_pos hn

theorem readUnicodeEscape_of_leading {n : Nat} {digits : List UInt8} (h : IsHex n digits)
    (hleading : isLeading n = true) (htrailing : isTrailing n = false) (rest : Input) :
    readUnicodeEscape (digits ++ rest) = readTrailing n rest := by
  rw [readUnicodeEscape, readHex_of_isHex h]
  simp only [bind, Except.bind, hleading, htrailing]
  rfl

/-- The two halves of a surrogate pair give the code point back. -/
theorem readUnicodeEscape_of_pair {c : Char} {high low : List UInt8} (hc : 0x10000 ≤ c.toNat)
    (hhigh : IsHex (0xD800 + (c.toNat - 0x10000) / 0x400) high)
    (hlow : IsHex (0xDC00 + (c.toNat - 0x10000) % 0x400) low) (rest : Input) :
    readUnicodeEscape (high ++ backslash :: 0x75 :: (low ++ rest)) = .ok (c, rest) := by
  have hvalid : c.toNat < 0xD800 ∨ 0xDFFF < c.toNat ∧ c.toNat < 0x110000 := c.valid
  obtain ⟨n, hn⟩ : ∃ n, n = 0xD800 + (c.toNat - 0x10000) / 0x400 := ⟨_, rfl⟩
  obtain ⟨m, hm⟩ : ∃ m, m = 0xDC00 + (c.toNat - 0x10000) % 0x400 := ⟨_, rfl⟩
  rw [← hn] at hhigh
  rw [← hm] at hlow
  have hleading : isLeading n = true := by
    simp only [isLeading, Bool.and_eq_true, decide_eq_true_eq]
    omega
  have htrailing : isTrailing n = false := by
    simp only [isTrailing, Bool.and_eq_false_iff, decide_eq_false_iff_not]
    omega
  have hsecond : isTrailing m = true := by
    simp only [isTrailing, Bool.and_eq_true, decide_eq_true_eq]
    omega
  have hpoint : 0x10000 + (n - 0xD800) * 0x400 + (m - 0xDC00) = c.toNat := by
    omega
  rw [readUnicodeEscape_of_leading hhigh hleading htrailing, readTrailing_of_isHex hlow hsecond,
    hpoint, Char.ofNat_toNat]

/-! ## Letters that are read -/

theorem readTextFrom_escape {done : ByteArray} {s rest : Input} {c : Char}
    (h : readEscape s = .ok (c, rest)) :
    readTextFrom done (backslash :: s) = readTextFrom (done ++ c.toString.toUTF8) rest := by
  rw [readTextFrom, if_neg (by decide), if_pos rfl]
  split
  · next hread =>
    rw [h] at hread
    cases hread
    rfl
  · next hread =>
    rw [h] at hread
    cases hread

/-- Bytes that are neither controls nor quotes nor backslashes are taken as they are. -/
theorem readTextFrom_plain {plain : List UInt8}
    (h : ∀ b ∈ plain, b ≠ quote ∧ b ≠ backslash ∧ ¬ b < space) (s : Input) :
    ∀ done, readTextFrom done (plain ++ s) = readTextFrom (done ++ ⟨plain.toArray⟩) s := by
  induction plain with
  | nil =>
    intro done
    have hdone : done ++ (⟨[].toArray⟩ : ByteArray) = done := ByteArray.append_empty
    rw [List.nil_append, hdone]
  | cons b plain ih =>
    intro done
    obtain ⟨hquote, hbackslash, hspace⟩ := h b List.mem_cons_self
    have hdone : done.push b ++ (⟨plain.toArray⟩ : ByteArray) = done ++ ⟨(b :: plain).toArray⟩ := by
      refine ByteArray.ext (Array.ext' ?_)
      simp
    rw [List.cons_append, readTextFrom, if_neg hquote, if_neg hbackslash, if_neg hspace,
      ih (fun d hd => h d (List.mem_cons_of_mem b hd)), hdone]

/-- The bytes of a character that stands for itself. -/
theorem plain_of_mem {c : Char} (hcontrol : 0x20 ≤ c.toNat) (hquote : c ≠ '"')
    (hbackslash : c ≠ '\\') :
    ∀ b ∈ String.utf8EncodeChar c, b ≠ quote ∧ b ≠ backslash ∧ ¬ b < space := by
  intro b hb
  by_cases hascii : b < 0x80
  · have hbyte : b.toNat = c.toNat := by
      have hone := utf8EncodeChar_of_mem hascii hb
      unfold String.utf8EncodeChar at hone
      dsimp only at hone
      have hc : c.val.toNat ≤ 0x7F := by
        by_contra hc
        rw [if_neg hc] at hone
        split_ifs at hone <;> cases hone
      rw [if_pos hc] at hone
      obtain ⟨rfl, -⟩ := List.cons.inj hone
      have hlt : c.val.toNat < 0x100 := by omega
      rw [UInt8.toNat_ofNat', Nat.mod_eq_of_lt hlt]
      rfl
    have hne {d : Char} (hd : c ≠ d) : b.toNat ≠ d.toNat := by
      intro he
      exact hd (Char.toNat_inj.mp (hbyte.symm.trans he))
    refine ⟨?_, ?_, ?_⟩
    · rintro rfl
      exact hne hquote rfl
    · rintro rfl
      exact hne hbackslash rfl
    · rw [UInt8.lt_iff_toNat_lt, hbyte]
      exact Nat.not_lt.mpr hcontrol
  · rw [UInt8.lt_iff_toNat_lt] at hascii
    refine ⟨?_, ?_, ?_⟩
    · rintro rfl
      exact hascii (by decide)
    · rintro rfl
      exact hascii (by decide)
    · rw [UInt8.lt_iff_toNat_lt]
      intro hlt
      exact hascii (Nat.lt_trans hlt (by decide))

/-- A letter that writes a character is read as the character. -/
theorem readTextFrom_letter {c : Char} {letter : List UInt8} (h : Letter (some c) letter)
    (done : ByteArray) (s : Input) :
    readTextFrom done (letter ++ s) = readTextFrom (done ++ c.toString.toUTF8) s := by
  cases h with
  | plain hcontrol hquote hbackslash =>
    have hbytes : c.toString.toUTF8 = ⟨(String.utf8EncodeChar c).toArray⟩ := by
      refine ByteArray.ext (Array.ext' ?_)
      rw [String.toUTF8_eq_toByteArray, Char.toString, String.toByteArray_singleton, List.utf8Encode,
        List.data_toByteArray, List.flatMap_singleton]
    rw [readTextFrom_plain (plain_of_mem hcontrol hquote hbackslash), hbytes]
  | @short _ b h =>
    have hread : readEscape (b :: s) = .ok (c, s) := by
      rw [readEscape, shortEscape?_of_mem _ h]
    exact readTextFrom_escape hread
  | hex h =>
    refine readTextFrom_escape ?_
    exact readUnicodeEscape_of_hex h s
  | @pair _ high low hc hhigh hlow =>
    refine readTextFrom_escape ?_
    show readUnicodeEscape ((high ++ backslash :: 0x75 :: low) ++ s) = _
    rw [List.append_assoc]
    exact readUnicodeEscape_of_pair hc hhigh hlow s

/-- Letters that spell a text are read as the text. The induction is on the letters; what has been read
so far is the form of a text. -/
theorem readTextFrom_of_letters {chars : List Char} {letters : List (Option Char)} {s : List UInt8}
    (h : Letters letters s) (hchars : letters = chars.map some) (rest : Input) :
    ∀ before : String, readTextFrom before.toUTF8 (s ++ rest) =
      readTextFrom (before ++ String.ofList chars).toUTF8 rest := by
  induction h generalizing chars with
  | nil =>
    intro before
    obtain rfl : chars = [] := List.map_eq_nil_iff.1 hchars.symm
    rw [List.nil_append, String.ofList_nil, String.append_empty]
  | cons hletter hs ih =>
    intro before
    cases chars with
    | nil => cases hchars
    | cons c chars =>
      rw [List.map_cons] at hchars
      obtain ⟨rfl, hrest⟩ := List.cons.inj hchars
      rw [List.append_assoc, readTextFrom_letter hletter]
      have hbefore : before.toUTF8 ++ c.toString.toUTF8 = (before ++ String.singleton c).toUTF8 :=
        String.toByteArray_append.symm
      rw [hbefore, ih hrest, String.ofList_cons, String.append_assoc]

theorem readText_append {text : String} {s : List UInt8} (h : Spells text s) (rest : Input) :
    readText (s ++ rest) = readTextFrom text.toUTF8 rest := by
  have hread := readTextFrom_of_letters h rfl rest ""
  rw [String.empty_append, String.ofList_toList] at hread
  exact hread

/-- A string is read as the text that it spells. -/
theorem readText_of_spells {text : String} {s : List UInt8} (h : Spells text s) (rest : Input) :
    readText (s ++ quote :: rest) = .ok (text, rest) := by
  rw [readText_append h, readTextFrom, if_pos rfl, Utf8.fromUTF8?_toUTF8]

/-! ## Letters that are passed over -/

theorem skipText_plain {plain : List UInt8}
    (h : ∀ b ∈ plain, b ≠ quote ∧ b ≠ backslash ∧ ¬ b < space) (s : Input) :
    skipText (plain ++ s) = skipText s := by
  induction plain with
  | nil => rfl
  | cons b plain ih =>
    obtain ⟨hquote, hbackslash, hspace⟩ := h b List.mem_cons_self
    rw [List.cons_append, skipText, if_neg hquote, if_neg hbackslash, if_neg hspace]
    exact ih fun d hd => h d (List.mem_cons_of_mem b hd)

theorem skipText_hex {n : Nat} {digits : List UInt8} (h : IsHex n digits) (s : Input) :
    skipText (backslash :: 0x75 :: (digits ++ s)) = skipText s := by
  rw [skipText_unicode, readHex_of_isHex h]
  rfl

theorem skipText_letter {letter : Option Char} {bytes : List UInt8} (h : Letter letter bytes)
    (s : Input) : skipText (bytes ++ s) = skipText s := by
  cases h with
  | plain hcontrol hquote hbackslash =>
    exact skipText_plain (plain_of_mem hcontrol hquote hbackslash) s
  | @short _ b h =>
    have hskip : skipEscape (b :: s) = .ok s := by
      rw [skipEscape, shortEscape?_of_mem _ h]
    rw [List.cons_append, List.cons_append, List.nil_append, skipText_backslash, hskip]
    rfl
  | hex h => exact skipText_hex h s
  | pair _ hhigh hlow =>
    rw [List.cons_append, List.cons_append, List.append_assoc, skipText_hex hhigh]
    exact skipText_hex hlow s
  | half _ _ h => exact skipText_hex h s

/-- A string is passed over, whatever its letters. -/
theorem skipText_of_letters {letters : List (Option Char)} {s : List UInt8} (h : Letters letters s)
    (rest : Input) : skipText (s ++ quote :: rest) = .ok rest := by
  induction h with
  | nil => rw [List.nil_append, skipText, if_pos rfl]
  | cons hletter _ ih => rw [List.append_assoc, skipText_letter hletter, ih]

end Json

end ControlPlane
