import ControlPlane.Proofs.Json.StringRead
import ControlPlane.Proofs.Json.ValueSkip

/-!
# Printed strings and numbers are read back

A printed string is read as the text that was printed, whatever characters are escaped in it
(`readText_escaped`), and a printed number of 64 bits as the number (`readNumber_repr`).
-/

namespace ControlPlane

namespace Json

open Ascii Utf8

/-! ## Strings -/

/-- A control character is printed by its code point in lower case. -/
theorem bytes_control : ∀ n < 0x20,
    bytes ("\\u00" ++ String.ofList [Nat.digitChar (n / 16), Nat.digitChar (n % 16)]) =
      [backslash, 0x75, lowerHexDigit 0, lowerHexDigit 0, lowerHexDigit (n / 16),
        lowerHexDigit (n % 16)] := by
  decide +kernel

theorem isHex_control {n : Nat} (h : n < 0x20) :
    IsHex n [lowerHexDigit 0, lowerHexDigit 0, lowerHexDigit (n / 16), lowerHexDigit (n % 16)] := by
  have hlower (m : Nat) : lowerHexDigit m ∈ digitForms m := by
    simp [digitForms]
  have hfirst : n / 0x1000 = 0 := by omega
  have hsecond : n / 0x100 % 0x10 = 0 := by omega
  have hthird : n / 0x10 % 0x10 = n / 16 := by omega
  refine .digits (by omega) ?_ ?_ ?_ (hlower _)
  · rw [hfirst]
    exact hlower 0
  · rw [hsecond]
    exact hlower 0
  · rw [hthird]
    exact hlower _

/-- A character is printed as one of its letters. -/
theorem letter_encodeChar (c : Char) : Letter (some c) (bytes (encodeChar c)) := by
  unfold encodeChar
  split_ifs with hquote hbackslash hback hform hfeed hreturn htab hcontrol
  · subst hquote
    exact .short (by decide)
  · subst hbackslash
    exact .short (by decide)
  · subst hback
    exact .short (by decide)
  · subst hform
    exact .short (by decide)
  · subst hfeed
    exact .short (by decide)
  · subst hreturn
    exact .short (by decide)
  · subst htab
    exact .short (by decide)
  · rw [bytes_control c.toNat hcontrol]
    exact .hex (isHex_control hcontrol)
  · have hplain : bytes c.toString = String.utf8EncodeChar c := by
      rw [bytes_eq_flatMap, Char.toString, String.toList_singleton, List.flatMap_singleton]
    rw [hplain]
    exact .plain (Nat.not_lt.mp hcontrol) hquote hbackslash

/-- What is printed between the quotes of a string. -/
def escaped (text : String) : List UInt8 := text.toList.flatMap fun c => bytes (encodeChar c)

theorem spells_escaped (text : String) : Spells text (escaped text) := by
  unfold Spells escaped
  induction text.toList with
  | nil => exact .nil
  | cons c chars ih =>
    rw [List.map_cons, List.flatMap_cons]
    exact .cons (letter_encodeChar c) ih

theorem bytes_printText (text : String) :
    bytes (printText text) = quote :: (escaped text ++ [quote]) := by
  have hfold (chars : List Char) (out : String) :
      bytes (chars.foldl (fun out c => out ++ encodeChar c) out) =
        bytes out ++ chars.flatMap fun c => bytes (encodeChar c) := by
    induction chars generalizing out with
    | nil => simp
    | cons c chars ih =>
      rw [List.foldl_cons, ih, bytes_append, List.flatMap_cons, List.append_assoc]
  unfold printText
  rw [bytes_append, hfold]
  rfl

/-- A printed string is read back behind its opening quote. -/
theorem readText_escaped (text : String) (rest : Input) :
    readText (escaped text ++ quote :: rest) = .ok (text, rest) :=
  readText_of_spells (spells_escaped text) rest

/-! ## Numbers -/

/-- The digit of a number below ten. -/
theorem bytes_repr_of_lt : ∀ n < 10, bytes n.repr = [0x30 + n.toUInt8] ∧
    isDigit (0x30 + n.toUInt8) = true ∧ digitValue (0x30 + n.toUInt8) = n ∧
    (n ≠ 0 → 0x30 + n.toUInt8 ≠ zero) := by
  decide +kernel

/-- The last digit of a number stands behind the digits of its tenth part. -/
theorem bytes_repr_of_le {n : Nat} (h : 10 ≤ n) :
    bytes n.repr = bytes (n / 10).repr ++ bytes (n % 10).repr := by
  have hlast : Nat.toDigits 10 (n % 10) = [(n % 10).digitChar] :=
    Nat.toDigits_of_lt_base (Nat.mod_lt n (by decide))
  rw [← bytes_append, Nat.repr, Nat.toDigits_of_base_le (by decide) h, Nat.repr, Nat.repr, hlast,
    String.ofList_append]

/-- The induction is on the number without its last digit. -/
theorem digits_of_pos {n : Nat} (h : 0 < n) :
    ∃ b s, bytes n.repr = b :: s ∧ isDigit b = true ∧ b ≠ zero ∧ ∀ d ∈ s, isDigit d = true := by
  induction n using Nat.strongRecOn with
  | ind n ih =>
    by_cases hn : n < 10
    · obtain ⟨hbytes, hdigit, -, hzero⟩ := bytes_repr_of_lt n hn
      exact ⟨_, [], hbytes, hdigit, hzero (by omega), by simp⟩
    · obtain ⟨b, s, hbytes, hb, hzero, hs⟩ := ih (n / 10) (by omega) (by omega)
      obtain ⟨hlast, hdigit, -, -⟩ := bytes_repr_of_lt (n % 10) (by omega)
      refine ⟨b, s ++ [0x30 + (n % 10).toUInt8], ?_, hb, hzero, ?_⟩
      · rw [bytes_repr_of_le (Nat.not_lt.mp hn), hbytes, hlast, List.cons_append]
      · intro d hd
        rcases List.mem_append.mp hd with hd | hd
        · exact hs d hd
        · rw [List.mem_singleton.mp hd]
          exact hdigit

theorem isWhole_repr (n : Nat) : IsWhole (bytes n.repr) := by
  rcases Nat.eq_zero_or_pos n with rfl | hpos
  · exact .zero
  · obtain ⟨b, s, hbytes, hb, hzero, hs⟩ := digits_of_pos hpos
    rw [hbytes]
    exact .digits hb hzero hs

/-- The digits of a number of 64 bits are gathered to the number. -/
theorem gather_repr {n : Nat} (h : n ≤ significandLimit) :
    (bytes n.repr).foldl Significand.addWhole ⟨0, 0, false⟩ = ⟨n, 0, false⟩ := by
  have hadd {m : Nat} {b : UInt8} (hle : m * 10 + digitValue b ≤ significandLimit) :
      Significand.addWhole ⟨m, 0, false⟩ b = ⟨m * 10 + digitValue b, 0, false⟩ := by
    unfold Significand.addWhole
    exact if_neg (by simpa using hle)
  induction n using Nat.strongRecOn with
  | ind n ih =>
    by_cases hn : n < 10
    · obtain ⟨hbytes, -, hvalue, -⟩ := bytes_repr_of_lt n hn
      rw [hbytes, List.foldl_cons, List.foldl_nil, hadd (by rw [hvalue]; omega), hvalue]
      simp
    · obtain ⟨hlast, -, hvalue, -⟩ := bytes_repr_of_lt (n % 10) (by omega)
      have hsplit : n / 10 * 10 + n % 10 = n := Nat.div_add_mod' n 10
      rw [bytes_repr_of_le (Nat.not_lt.mp hn), List.foldl_append, ih (n / 10) (by omega) (by omega),
        hlast, List.foldl_cons, List.foldl_nil, hadd (by rw [hvalue, hsplit]; exact h), hvalue, hsplit]

theorem readNumber_repr {n : Nat} (h : n ≤ significandLimit) {rest : Input}
    (hrest : EndsNumber rest) :
    readNumber false (bytes n.repr ++ rest) = .ok (.whole n, rest) := by
  have hdigits : EndsDigits rest := fun b hb => (hrest b hb).1
  unfold readNumber
  rw [readWhole_of_isWhole (isWhole_repr n) hdigits]
  simp only [bind, Except.bind, gather_repr h]
  cases rest with
  | nil => rfl
  | cons b rest =>
    obtain ⟨-, hdot, hmark⟩ := hrest b rfl
    dsimp only
    rw [if_neg hdot, if_neg (by rw [hmark]; decide)]
    rfl

end Json

end ControlPlane
