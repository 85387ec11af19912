import ControlPlane.Proofs.Json.StringRead

/-!
# What is read as a string is one

In a text, what is read as a string is a spelling of what it is read as (`spells_of_readText`), and what
is passed over as a string is a sequence of letters (`letters_of_skipText`). Both readers go through the
text byte by byte, and what they come upon in a text is one of five things (`TextStart`).
-/

namespace ControlPlane

namespace Json

open Ascii

/-! ## Characters of a text -/

/-- What a string reader comes upon in a text. -/
inductive TextStart : List UInt8 → Prop
  /-- The text ends. -/
  | nil : TextStart []
  /-- A quote. -/
  | quote {tail : List UInt8} (h : IsText tail) : TextStart (quote :: tail)
  /-- A backslash. -/
  | backslash {tail : List UInt8} (h : IsText tail) : TextStart (backslash :: tail)
  /-- A control. -/
  | control {b : UInt8} {tail : List UInt8} (hb : b < space) : TextStart (b :: tail)
  /-- A character that stands for itself. -/
  | plain {c : Char} {tail : List UInt8} (hletter : Letter (some c) (String.utf8EncodeChar c))
    (hbytes : ∀ b ∈ String.utf8EncodeChar c, b ≠ Ascii.quote ∧ b ≠ Ascii.backslash ∧ ¬ b < space)
    (h : IsText tail) : TextStart (String.utf8EncodeChar c ++ tail)

theorem utf8EncodeChar_of_lt {c : Char} (h : c.toNat < 0x80) :
    String.utf8EncodeChar c = [c.toNat.toUInt8] := by
  have hle : c.val.toNat ≤ 0x7F := Nat.le_of_lt_succ h
  unfold String.utf8EncodeChar
  dsimp only
  rw [if_pos hle]
  rfl

theorem IsText.start {s : List UInt8} (h : IsText s) : TextStart s := by
  obtain ⟨chars, rfl⟩ := h
  cases chars with
  | nil => exact .nil
  | cons c chars =>
    have htail : IsText (chars.flatMap String.utf8EncodeChar) := ⟨chars, rfl⟩
    rw [List.flatMap_cons]
    by_cases hquote : c = '"'
    · subst hquote
      exact .quote htail
    · by_cases hbackslash : c = '\\'
      · subst hbackslash
        exact .backslash htail
      · by_cases hcontrol : 0x20 ≤ c.toNat
        · exact .plain (.plain hcontrol hquote hbackslash) (plain_of_mem hcontrol hquote hbackslash) htail
        · have hlt : c.toNat < 0x20 := Nat.lt_of_not_le hcontrol
          rw [utf8EncodeChar_of_lt (by omega)]
          refine .control ?_
          rw [UInt8.lt_iff_toNat_lt, UInt8.toNat_ofNat', Nat.mod_eq_of_lt (by omega)]
          exact hlt

/-! ## Escapes -/

theorem mem_digitForms {b : UInt8} {n : Nat} (h : hexValue? b = some n) :
    n < 0x10 ∧ b ∈ digitForms n := by
  have hall : ∀ b : Fin 256, (hexValue? (.ofFin b)).all
      (fun n => n < 0x10 && (digitForms n).contains (.ofFin b)) = true := by
    decide +kernel
  have hb := hall b.toFin
  rw [UInt8.ofFin_toFin, h] at hb
  simpa using hb

theorem isHex_of_readHex {s rest : Input} {n : Nat} (h : readHex s = .ok (n, rest)) :
    ∃ digits, IsHex n digits ∧ s = digits ++ rest := by
  unfold readHex at h
  split at h
  · next a b c d tail =>
    split at h
    · next va vb vc vd ha hb hc hd =>
      cases h
      obtain ⟨hva, ha⟩ := mem_digitForms ha
      obtain ⟨hvb, hb⟩ := mem_digitForms hb
      obtain ⟨hvc, hc⟩ := mem_digitForms hc
      obtain ⟨hvd, hd⟩ := mem_digitForms hd
      refine ⟨[a, b, c, d], .digits (by omega) ?_ ?_ ?_ ?_, rfl⟩
      · rwa [show (((va * 16 + vb) * 16 + vc) * 16 + vd) / 0x1000 = va by omega]
      · rwa [show (((va * 16 + vb) * 16 + vc) * 16 + vd) / 0x100 % 0x10 = vb by omega]
      · rwa [show (((va * 16 + vb) * 16 + vc) * 16 + vd) / 0x10 % 0x10 = vc by omega]
      · rwa [show (((va * 16 + vb) * 16 + vc) * 16 + vd) % 0x10 = vd by omega]
    · cases h
  · cases h

theorem IsHex.lt {n : Nat} {digits : List UInt8} (h : IsHex n digits) : n < 0x10000 := by
  cases h with
  | digits hn _ _ _ _ => exact hn

theorem mem_shortEscapes {b : UInt8} {c : Char} (h : shortEscape? b = some c) :
    (b, c) ∈ shortEscapes := by
  unfold shortEscape? at h
  split_ifs at h <;> cases h <;> subst b <;> decide

/-- A number that is no half of a surrogate pair is the code point of a character. -/
theorem toNat_ofNat {n : Nat} (h : n < 0xD800 ∨ 0xDFFF < n ∧ n < 0x110000) :
    (Char.ofNat n).toNat = n := by
  have hvalid : n.isValidChar := h
  rw [Char.ofNat, dif_pos hvalid]
  rfl

/-- Two halves of a surrogate pair write a character. -/
theorem letter_of_halves {high low : Nat} {digits digits' : List UInt8} (h : IsHex high digits)
    (hhigh : isLeading high = true) (h' : IsHex low digits') (hlow : isTrailing low = true) :
    Letter (some (Char.ofNat (0x10000 + (high - 0xD800) * 0x400 + (low - 0xDC00))))
      (backslash :: 0x75 :: (digits ++ backslash :: 0x75 :: digits')) := by
  simp only [isLeading, isTrailing, Bool.and_eq_true, decide_eq_true_eq] at hhigh hlow
  obtain ⟨n, hn⟩ : ∃ n, n = 0x10000 + (high - 0xD800) * 0x400 + (low - 0xDC00) := ⟨_, rfl⟩
  have hpoint : (Char.ofNat n).toNat = n := toNat_ofNat (by omega)
  rw [← hn]
  refine .pair (by omega) ?_ ?_
  · rwa [hpoint, show 0xD800 + (n - 0x10000) / 0x400 = high by omega]
  · rwa [hpoint, show 0xDC00 + (n - 0x10000) % 0x400 = low by omega]

theorem readTrailing_form {high : Nat} {s rest : Input} {c : Char}
    (h : readTrailing high s = .ok (c, rest)) :
    ∃ low digits, IsHex low digits ∧ isTrailing low = true ∧
      s = backslash :: 0x75 :: (digits ++ rest) ∧
      c = Char.ofNat (0x10000 + (high - 0xD800) * 0x400 + (low - 0xDC00)) := by
  unfold readTrailing at h
  split at h
  · cases h
  · cases h
  · next b u tail =>
    split_ifs at h with hb hu
    rw [Decidable.not_not] at hb hu
    subst hb hu
    cases hx : readHex tail with
    | error f => rw [hx] at h; cases h
    | ok r =>
      obtain ⟨low, tail'⟩ := r
      obtain ⟨digits, hdigits, rfl⟩ := isHex_of_readHex hx
      rw [hx] at h
      simp only [bind, Except.bind] at h
      split_ifs at h with hlow
      obtain ⟨hc, hrest⟩ := Prod.mk.inj (Except.ok.inj h)
      exact ⟨low, digits, hdigits, hlow, by rw [hrest], hc.symm⟩

/-- What is read behind a backslash is the rest of a letter. -/
theorem letter_of_readEscape {s rest : Input} {c : Char} (h : readEscape s = .ok (c, rest)) :
    ∃ bytes, Letter (some c) (backslash :: bytes) ∧ s = bytes ++ rest := by
  unfold readEscape at h
  split at h
  · cases h
  · next b tail =>
    split at h
    · next hshort =>
      cases h
      exact ⟨[b], .short (mem_shortEscapes hshort), rfl⟩
    · split_ifs at h with hu
      subst hu
      unfold readUnicodeEscape at h
      cases hx : readHex tail with
      | error f => rw [hx] at h; cases h
      | ok r =>
        obtain ⟨n, mid⟩ := r
        obtain ⟨digits, hdigits, rfl⟩ := isHex_of_readHex hx
        have hn := hdigits.lt
        rw [hx] at h
        simp only [bind, Except.bind] at h
        split_ifs at h with htrailing hleading
        · obtain ⟨low, digits', hdigits', hlow, hmid, hc⟩ := readTrailing_form h
          refine ⟨0x75 :: (digits ++ backslash :: 0x75 :: digits'),
            hc ▸ letter_of_halves hdigits hleading hdigits' hlow, ?_⟩
          rw [hmid, List.cons_append, List.append_assoc, List.cons_append, List.cons_append]
        · simp only [isLeading, isTrailing, Bool.and_eq_true, decide_eq_true_eq] at htrailing hleading
          cases h
          refine ⟨0x75 :: digits, .hex ?_, rfl⟩
          rwa [toNat_ofNat (by omega)]

/-- What is passed over behind a backslash is the rest of a letter. -/
theorem letter_of_skipEscape {s rest : Input} (h : skipEscape s = .ok rest) (hs : IsText s) :
    (∃ letter bytes, Letter letter (backslash :: bytes) ∧ s = bytes ++ rest) ∧ IsText rest := by
  unfold skipEscape at h
  split at h
  · cases h
  · next b tail =>
    split at h
    · next c hshort =>
      cases h
      exact ⟨⟨some c, [b], .short (mem_shortEscapes hshort), rfl⟩,
        hs.behind (lt_of_shortEscape? hshort)⟩
    · split_ifs at h with hu
      subst hu
      cases hx : readHex tail with
      | error f => rw [hx] at h; cases h
      | ok r =>
        obtain ⟨n, mid⟩ := r
        rw [hx] at h
        cases h
        obtain ⟨digits, hdigits, htail⟩ := isHex_of_readHex hx
        refine ⟨?_, isText_behind_hex hx (hs.behind (by decide))⟩
        have hn := hdigits.lt
        by_cases hsurrogate : 0xD800 ≤ n ∧ n ≤ 0xDFFF
        · exact ⟨none, 0x75 :: digits, .half hsurrogate.1 hsurrogate.2 hdigits, by rw [htail]; rfl⟩
        · refine ⟨some (Char.ofNat n), 0x75 :: digits, .hex ?_, by rw [htail]; rfl⟩
          rwa [toNat_ofNat (by omega)]

/-! ## Strings -/

theorem skipText_control {b : UInt8} {tail rest : Input} (hb : b < space) :
    skipText (b :: tail) ≠ .ok rest := by
  have hquote : b ≠ quote := by
    rintro rfl
    exact absurd hb (by decide)
  have hbackslash : b ≠ backslash := by
    rintro rfl
    exact absurd hb (by decide)
  rw [skipText, if_neg hquote, if_neg hbackslash, if_pos hb]
  intro h
  cases h

theorem readTextFrom_control {done : ByteArray} {b : UInt8} {tail : Input} (hb : b < space)
    {r : String × Input} : readTextFrom done (b :: tail) ≠ .ok r := by
  have hquote : b ≠ quote := by
    rintro rfl
    exact absurd hb (by decide)
  have hbackslash : b ≠ backslash := by
    rintro rfl
    exact absurd hb (by decide)
  rw [readTextFrom, if_neg hquote, if_neg hbackslash, if_pos hb]
  intro h
  cases h

/-- What is passed over as a string is a sequence of letters. The induction is on the length of the
text, since an escape is passed over in one step. -/
theorem letters_of_skipText {s rest : Input} (hs : IsText s) (h : skipText s = .ok rest) :
    ∃ letters bytes, Letters letters bytes ∧ s = bytes ++ quote :: rest := by
  induction hn : s.length using Nat.strong_induction_on generalizing s with
  | _ n ih =>
    subst hn
    cases hs.start with
    | nil => simp [skipText] at h
    | quote =>
      rw [skipText, if_pos rfl] at h
      cases h
      exact ⟨[], [], .nil, rfl⟩
    | @backslash tail htail =>
      rw [skipText_backslash] at h
      cases hescape : skipEscape tail with
      | error f => rw [hescape] at h; cases h
      | ok mid =>
        rw [hescape] at h
        have hlt : mid.length < (backslash :: tail).length :=
          Nat.lt_succ_of_lt (skipEscape_length_lt hescape)
        obtain ⟨⟨letter, bytes, hletter, rfl⟩, hmid⟩ := letter_of_skipEscape hescape htail
        obtain ⟨letters, bytes', hletters, hbytes⟩ := ih _ hlt hmid h rfl
        refine ⟨letter :: letters, backslash :: bytes ++ bytes', .cons hletter hletters, ?_⟩
        rw [hbytes, List.append_assoc, List.cons_append]
    | control hb => exact absurd h (skipText_control hb)
    | @plain c tail hletter hplain htail =>
      rw [skipText_plain hplain] at h
      have hlt : tail.length < (String.utf8EncodeChar c ++ tail).length := by
        rw [List.length_append, String.length_utf8EncodeChar]
        have := c.utf8Size_pos
        omega
      obtain ⟨letters, bytes, hletters, hbytes⟩ := ih _ hlt htail h rfl
      refine ⟨some c :: letters, _, .cons hletter hletters, ?_⟩
      rw [hbytes, List.append_assoc]

/-- What is read as a string spells what is read. -/
theorem spells_of_readTextFrom {s rest : Input} {text : String} (hs : IsText s) (before : String)
    (h : readTextFrom before.toUTF8 s = .ok (text, rest)) :
    ∃ chars bytes, Letters (List.map some chars) bytes ∧ s = bytes ++ quote :: rest ∧
      text = before ++ String.ofList chars := by
  induction hn : s.length using Nat.strong_induction_on generalizing s before with
  | _ n ih =>
    subst hn
    -- a letter that is read goes to what has been read, and the rest is shorter
    have hstep {c : Char} {bytes tail : List UInt8} (hletter : Letter (some c) bytes)
        (hlt : tail.length < (bytes ++ tail).length) (hseq : s = bytes ++ tail) (htail : IsText tail) :
        ∃ chars bytes, Letters (List.map some chars) bytes ∧ s = bytes ++ quote :: rest ∧
          text = before ++ String.ofList chars := by
      have hbefore : before.toUTF8 ++ c.toString.toUTF8 = (before ++ String.singleton c).toUTF8 :=
        String.toByteArray_append.symm
      rw [hseq, readTextFrom_letter hletter, hbefore] at h
      obtain ⟨chars, bytes', hletters, hbytes, htext⟩ := ih _ (hseq ▸ hlt) htail _ h rfl
      refine ⟨c :: chars, bytes ++ bytes', .cons hletter hletters, ?_, ?_⟩
      · rw [hseq, hbytes, List.append_assoc]
      · rw [htext, String.ofList_cons, String.append_assoc]
    cases hs.start with
    | nil => simp [readTextFrom] at h
    | quote =>
      rw [readTextFrom, if_pos rfl, Utf8.fromUTF8?_toUTF8] at h
      cases h
      exact ⟨[], [], .nil, rfl, by rw [String.ofList_nil, String.append_empty]⟩
    | @backslash tail htail =>
      cases hescape : readEscape tail with
      | error f =>
        rw [readTextFrom, if_neg (by decide), if_pos rfl] at h
        split at h
        · next hread =>
          rw [hescape] at hread
          cases hread
        · cases h
      | ok r =>
        obtain ⟨c, mid⟩ := r
        obtain ⟨bytes, hletter, rfl⟩ := letter_of_readEscape hescape
        refine hstep hletter ?_ rfl (isText_behind_escape hescape htail)
        rw [List.length_append, List.length_cons]
        omega
    | control hb => exact absurd h (readTextFrom_control hb)
    | @plain c tail hletter hplain htail =>
      refine hstep hletter ?_ rfl htail
      rw [List.length_append, String.length_utf8EncodeChar]
      have := c.utf8Size_pos
      omega

theorem spells_of_readText {s rest : Input} {text : String} (hs : IsText s)
    (h : readText s = .ok (text, rest)) :
    ∃ bytes, Spells text bytes ∧ s = bytes ++ quote :: rest := by
  obtain ⟨chars, bytes, hletters, hbytes, htext⟩ := spells_of_readTextFrom hs "" h
  refine ⟨bytes, ?_, hbytes⟩
  rw [Spells, htext, String.empty_append, String.toList_ofList]
  exact hletters

/-- What is read as a string can be passed over. -/
theorem skipText_of_readText {s rest : Input} {text : String} (hs : IsText s)
    (h : readText s = .ok (text, rest)) : skipText s = .ok rest := by
  obtain ⟨bytes, hspells, rfl⟩ := spells_of_readText hs h
  exact skipText_of_letters hspells rest

end Json

end ControlPlane
