import ControlPlane.Proofs.Json.Scaling
import ControlPlane.Proofs.Json.ValueSkip

/-!
# Which numbers are out of range

A number is read unless the double that it stands for is too large (`readNumber_of_parts`). Whether it
is can be told from its parts: the digits before and behind the point are gathered, and scaled by the
power of ten that the exponent adds (`Significand.Exceeds`). No number below `10 ^ 307` is out of range
(`not_outOfRange`).
-/

namespace ControlPlane

namespace Json

open Ascii

/-! ## Parts of a number -/

/-- The number that is written with digits. -/
def decimal (digits : List UInt8) : Nat := digits.foldl (fun n b => n * 10 + digitValue b) 0

/-- The power of ten that an exponent stands for. -/
inductive IsPower : Int → List UInt8 → Prop
  /-- There is no exponent. -/
  | none : IsPower 0 []
  /-- The exponent may have a plus sign. -/
  | up {mark : UInt8} {sign s : List UInt8} (hmark : mark ∈ ([0x65, 0x45] : List UInt8))
    (hsign : sign ∈ ([[], [plus]] : List (List UInt8))) (h : IsDigits s) :
    IsPower (decimal s) (mark :: (sign ++ s))
  /-- The exponent has a minus sign. -/
  | down {mark : UInt8} {s : List UInt8} (hmark : mark ∈ ([0x65, 0x45] : List UInt8))
    (h : IsDigits s) : IsPower (-decimal s) (mark :: ([minus] ++ s))

theorem exists_isPower {exponent : List UInt8} (h : IsExponent exponent) :
    ∃ power, IsPower power exponent := by
  cases h with
  | none => exact ⟨0, .none⟩
  | @digits mark sign s hmark hsign h =>
    simp only [List.mem_cons, List.not_mem_nil, or_false] at hsign
    rcases hsign with rfl | rfl | rfl
    · exact ⟨_, .up hmark (by simp) h⟩
    · exact ⟨_, .up hmark (by simp) h⟩
    · exact ⟨_, .down hmark h⟩

theorem IsPower.isExponent {power : Int} {exponent : List UInt8} (h : IsPower power exponent) :
    IsExponent exponent := by
  cases h with
  | none => exact .none
  | up hmark hsign h =>
    refine .digits hmark ?_ h
    simp only [List.mem_cons, List.not_mem_nil, or_false] at hsign ⊢
    rcases hsign with rfl | rfl
    · exact .inl rfl
    · exact .inr (.inl rfl)
  | down hmark h => exact .digits hmark (by simp) h

/-- The digits of a number before its exponent. The fraction is given with its point. -/
def gather (whole fraction : List UInt8) : Significand :=
  (fraction.drop 1).foldl Significand.addFraction
    { whole.foldl Significand.addWhole ⟨0, 0, false⟩ with full := false }

/-- Whether gathered digits are too large for a double once an exponent has been added. An exponent
beyond the limit is taken for an infinite one. -/
def Significand.Exceeds (s : Significand) (power : Int) : Prop :=
  if power.natAbs ≤ exponentLimit then scale s.value.toUInt64.toFloat (s.exponent + power) = .none
  else s.value ≠ 0 ∧ 0 < power

/-- The numbers without a sign that are too large for a double. -/
inductive OutOfRange : List UInt8 → Prop
  /-- This is told by the parts of a number. -/
  | parts {whole fraction exponent : List UInt8} {power : Int} (hwhole : IsWhole whole)
    (hfraction : IsFraction fraction) (hpower : IsPower power exponent)
    (h : (gather whole fraction).Exceeds power) : OutOfRange (whole ++ fraction ++ exponent)

/-! ## Scaling -/

theorem scale_eq_none_iff (x : Float) (e : Int) :
    scale x e = .none ↔ 0 ≤ e ∧
      if e ≤ 308 then (x * powerOfTen e.toNat).isInf = true else (x == 0) = false := by
  by_cases he : 0 ≤ e
  · rw [scale, if_pos he]
    split_ifs with hle <;> simp [*]
  · have hsome := scale_of_neg (Int.not_le.mp he) x
    constructor
    · intro hnone
      rw [hnone] at hsome
      cases hsome
    · exact fun h => absurd h.1 he

/-- Where an exponent is kept within 32 bits, this makes no difference for whether a number is too
large. -/
theorem scale_clampExponent (x : Float) (e : Int) :
    scale x (clampExponent e) = .none ↔ scale x e = .none := by
  rw [scale_eq_none_iff, scale_eq_none_iff]
  by_cases hle : 0 ≤ e ∧ e ≤ 308
  · have hsame : clampExponent e = e := by
      unfold clampExponent
      omega
    rw [hsame]
  · have hsign : 0 ≤ clampExponent e ↔ 0 ≤ e := by
      unfold clampExponent
      omega
    rw [hsign]
    refine and_congr_right fun he => ?_
    rw [if_neg (by unfold clampExponent; omega), if_neg (by omega)]

/-! ## Reading -/

/-- Whether a reader reads a number up to what follows it, unless the number is out of range. -/
inductive Ranged (exceeds : Prop) (rest : Input) : Except Fault (Number × Input) → Prop
  /-- The number is read. -/
  | read (n : Number) (h : ¬ exceeds) : Ranged exceeds rest (.ok (n, rest))
  /-- The number is out of range. -/
  | exceeds (left : Input) (h : exceeds) : Ranged exceeds rest (.error (.behind .numberOutOfRange left))

theorem ranged_finish (s : Significand) (negative : Bool) (rest : Input) :
    Ranged (scale s.value.toUInt64.toFloat s.exponent = .none) rest (s.finish negative rest) := by
  unfold Significand.finish Significand.toFraction
  have hclamp := scale_clampExponent s.value.toUInt64.toFloat s.exponent
  cases hscale : scale s.value.toUInt64.toFloat (clampExponent s.exponent) with
  | none => exact .exceeds rest (hclamp.mp hscale)
  | some x =>
    refine .read _ fun hnone => ?_
    rw [hclamp.mpr hnone] at hscale
    cases hscale

theorem ranged_finish_clamped (s : Significand) (power : Int) (negative : Bool) (rest : Input) :
    Ranged (scale s.value.toUInt64.toFloat (s.exponent + power) = .none) rest
      ({ s with exponent := clampExponent (s.exponent + power) }.finish negative rest) := by
  rw [← scale_clampExponent]
  exact ranged_finish { s with exponent := clampExponent (s.exponent + power) } negative rest

theorem le_foldl_digits (digits : List UInt8) (value : Nat) :
    value ≤ digits.foldl (fun n b => n * 10 + digitValue b) value := by
  induction digits generalizing value with
  | nil => exact Nat.le_refl _
  | cons b digits ih =>
    have hnext : value ≤ value * 10 + digitValue b := by omega
    exact Nat.le_trans hnext (ih _)

/-- The digits of an exponent are read to their end, or up to where they pass the limit. -/
theorem readExponentDigits_append {digits : List UInt8} (h : ∀ b ∈ digits, isDigit b)
    {rest : Input} (hrest : EndsDigits rest) (value : Nat) (hvalue : value ≤ exponentLimit) :
    let n := digits.foldl (fun n b => n * 10 + digitValue b) value
    (n ≤ exponentLimit ∧ readExponentDigits value (digits ++ rest) = .ok (n, rest)) ∨
      (exponentLimit < n ∧
        ∃ left, readExponentDigits value (digits ++ rest) = .error left ∧ behindDigits left = rest) := by
  induction digits generalizing value with
  | nil =>
    left
    refine ⟨hvalue, ?_⟩
    cases rest with
    | nil => rfl
    | cons b rest =>
      have hb : isDigit b = false := hrest b rfl
      exact if_neg (by rw [hb]; decide)
  | cons b digits ih =>
    have hb : isDigit b = true := h b List.mem_cons_self
    have hdigits : ∀ d ∈ digits, isDigit d := fun d hd => h d (List.mem_cons_of_mem b hd)
    intro n
    rw [List.cons_append, readExponentDigits, if_pos hb]
    dsimp only
    by_cases hmore : value * 10 + digitValue b > exponentLimit
    · right
      rw [if_pos hmore]
      exact ⟨Nat.lt_of_lt_of_le hmore (le_foldl_digits digits _), _, rfl,
        behindDigits_append hdigits hrest⟩
    · rw [if_neg hmore]
      exact ih hdigits _ (Nat.not_lt.mp hmore)

theorem digitValue_le {b : UInt8} (h : isDigit b = true) : digitValue b ≤ 9 := by
  have hle : b ≤ nine := by
    simp only [isDigit, Bool.and_eq_true, decide_eq_true_eq] at h
    exact h.2
  rw [UInt8.le_iff_toNat_le] at hle
  have hnine : nine.toNat = 0x39 := rfl
  unfold digitValue
  omega

/-- The digits of an exponent are read behind its sign. -/
theorem ranged_readExponent {digits text rest : List UInt8} {down : Bool} (h : IsDigits digits)
    (hsign : readExponentSign text = (down, digits ++ rest)) (hrest : EndsDigits rest)
    (s : Significand) (negative : Bool) :
    Ranged (s.Exceeds (if down then -decimal digits else decimal digits)) rest
      (readExponent s negative text) := by
  obtain ⟨hne, hdigits⟩ := h
  obtain ⟨b, tail, rfl⟩ := List.exists_cons_of_ne_nil hne
  have hb : isDigit b = true := hdigits b List.mem_cons_self
  have htail : ∀ d ∈ tail, isDigit d := fun d hd => hdigits d (List.mem_cons_of_mem b hd)
  have hdecimal : decimal (b :: tail) =
      tail.foldl (fun n b => n * 10 + digitValue b) (digitValue b) := by
    simp [decimal]
  have hread := readExponentDigits_append htail hrest (digitValue b) ((digitValue_le hb).trans (by decide))
  rw [← hdecimal] at hread
  generalize decimal (b :: tail) = n at hread
  unfold readExponent Significand.Exceeds
  rw [hsign, List.cons_append]
  dsimp only
  rw [if_pos hb]
  rcases hread with ⟨hle, hread⟩ | ⟨hgt, left, hread, hleft⟩
  · rw [hread, if_pos (by split <;> omega)]
    exact ranged_finish_clamped s _ negative rest
  · rw [hread, if_neg (by split <;> omega)]
    dsimp only
    have hup : (0 : Int) < (if down then -(n : Int) else n) ↔ (!down) = true := by
      cases down
      · simp only [Bool.not_false, iff_true]
        show (0 : Int) < n
        omega
      · simp only [Bool.not_true, Bool.false_eq_true, iff_false]
        show ¬ (0 : Int) < -n
        omega
    rw [hup, hleft]
    by_cases hlarge : s.value ≠ 0 ∧ (!down) = true
    · rw [if_pos hlarge]
      exact .exceeds left hlarge
    · rw [if_neg hlarge]
      exact .read _ hlarge

/-- The mark of an exponent is neither a digit nor a point. -/
theorem mark_of_mem {mark : UInt8} (h : mark ∈ ([0x65, 0x45] : List UInt8)) :
    isExponentMark mark = true ∧ isDigit mark = false ∧ mark ≠ dot := by
  simp only [List.mem_cons, List.not_mem_nil, or_false] at h
  rcases h with rfl | rfl <;> decide

/-- What a number goes on with behind its digits. -/
inductive Tail (power : Int) (rest : Input) : Input → Prop
  /-- Nothing that belongs to it. -/
  | none (hpower : power = 0) : Tail power rest rest
  /-- An exponent. -/
  | exponent {mark : UInt8} {text : Input} (hmark : mark ∈ ([0x65, 0x45] : List UInt8))
    (h : ∀ (s : Significand) (negative : Bool),
      Ranged (s.Exceeds power) rest (readExponent s negative text)) :
    Tail power rest (mark :: text)

theorem IsPower.tail {power : Int} {exponent : List UInt8} (h : IsPower power exponent) {rest : Input}
    (hrest : EndsDigits rest) : Tail power rest (exponent ++ rest) := by
  cases h with
  | none => exact .none rfl
  | @up mark sign digits hmark hsign h =>
    refine .exponent hmark fun s negative => ?_
    obtain ⟨hne, hdigits⟩ := h
    obtain ⟨b, tail, rfl⟩ := List.exists_cons_of_ne_nil hne
    have hb : isDigit b = true := hdigits b List.mem_cons_self
    have hread : readExponentSign (sign ++ (b :: tail) ++ rest) = (false, b :: tail ++ rest) := by
      simp only [List.mem_cons, List.not_mem_nil, or_false] at hsign
      rcases hsign with rfl | rfl
      · have hplus : b ≠ plus := by
          rintro rfl
          cases hb
        have hminus : b ≠ minus := by
          rintro rfl
          cases hb
        rw [List.nil_append, List.cons_append, readExponentSign, if_neg hplus, if_neg hminus]
      · rfl
    exact ranged_readExponent ⟨hne, hdigits⟩ hread hrest s negative
  | @down mark digits hmark h =>
    refine .exponent hmark fun s negative => ?_
    have hread : readExponentSign ([minus] ++ digits ++ rest) = (true, digits ++ rest) := rfl
    exact ranged_readExponent h hread hrest s negative

theorem Tail.endsDigits {power : Int} {rest text : Input} (h : Tail power rest text)
    (hrest : EndsNumber rest) : EndsDigits text := by
  cases h with
  | none => exact fun b hb => (hrest b hb).1
  | exponent hmark =>
    intro b hb
    obtain rfl := Option.some.inj hb
    exact (mark_of_mem hmark).2.1

theorem exceeds_zero (s : Significand) :
    s.Exceeds 0 ↔ scale s.value.toUInt64.toFloat s.exponent = .none := by
  unfold Significand.Exceeds
  rw [if_pos (by decide), Int.add_zero]

theorem ranged_readOptionalExponent {power : Int} {rest text : Input} (h : Tail power rest text)
    (hrest : EndsNumber rest) (s : Significand) (negative : Bool) :
    Ranged (s.Exceeds power) rest (readOptionalExponent s negative text) := by
  cases h with
  | none hpower =>
    subst hpower
    rw [exceeds_zero]
    unfold readOptionalExponent
    split
    · next b tail =>
      have hb : isExponentMark b = false := (hrest b rfl).2.2
      rw [if_neg (by rw [hb]; decide)]
      exact ranged_finish s negative _
    · exact ranged_finish s negative _
  | exponent hmark h =>
    rw [readOptionalExponent, if_pos (mark_of_mem hmark).1]
    exact h s negative

/-! ## Digits that are gathered -/

/-- What holds of digits that are gathered, of which `count` stand before the point. -/
structure Significand.Within (count : Nat) (s : Significand) : Prop where
  /-- Each digit before the point is worth a power of ten at most. -/
  exponent : s.exponent ≤ count
  /-- The digits together stay below the power of ten of their number. -/
  below : s.value < 10 ^ (count - s.exponent).toNat
  /-- They fit into 64 bits. -/
  fits : s.value ≤ significandLimit

namespace Significand.Within

variable {count : Nat} {s : Significand} {b : UInt8}

theorem next_lt {value k : Nat} (h : value < 10 ^ k) (hb : isDigit b = true) :
    value * 10 + digitValue b < 10 ^ (k + 1) := by
  have hle := digitValue_le hb
  rw [Nat.pow_succ]
  omega

theorem addWhole (h : s.Within count) (hb : isDigit b = true) : (s.addWhole b).Within (count + 1) := by
  obtain ⟨hexponent, hbelow, hfits⟩ := h
  unfold Significand.addWhole
  dsimp only
  split_ifs with hfull
  · refine ⟨?_, ?_, hfits⟩
    · dsimp only
      omega
    · have hsame : (((count + 1 : Nat) : Int) - (s.exponent + 1)).toNat = (count - s.exponent).toNat := by
        omega
      dsimp only
      rwa [hsame]
  · refine ⟨?_, ?_, Nat.not_lt.mp fun hgt => hfull (.inr hgt)⟩
    · dsimp only
      omega
    · have hmore : (((count + 1 : Nat) : Int) - s.exponent).toNat = (count - s.exponent).toNat + 1 := by
        omega
      dsimp only
      rw [hmore]
      exact next_lt hbelow hb

theorem addFraction (h : s.Within count) (hb : isDigit b = true) : (s.addFraction b).Within count := by
  obtain ⟨hexponent, hbelow, hfits⟩ := h
  unfold Significand.addFraction
  dsimp only
  split_ifs with hfull
  · exact ⟨hexponent, hbelow, hfits⟩
  · refine ⟨?_, ?_, Nat.not_lt.mp fun hgt => hfull (.inr hgt)⟩
    · dsimp only
      omega
    · have hmore : (count - (s.exponent - 1)).toNat = (count - s.exponent).toNat + 1 := by
        omega
      dsimp only
      rw [hmore]
      exact next_lt hbelow hb

end Significand.Within

theorem within_whole {digits : List UInt8} (h : ∀ b ∈ digits, isDigit b) {count : Nat}
    {s : Significand} (hs : s.Within count) :
    (digits.foldl Significand.addWhole s).Within (count + digits.length) := by
  induction digits generalizing count s with
  | nil => exact hs
  | cons b digits ih =>
    have hnext := ih (fun d hd => h d (List.mem_cons_of_mem b hd)) (hs.addWhole (h b List.mem_cons_self))
    rwa [Nat.add_assoc, Nat.add_comm 1] at hnext

theorem within_fraction {digits : List UInt8} (h : ∀ b ∈ digits, isDigit b) {count : Nat}
    {s : Significand} (hs : s.Within count) :
    (digits.foldl Significand.addFraction s).Within count := by
  induction digits generalizing s with
  | nil => exact hs
  | cons b digits ih =>
    exact ih (fun d hd => h d (List.mem_cons_of_mem b hd)) (hs.addFraction (h b List.mem_cons_self))

theorem isDigit_of_isWhole {whole : List UInt8} (h : IsWhole whole) : ∀ b ∈ whole, isDigit b := by
  cases h with
  | zero =>
    intro d hd
    obtain rfl := List.mem_singleton.mp hd
    rfl
  | digits hb _ hs =>
    intro d hd
    rcases List.mem_cons.mp hd with rfl | hd
    · exact hb
    · exact hs d hd

theorem within_of_isWhole {whole : List UInt8} (h : IsWhole whole) :
    (whole.foldl Significand.addWhole ⟨0, 0, false⟩).Within whole.length := by
  have hnone : Significand.Within 0 ⟨0, 0, false⟩ := ⟨Int.le_refl 0, by decide, by decide⟩
  simpa using within_whole (isDigit_of_isWhole h) hnone

theorem isDigit_of_isFraction {fraction : List UInt8} (h : IsFraction fraction) :
    ∀ b ∈ fraction.drop 1, isDigit b := by
  cases h with
  | none => exact nofun
  | digits h => exact h.2

theorem within_gather {whole fraction : List UInt8} (hwhole : IsWhole whole)
    (hfraction : IsFraction fraction) : (gather whole fraction).Within whole.length := by
  obtain ⟨hexponent, hbelow, hfits⟩ := within_of_isWhole hwhole
  exact within_fraction (isDigit_of_isFraction hfraction) ⟨hexponent, hbelow, hfits⟩

/-- As long as no digit is left out there is no power of ten to be added. -/
theorem exponent_of_not_full {digits : List UInt8} {s : Significand}
    (hs : s.full = false → s.exponent = 0) (h : (digits.foldl Significand.addWhole s).full = false) :
    (digits.foldl Significand.addWhole s).exponent = 0 := by
  induction digits generalizing s with
  | nil => exact hs h
  | cons b digits ih =>
    refine ih (fun hnot => ?_) h
    unfold Significand.addWhole at hnot ⊢
    dsimp only at hnot ⊢
    split_ifs at hnot ⊢
    exact hs hnot

theorem scale_ne_none {value k : Nat} {e : Int} (he : e ≤ 308) (h : value * 10 ^ e.toNat < 2 ^ k)
    (hk : k ≤ 1020) : scale value.toUInt64.toFloat e ≠ .none := by
  have hsome : (scale value.toUInt64.toFloat e).isSome = true := by
    by_cases hneg : e < 0
    · exact scale_of_neg hneg _
    · have hle : value.toUInt64.toNat ≤ value := Nat.mod_le _ _
      have hmul := Nat.lt_of_le_of_lt (Nat.mul_le_mul_right (10 ^ e.toNat) hle) h
      have hscale := scale_isSome (by omega) hmul hk
      rwa [Int.toNat_of_nonneg (by omega)] at hscale
  intro hnone
  rw [hnone] at hsome
  cases hsome

/-- A number that is gathered whole is not too large. -/
theorem ranged_whole {whole : List UInt8} (h : IsWhole whole) (negative : Bool) (rest : Input) :
    let gathered := whole.foldl Significand.addWhole ⟨0, 0, false⟩
    Ranged ((gather whole []).Exceeds 0) rest
      (if gathered.full then gathered.finish negative rest
        else .ok (Number.ofWhole negative gathered.value, rest)) := by
  intro gathered
  have hwithin : gathered.Within whole.length := within_of_isWhole h
  have hexceeds : (gather whole []).Exceeds 0 ↔
      scale gathered.value.toUInt64.toFloat gathered.exponent = .none := exceeds_zero _
  rw [hexceeds]
  split_ifs with hfull
  · exact ranged_finish gathered negative rest
  · have hexponent : gathered.exponent = 0 :=
      exponent_of_not_full (fun _ => rfl) (Bool.eq_false_iff.mpr hfull)
    have hvalue : gathered.value * 10 ^ gathered.exponent.toNat < 2 ^ 64 := by
      rw [hexponent, Int.toNat_zero, Nat.pow_zero, Nat.mul_one]
      exact Nat.lt_of_le_of_lt hwithin.fits (by decide)
    exact .read _ (scale_ne_none (by omega) hvalue (by decide))

/-- A number is read unless it is out of range, whatever its sign. -/
theorem ranged_readNumber {whole fraction exponent rest : List UInt8} {power : Int}
    (hwhole : IsWhole whole) (hfraction : IsFraction fraction) (hpower : IsPower power exponent)
    (hrest : EndsNumber rest) (negative : Bool) :
    Ranged ((gather whole fraction).Exceeds power) rest
      (readNumber negative (whole ++ fraction ++ exponent ++ rest)) := by
  have htail := hpower.tail fun b hb => (hrest b hb).1
  have hends := htail.endsDigits hrest
  rw [List.append_assoc]
  generalize exponent ++ rest = text at htail hends ⊢
  cases hfraction with
  | none =>
    rw [List.append_nil]
    unfold readNumber
    rw [readWhole_of_isWhole hwhole hends]
    simp only [bind, Except.bind]
    cases htail with
    | none hzero =>
      subst hzero
      cases rest with
      | nil => exact ranged_whole hwhole negative []
      | cons b rest =>
        obtain ⟨-, hdot, hmark⟩ := hrest b rfl
        dsimp only
        rw [if_neg hdot, if_neg (by rw [hmark]; decide)]
        exact ranged_whole hwhole negative (b :: rest)
    | exponent hmark h =>
      obtain ⟨hexponent, -, hdot⟩ := mark_of_mem hmark
      dsimp only
      rw [if_neg hdot, if_pos hexponent]
      exact h _ negative
  | @digits part hpart =>
    obtain ⟨hne, hdigits⟩ := hpart
    have hpoint : EndsDigits (dot :: part ++ text) := by
      intro b hb
      cases hb
      rfl
    have hread : readFractionDigits (part ++ text) = .ok (part, text) := by
      obtain ⟨d, part, rfl⟩ := List.exists_cons_of_ne_nil hne
      unfold readFractionDigits
      rw [leadingDigits_append hdigits hends, behindDigits_append hdigits hends]
    unfold readNumber
    rw [List.append_assoc, readWhole_of_isWhole hwhole hpoint]
    simp only [bind, Except.bind, List.cons_append, if_true, hread]
    exact ranged_readOptionalExponent htail hrest _ negative

/-! ## Numbers that are in range -/

theorem not_exceeds_of_le {whole fraction : List UInt8} (hwhole : IsWhole whole)
    (hfraction : IsFraction fraction) {power : Int} (h : whole.length + power ≤ 307) :
    ¬ (gather whole fraction).Exceeds power := by
  obtain ⟨hexponent, hbelow, hfits⟩ := within_gather hwhole hfraction
  generalize gather whole fraction = s at hexponent hbelow hfits
  unfold Significand.Exceeds
  split_ifs with hlimit
  · by_cases hneg : s.exponent + power < 0
    · refine scale_ne_none (by omega) ?_ (Nat.le_refl 1020)
      rw [Int.toNat_of_nonpos hneg.le, Nat.pow_zero, Nat.mul_one]
      exact Nat.lt_of_le_of_lt hfits (by decide +kernel)
    · refine scale_ne_none (by omega) ?_ (Nat.le_refl 1020)
      calc s.value * 10 ^ (s.exponent + power).toNat
          < 10 ^ (whole.length - s.exponent).toNat * 10 ^ (s.exponent + power).toNat :=
            Nat.mul_lt_mul_of_pos_right hbelow (Nat.pow_pos (by decide))
        _ = 10 ^ (whole.length + power).toNat := by
            rw [← Nat.pow_add]
            congr 1
            omega
        _ ≤ 10 ^ 307 := Nat.pow_le_pow_right (by decide) (by omega)
        _ < 2 ^ 1020 := by decide +kernel
  · have hmost : 307 < exponentLimit := by decide
    omega

/-- Whether a number is out of range does not depend on how it is taken apart. -/
theorem outOfRange_iff {whole fraction exponent : List UInt8} {power : Int} (hwhole : IsWhole whole)
    (hfraction : IsFraction fraction) (hpower : IsPower power exponent) :
    OutOfRange (whole ++ fraction ++ exponent) ↔ (gather whole fraction).Exceeds power := by
  refine ⟨fun hout => ?_, .parts hwhole hfraction hpower⟩
  have hends : EndsNumber [] := nofun
  have hranged := ranged_readNumber hwhole hfraction hpower hends false
  generalize whole ++ fraction ++ exponent = bytes at hout hranged
  cases hout with
  | parts hwhole' hfraction' hpower' hexceeds =>
    have hranged' := ranged_readNumber hwhole' hfraction' hpower' hends false
    generalize readNumber false _ = r at hranged hranged'
    cases hranged with
    | exceeds _ hexceeds' => exact hexceeds'
    | read =>
      cases hranged' with
      | read _ hnot => exact absurd hexceeds hnot

/-- A number with at most 307 digits before its point, once that is moved by the exponent, is in range. -/
theorem not_outOfRange {whole fraction exponent : List UInt8} {power : Int} (hwhole : IsWhole whole)
    (hfraction : IsFraction fraction) (hpower : IsPower power exponent)
    (h : whole.length + power ≤ 307) : ¬ OutOfRange (whole ++ fraction ++ exponent) := by
  rw [outOfRange_iff hwhole hfraction hpower]
  exact not_exceeds_of_le hwhole hfraction h

/-- A number is read unless it is out of range. -/
theorem ranged_of_isUnsigned {bytes rest : List UInt8} (h : IsUnsigned bytes) (hrest : EndsNumber rest)
    (negative : Bool) : Ranged (OutOfRange bytes) rest (readNumber negative (bytes ++ rest)) := by
  cases h with
  | parts hwhole hfraction hexponent =>
    obtain ⟨power, hpower⟩ := exists_isPower hexponent
    rw [outOfRange_iff hwhole hfraction hpower]
    exact ranged_readNumber hwhole hfraction hpower hrest negative

theorem OutOfRange.isUnsigned {bytes : List UInt8} (h : OutOfRange bytes) : IsUnsigned bytes := by
  cases h with
  | parts hwhole hfraction hpower => exact .parts hwhole hfraction hpower.isExponent

end Json

end ControlPlane
