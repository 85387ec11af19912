import ControlPlane.Decimal.Shortest
import ControlPlane.Json.Text

/-!
# Numbers of JSON

A number without fraction and exponent stays whole as long as it fits into 64 bits, unsigned or, when
negative, signed. Every other number is a double, and it is computed in stages: the digits are
gathered into a 64-bit significand; once a further digit would not fit, digits before the point only
raise the exponent and digits behind it are dropped; then the significand is scaled by a power of ten.
The stages are part of the meaning of a number, since each of them rounds.

`skipNumber` checks the same grammar without computing anything.
-/

namespace ControlPlane

namespace Json

open Ascii

/-- The value of a number. -/
inductive Number where
  /-- A whole number of 64 bits. -/
  | whole (value : Int)
  /-- A double. -/
  | fraction (value : Float)
deriving DecidableEq, Repr

/-! ## Printing -/

/-- How doubles are laid out: positional for these powers of ten of the first digit. -/
structure Layout where
  /-- The least power of ten that is written positionally. -/
  leastPositional : Int
  /-- The greatest power of ten that is written positionally. -/
  greatestPositional : Int
deriving DecidableEq, Repr

/-- Doubles from `0.00001` to below `1e+16` are written positionally. -/
def Number.layout : Layout := ⟨-5, 15⟩

/-- Digits with a decimal point behind the digit of power `order`; at least one digit stands on
either side. -/
def positional (digits : List Char) (order : Int) : String :=
  if order < 0 then
    String.ofList ('0' :: '.' :: List.replicate (-order - 1).toNat '0' ++ digits)
  else
    let whole := order.toNat + 1
    let padded := digits ++ List.replicate (whole - digits.length) '0'
    let part := padded.drop whole
    String.ofList (padded.take whole ++ '.' :: (if part = [] then ['0'] else part))

/-- Digits with a power of ten, whose sign is always shown. -/
def exponential (digits : List Char) (order : Int) : String :=
  let head := String.ofList (digits.take 1)
  let tail := digits.drop 1
  let point := if tail = [] then "" else "." ++ String.ofList tail
  let sign := if order < 0 then "-" else "+"
  s!"{head}{point}e{sign}{order.natAbs}"

/-- A double in its shortest form. -/
def printFraction (x : Float) : String :=
  let bits := x.toBits
  let sign := if bits ≥ 0x8000000000000000 then "-" else ""
  let binary := Decimal.Binary.ofBits bits
  if binary.mantissa = 0 then sign ++ "0.0"
  else
    let shortest := binary.shortest
    let digits := Decimal.significantDigits shortest.digits
    let order := shortest.exponent
    if Number.layout.leastPositional ≤ order ∧ order ≤ Number.layout.greatestPositional then
      sign ++ positional digits order
    else sign ++ exponential digits order

/-- A number in JSON. -/
def Number.print : Number → String
  | .whole value => toString value
  | .fraction value => printFraction value

/-- What a number is, for a message. -/
def Number.found : Number → Found
  | .whole value => .whole value
  | .fraction value => .fraction (printFraction value)

/-! ## Scaling -/

/-- The greatest value of the significand. -/
def significandLimit : Nat := 0xFFFFFFFFFFFFFFFF

/-- The greatest written exponent. -/
def exponentLimit : Nat := 0x7FFFFFFF

/-- The digits of a number, gathered: `value * 10 ^ exponent`. -/
structure Significand where
  /-- The digits that fit. -/
  value : Nat
  /-- The power of ten by which they are to be scaled. -/
  exponent : Int
  /-- Whether a digit has been left out. -/
  full : Bool
deriving DecidableEq, Repr

/-- Gathers a digit before the decimal point. -/
def Significand.addWhole (s : Significand) (b : UInt8) : Significand :=
  let value := s.value * 10 + digitValue b
  if s.full ∨ value > significandLimit then { s with exponent := s.exponent + 1, full := true }
  else { s with value := value }

/-- Gathers a digit behind the decimal point. -/
def Significand.addFraction (s : Significand) (b : UInt8) : Significand :=
  let value := s.value * 10 + digitValue b
  if s.full ∨ value > significandLimit then { s with full := true }
  else { s with value := value, exponent := s.exponent - 1 }

/-- A power of ten as a double. -/
def powerOfTen (n : Nat) : Float := Float.ofScientific (Nat.pow 10 n) false 0

/-- Scales a double by a power of ten, in steps that a double can hold. There is no result when the
number is too large. -/
def scale (x : Float) (e : Int) : Option Float :=
  if 0 ≤ e then
    if e ≤ 308 then
      let y := x * powerOfTen e.toNat
      if y.isInf then none else some y
    else if x == 0 then some x
    else none
  else if -308 ≤ e then some (x / powerOfTen (-e).toNat)
  else if x == 0 then some x
  else scale (x / powerOfTen 308) (e + 308)
termination_by (-e).toNat
decreasing_by omega

/-- Keeps an exponent within 32 bits. -/
def clampExponent (e : Int) : Int := max (-0x80000000) (min 0x7FFFFFFF e)

/-- The double of gathered digits. -/
def Significand.toFraction (s : Significand) (negative : Bool) : Option Float :=
  (scale s.value.toUInt64.toFloat (clampExponent s.exponent)).map fun x => if negative then -x else x

/-- A number without fraction and exponent. -/
def Number.ofWhole (negative : Bool) (value : Nat) : Number :=
  if !negative then .whole value
  else if value = 0 ∨ 0x8000000000000000 < value then .fraction (-value.toUInt64.toFloat)
  else .whole (-value)

/-! ## Reading -/

/-- The digits that start a text. -/
def leadingDigits (s : Input) : List UInt8 := s.takeWhile isDigit

/-- The text behind its leading digits. -/
def behindDigits (s : Input) : Input := s.dropWhile isDigit

theorem behindDigits_length_le (s : Input) : (behindDigits s).length ≤ s.length :=
  (List.dropWhile_sublist isDigit).length_le

/-- The exponent letter. -/
def isExponentMark (b : UInt8) : Bool := b = 0x65 || b = 0x45

/-- Reads the digits before the point. There is at least one, and only the number zero starts with
a zero. -/
def readWhole (s : Input) : Except Fault (List UInt8 × Input) :=
  match s with
  | [] => .error (.behind .endInValue [])
  | b :: rest =>
    if b = zero then
      match rest with
      | d :: _ => if isDigit d then .error (.facing .badNumber rest) else .ok ([zero], rest)
      | [] => .ok ([zero], [])
    else if isDigit b then .ok (b :: leadingDigits rest, behindDigits rest)
    else .error (.behind .badNumber rest)

theorem readWhole_length_lt {s rest : Input} {digits : List UInt8}
    (h : readWhole s = .ok (digits, rest)) : rest.length < s.length := by
  unfold readWhole at h
  split at h
  · cases h
  · split at h
    · split at h
      · split at h
        · cases h
        · cases h; simp
      · cases h; simp
    · split at h
      · cases h
        simp only [List.length_cons]
        exact Nat.lt_succ_of_le (behindDigits_length_le _)
      · cases h

/-- Reads the digits behind the point. There is at least one. -/
def readFractionDigits (s : Input) : Except Fault (List UInt8 × Input) :=
  match leadingDigits s with
  | [] => .error (.facing (if s.isEmpty then .endInValue else .badNumber) s)
  | digits => .ok (digits, behindDigits s)

/-- The rest of the digits of an exponent. An exponent above the limit is told by the text behind
the digit at which it passes the limit. -/
def readExponentDigits (value : Nat) : Input → Except Input (Nat × Input)
  | [] => .ok (value, [])
  | b :: rest =>
    if isDigit b then
      let value := value * 10 + digitValue b
      if value > exponentLimit then .error rest else readExponentDigits value rest
    else .ok (value, b :: rest)

/-- Reads the sign of an exponent: whether it is negative, and the text behind it. -/
def readExponentSign : Input → Bool × Input
  | b :: rest => if b = plus then (false, rest) else if b = minus then (true, rest) else (false, b :: rest)
  | [] => (false, [])

/-- Scales gathered digits, or faults at `rest`. -/
def Significand.finish (s : Significand) (negative : Bool) (rest : Input) :
    Except Fault (Number × Input) :=
  match s.toFraction negative with
  | some x => .ok (.fraction x, rest)
  | none => .error (.behind .numberOutOfRange rest)

/-- Reads an exponent behind its letter. -/
def readExponent (s : Significand) (negative : Bool) (text : Input) :
    Except Fault (Number × Input) :=
  let (down, text) := readExponentSign text
  match text with
  | [] => .error (.behind .endInValue [])
  | b :: rest =>
    if isDigit b then
      match readExponentDigits (digitValue b) rest with
      | .ok (e, rest) =>
        { s with exponent := clampExponent (s.exponent + (if down then -(e : Int) else e)) }.finish
          negative rest
      | .error rest =>
        if s.value ≠ 0 ∧ !down then .error (.behind .numberOutOfRange rest)
        else .ok (.fraction (if negative then -0.0 else 0.0), behindDigits rest)
    else .error (.behind .badNumber rest)

/-- Reads what may follow the digits: an exponent, or nothing. -/
def readOptionalExponent (s : Significand) (negative : Bool) (text : Input) :
    Except Fault (Number × Input) :=
  match text with
  | b :: rest => if isExponentMark b then readExponent s negative rest else s.finish negative text
  | [] => s.finish negative []

/-- Reads a number; a minus sign has been consumed when it is negative. -/
def readNumber (negative : Bool) (s : Input) : Except Fault (Number × Input) := do
  let (digits, rest) ← readWhole s
  let gathered := digits.foldl Significand.addWhole ⟨0, 0, false⟩
  match rest with
  | b :: tail =>
    if b = dot then do
      let (part, tail) ← readFractionDigits tail
      readOptionalExponent (part.foldl Significand.addFraction { gathered with full := false })
        negative tail
    else if isExponentMark b then readExponent gathered negative tail
    else if gathered.full then gathered.finish negative rest
    else .ok (Number.ofWhole negative gathered.value, rest)
  | [] =>
    if gathered.full then gathered.finish negative []
    else .ok (Number.ofWhole negative gathered.value, [])

/-! ## Progress -/

theorem readFractionDigits_length_le {s rest : Input} {digits : List UInt8}
    (h : readFractionDigits s = .ok (digits, rest)) : rest.length ≤ s.length := by
  unfold readFractionDigits at h
  split at h
  · cases h
  · cases h
    exact behindDigits_length_le s

theorem readExponentDigits_length_le {value : Nat} {s : Input} :
    (∀ r, readExponentDigits value s = .ok r → r.2.length ≤ s.length) ∧
      ∀ rest, readExponentDigits value s = .error rest → rest.length ≤ s.length := by
  fun_induction readExponentDigits value s with
  | case1 => exact ⟨fun r h => (by cases h; simp), fun rest h => (by cases h)⟩
  | case2 => exact ⟨fun r h => (by cases h), fun rest h => (by cases h; simp)⟩
  | case3 value b rest _ value' _ ih =>
    exact ⟨fun r h => Nat.le_succ_of_le (ih.1 r h), fun r h => Nat.le_succ_of_le (ih.2 r h)⟩
  | case4 => exact ⟨fun r h => (by cases h; simp), fun rest h => (by cases h)⟩

theorem readExponentSign_length_le (s : Input) : (readExponentSign s).2.length ≤ s.length := by
  unfold readExponentSign
  split
  · split
    · simp
    · split <;> simp
  · simp

theorem Significand.finish_rest {s : Significand} {negative : Bool} {rest tail : Input} {n : Number}
    (h : s.finish negative rest = .ok (n, tail)) : tail = rest := by
  unfold Significand.finish at h
  split at h <;> cases h
  rfl

theorem readExponent_length_le {s : Significand} {negative : Bool} {text rest : Input} {n : Number}
    (h : readExponent s negative text = .ok (n, rest)) : rest.length ≤ text.length := by
  have hsign := readExponentSign_length_le text
  unfold readExponent at h
  simp only at h
  split at h
  · cases h
  · next b tail hs =>
    rw [hs] at hsign
    simp only [List.length_cons] at hsign
    split at h
    · split at h
      · next e tail' he =>
        have := readExponentDigits_length_le.1 _ he
        have := Significand.finish_rest h
        subst this
        simp only at *
        omega
      · next tail' he =>
        have := readExponentDigits_length_le.2 _ he
        split at h
        · cases h
        · cases h
          have := behindDigits_length_le tail'
          omega
    · cases h

theorem readOptionalExponent_length_le {s : Significand} {negative : Bool} {text rest : Input}
    {n : Number} (h : readOptionalExponent s negative text = .ok (n, rest)) :
    rest.length ≤ text.length := by
  unfold readOptionalExponent at h
  split at h
  · split at h
    · exact Nat.le_succ_of_le (readExponent_length_le h)
    · exact Nat.le_of_eq (congrArg List.length (Significand.finish_rest h))
  · exact Nat.le_of_eq (congrArg List.length (Significand.finish_rest h))

theorem readNumber_length_lt {negative : Bool} {s rest : Input} {n : Number}
    (h : readNumber negative s = .ok (n, rest)) : rest.length < s.length := by
  unfold readNumber at h
  cases hw : readWhole s with
  | error f => rw [hw] at h; cases h
  | ok r =>
    have hlt := readWhole_length_lt hw
    rw [hw] at h
    simp only [bind, Except.bind] at h
    split at h
    · next b tail hr =>
      rw [hr] at hlt
      simp only [List.length_cons] at hlt
      split at h
      · split at h
        · cases h
        · next hf =>
          have := readFractionDigits_length_le hf
          have := readOptionalExponent_length_le h
          omega
      · split at h
        · have := readExponent_length_le h
          omega
        · split at h
          · rw [Significand.finish_rest h, hr]
            exact hlt
          · cases h
            rw [hr]
            exact hlt
    · next hr =>
      rw [hr] at hlt
      split at h
      · rw [Significand.finish_rest h]
        exact hlt
      · cases h
        exact hlt

/-! ## Skipping -/

/-- Passes over an exponent behind its letter. -/
def skipExponent (s : Input) : Except Fault Input :=
  match (readExponentSign s).2 with
  | [] => .error (.behind .badNumber [])
  | b :: rest => if isDigit b then .ok (behindDigits rest) else .error (.behind .badNumber rest)

/-- Passes over what may follow the digits. -/
def skipOptionalExponent (s : Input) : Except Fault Input :=
  match s with
  | b :: rest => if isExponentMark b then skipExponent rest else .ok s
  | [] => .ok []

/-- Passes over a fraction behind its point. -/
def skipFraction (s : Input) : Except Fault Input :=
  match leadingDigits s with
  | [] => .error (.facing .badNumber s)
  | _ => skipOptionalExponent (behindDigits s)

/-- Passes over a number; a minus sign has been consumed. -/
def skipNumber (s : Input) : Except Fault Input :=
  match s with
  | [] => .error (.behind .badNumber [])
  | _ =>
    match readWhole s with
    | .error f => .error f
    | .ok (_, rest) =>
      match rest with
      | b :: tail =>
        if b = dot then skipFraction tail
        else if isExponentMark b then skipExponent tail
        else .ok rest
      | [] => .ok []

theorem skipExponent_length_le {s rest : Input} (h : skipExponent s = .ok rest) :
    rest.length ≤ s.length := by
  have hsign := readExponentSign_length_le s
  unfold skipExponent at h
  split at h
  · cases h
  · next b tail hs =>
    rw [hs] at hsign
    simp only [List.length_cons] at hsign
    split at h
    · cases h
      have := behindDigits_length_le tail
      omega
    · cases h

theorem skipFraction_length_le {s rest : Input} (h : skipFraction s = .ok rest) :
    rest.length ≤ s.length := by
  have hle := behindDigits_length_le s
  unfold skipFraction at h
  split at h
  · cases h
  · unfold skipOptionalExponent at h
    split at h
    · next b tail hs =>
      rw [hs] at hle
      simp only [List.length_cons] at hle
      split at h
      · have := skipExponent_length_le h
        omega
      · cases h
        rw [hs]
        exact hle
    · cases h
      simp

theorem skipNumber_length_lt {s rest : Input} (h : skipNumber s = .ok rest) :
    rest.length < s.length := by
  unfold skipNumber at h
  split at h
  · cases h
  · split at h
    · cases h
    · next hw =>
      have hlt := readWhole_length_lt hw
      split at h
      · simp only [List.length_cons] at hlt
        split at h
        · have := skipFraction_length_le h
          omega
        · split at h
          · have := skipExponent_length_le h
            omega
          · cases h
            exact hlt
      · cases h
        exact hlt

end Json

end ControlPlane
