/-!
# The shortest decimal that reads back

A double stands for every real number that rounds to it, and these form an interval around its exact
value. To print a double with the fewest digits is to find the coarsest decimal grid that has a point
in this interval, and on that grid the point nearest to the value. All of this is exact arithmetic on
natural numbers: a finite positive double is `m * 2 ^ q`, and its interval reaches halfway to its
neighbours, with the ends included exactly when `m` is even.

On each grid only the two points around the value need to be looked at: if any point of the grid
lies in the interval, so does one of these two.
-/

namespace ControlPlane

namespace Decimal

/-- A nonnegative fraction. -/
structure Fraction where
  /-- The numerator. -/
  num : Nat
  /-- The denominator. -/
  den : Nat
deriving DecidableEq, Repr

/-- The fraction `n * base ^ e`. -/
def Fraction.scaled (n base : Nat) (e : Int) : Fraction :=
  ⟨n * Nat.pow base e.toNat, Nat.pow base (-e).toNat⟩

/-- Whether one fraction is at most another. -/
def Fraction.le (a b : Fraction) : Bool := a.num * b.den ≤ b.num * a.den

/-- Whether one fraction is below another. -/
def Fraction.lt (a b : Fraction) : Bool := a.num * b.den < b.num * a.den

/-- The distance between two fractions. -/
def Fraction.distance (a b : Fraction) : Fraction :=
  ⟨(a.num * b.den - b.num * a.den) + (b.num * a.den - a.num * b.den), a.den * b.den⟩

/-- The weight of the leading bit of a double that has all its bits. -/
def leadingBit : Nat := 0x10000000000000

/-- A finite double without its sign: `mantissa * 2 ^ exponent`. -/
structure Binary where
  /-- The whole factor. -/
  mantissa : Nat
  /-- The power of two. -/
  exponent : Int
deriving DecidableEq, Repr

/-- The magnitude of a finite double, read off its bits. -/
def Binary.ofBits (bits : UInt64) : Binary :=
  let fraction : Nat := bits.toNat % leadingBit
  let biased : Nat := bits.toNat / leadingBit % 2048
  if biased = 0 then ⟨fraction, -1074⟩ else ⟨leadingBit + fraction, (biased : Int) - 1075⟩

/-- The exact value. -/
def Binary.value (b : Binary) : Fraction := .scaled (4 * b.mantissa) 2 (b.exponent - 2)

/-- The least real number of the interval that rounds to the double. Below a power of two the
neighbour is only half as far away. -/
def Binary.lower (b : Binary) : Fraction :=
  let gap : Nat := if b.mantissa = leadingBit ∧ b.exponent > -1074 then 1 else 2
  .scaled (4 * b.mantissa - gap) 2 (b.exponent - 2)

/-- The greatest real number of the interval that rounds to the double. -/
def Binary.upper (b : Binary) : Fraction := .scaled (4 * b.mantissa + 2) 2 (b.exponent - 2)

/-- Whether a fraction rounds to the double. -/
def Binary.contains (b : Binary) (x : Fraction) : Bool :=
  if b.mantissa % 2 = 0 then b.lower.le x && x.le b.upper else b.lower.lt x && x.lt b.upper

/-- Digits with the power of ten of the first one: `d.ddd * 10 ^ exponent`. -/
structure Scientific where
  /-- The digits as a number. -/
  digits : Nat
  /-- The power of ten of the first digit. -/
  exponent : Int
deriving DecidableEq, Repr

/-- The number of decimal digits. -/
def digitCount (n : Nat) : Nat := (Nat.toDigits 10 n).length

/-- The least number of tenfold steps, at most `fuel`, that lift a fraction to one or more. -/
def liftSteps (x : Fraction) : Nat → Nat
  | 0 => 0
  | fuel + 1 => if x.den ≤ x.num then 0 else liftSteps ⟨x.num * 10, x.den⟩ fuel + 1

/-- The power of ten of the first digit of a positive fraction. No double needs more than 324
steps. -/
def Fraction.order (x : Fraction) : Int :=
  if x.den ≤ x.num then (digitCount (x.num / x.den) : Int) - 1 else -(liftSteps x 400 : Int)

/-- The point of a grid nearest to the value, among those of the two around it that round to the
double; of two equally near ones the even. -/
def Binary.pick (b : Binary) (grid : Int) : Option Nat :=
  let value := b.value
  let unit := Fraction.scaled 1 10 grid
  let below := value.num * unit.den / (value.den * unit.num)
  let point (n : Nat) := Fraction.scaled n 10 grid
  match b.contains (point below), b.contains (point (below + 1)) with
  | true, true =>
    let down := (point below).distance value
    let up := (point (below + 1)).distance value
    if down.lt up then some below
    else if up.lt down then some (below + 1)
    else some (if below % 2 = 0 then below else below + 1)
  | true, false => some below
  | false, true => some (below + 1)
  | false, false => none

/-- Tries grids from `count` digits on, at most `fuel` of them. -/
def Binary.search (b : Binary) (order : Int) : (count fuel : Nat) → Scientific
  | _, 0 => ⟨0, 0⟩
  | count, fuel + 1 =>
    let grid := order + 1 - count
    match b.pick grid with
    | some n => ⟨n, grid + digitCount n - 1⟩
    | none => b.search order (count + 1) fuel

/-- The fewest digits that read back as the double, for a positive one. Seventeen always do. -/
def Binary.shortest (b : Binary) : Scientific := b.search b.value.order 1 17

/-- The digits of a number without the zeros at its end. -/
def significantDigits (n : Nat) : List Char :=
  match (Nat.toDigits 10 n).reverse.dropWhile (· = '0') with
  | [] => ['0']
  | digits => digits.reverse

end Decimal

end ControlPlane
