import ControlPlane.Net.Address
import ControlPlane.Text.Ascii

/-!
# Addresses as text

A version 4 address is written as four decimal numbers with dots. A version 6 address is written as
eight hexadecimal numbers with colons; one run of zeros may be left out between two colons, and the
last two numbers may be written as a version 4 address. A version 6 address stands in brackets where
a number follows it.

The readers take what they need off the front of a text and leave the rest, or take nothing.
-/

namespace ControlPlane

namespace Net

open Ascii

/-- A reader of the front of a text. -/
abbrev Reader (α : Type) := List UInt8 → Option (α × List UInt8)

/-! ## Numbers -/

/-- How a number is written. -/
structure NumberForm where
  /-- The base, ten or sixteen. -/
  base : Nat
  /-- The greatest number of digits, where there is one. -/
  maxDigits : Option Nat
  /-- Whether a longer number may begin with zero. -/
  leadingZeros : Bool
  /-- The bound below which the number lies. -/
  bound : Nat

/-- The value of a digit, if the base has it. -/
def NumberForm.digit? (form : NumberForm) (b : UInt8) : Option Nat :=
  (hexValue? b).filter (· < form.base)

/-- The digits at the front of a text. -/
def NumberForm.digits (form : NumberForm) : List UInt8 → List Nat × List UInt8
  | [] => ([], [])
  | b :: rest =>
    match form.digit? b with
    | none => ([], b :: rest)
    | some d => let (ds, rest) := form.digits rest; (d :: ds, rest)

/-- Reads a number: all digits that are there belong to it. -/
def NumberForm.read (form : NumberForm) : Reader Nat := fun s =>
  let (digits, rest) := form.digits s
  let value := digits.foldl (fun value d => value * form.base + d) 0
  if digits = [] then none
  else if form.maxDigits.any (· < digits.length) then none
  else if !form.leadingZeros && digits.head? = some 0 && 1 < digits.length then none
  else if form.bound ≤ value then none
  else some (value, rest)

/-- A number of a version 4 address. -/
def octetForm : NumberForm := ⟨10, some 3, false, 256⟩

/-- A number of a version 6 address. -/
def segmentForm : NumberForm := ⟨16, some 4, true, 65536⟩

/-- The number of a service. -/
def serviceForm : NumberForm := ⟨10, none, true, 65536⟩

/-- The number of a link. -/
def scopeForm : NumberForm := ⟨10, none, true, 0x100000000⟩

/-- Reads one byte that must be there. -/
def readSign (sign : UInt8) : Reader Unit
  | [] => none
  | b :: rest => if b = sign then some ((), rest) else none

/-- Reads an item behind a separator, which the first item does not have. -/
def readSeparated {α : Type} (separator : UInt8) (first : Bool) (item : Reader α) : Reader α :=
  fun s => do
    let s ← if first then some s else (readSign separator s).map Prod.snd
    item s

/-! ## Internet addresses -/

/-- Reads a version 4 address. -/
def readV4 : Reader (List Nat) := fun s => do
  let (a, s) ← octetForm.read s
  let (b, s) ← readSeparated dot false octetForm.read s
  let (c, s) ← readSeparated dot false octetForm.read s
  let (d, s) ← readSeparated dot false octetForm.read s
  some ([a, b, c, d], s)

/-- A version 4 address as two numbers of a version 6 address. -/
def pairUp : List Nat → List Nat
  | a :: b :: rest => (a * 256 + b) :: pairUp rest
  | _ => []

/-- Reads up to `limit` numbers of a version 6 address, the last two of which may be written as a
version 4 address; the result says whether they were. -/
def readSegments : (limit : Nat) → (first : Bool) → List UInt8 → List Nat × Bool × List UInt8
  | 0, _, s => ([], false, s)
  | limit + 1, first, s =>
    let embedded := if limit = 0 then none else readSeparated colon first readV4 s
    match embedded with
    | some (octets, rest) => (pairUp octets, true, rest)
    | none =>
      match readSeparated colon first segmentForm.read s with
      | none => ([], false, s)
      | some (n, rest) =>
        let (numbers, endsInV4, rest) := readSegments limit false rest
        (n :: numbers, endsInV4, rest)

/-- Reads a version 6 address. Where numbers are left out, at least one is. -/
def readV6 : Reader (List Nat) := fun s =>
  let (head, endsInV4, s) := readSegments 8 true s
  if head.length = 8 then some (head, s)
  else if endsInV4 then none
  else do
    let ((), s) ← readSign colon s
    let ((), s) ← readSign colon s
    let (tail, _, s) := readSegments (7 - head.length) true s
    some (head ++ List.replicate (8 - head.length - tail.length) 0 ++ tail, s)

/-- Reads an address of either version. -/
def readIp : Reader IpAddress := fun s =>
  match readV4 s with
  | some (octets, rest) => some (.v4 (IpAddress.ofOctets octets), rest)
  | none => (readV6 s).map fun (segments, rest) => (.v6 (IpAddress.ofSegments segments), rest)

/-! ## Addresses of connections -/

/-- Reads a link behind a percent sign; without one it is zero. -/
def readScope (s : List UInt8) : Nat × List UInt8 :=
  match (readSign percent s).bind fun ((), s) => scopeForm.read s with
  | some (scope, rest) => (scope, rest)
  | none => (0, s)

/-- Reads an address of a connection of version 4. -/
def readSocketV4 : Reader SocketAddress := fun s => do
  let (octets, s) ← readV4 s
  let (number, s) ← readSeparated colon false serviceForm.read s
  some (⟨.v4 (IpAddress.ofOctets octets), number, 0⟩, s)

/-- Reads an address of a connection of version 6. -/
def readSocketV6 : Reader SocketAddress := fun s => do
  let ((), s) ← readSign openBracket s
  let (segments, s) ← readV6 s
  let (scope, s) := readScope s
  let ((), s) ← readSign closeBracket s
  let (number, s) ← readSeparated colon false serviceForm.read s
  some (⟨.v6 (IpAddress.ofSegments segments), number, scope⟩, s)

/-! ## Whole texts -/

/-- Makes a reader of the front of a text one of the whole text. -/
def readWhole {α : Type} (reader : Reader α) (text : String) : Option α :=
  match reader text.toUTF8.data.toList with
  | some (value, []) => some value
  | _ => none

/-- The address that a text stands for. -/
def IpAddress.ofText? (text : String) : Option IpAddress := readWhole readIp text

/-- The address of a connection that a text stands for. -/
def SocketAddress.ofText? (text : String) : Option SocketAddress :=
  readWhole (fun s => readSocketV4 s <|> readSocketV6 s) text

/-! ## Printing -/

/-- A version 4 address as text. -/
def printV4 (octets : List Nat) : String := ".".intercalate (octets.map toString)

/-- Numbers of a version 6 address as text. -/
def printSegments (segments : List Nat) : String :=
  ":".intercalate (segments.map fun n => String.ofList (Nat.toDigits 16 n))

/-- The number of zeros at the front. -/
def leadingZeros (segments : List Nat) : Nat := (segments.takeWhile (· = 0)).length

/-- The first of the longest runs of zeros: how many numbers precede it and how many it has. -/
def longestZeros : List Nat → Nat × Nat
  | [] => (0, 0)
  | n :: rest =>
    let (start, length) := longestZeros rest
    if length ≤ leadingZeros (n :: rest) then (0, leadingZeros (n :: rest))
    else (start + 1, length)

/-- A version 6 address as text. The first of the longest runs of zeros is left out if it has more
than one zero. -/
def printV6 (segments : List Nat) : String :=
  let (start, length) := longestZeros segments
  if length ≤ 1 then printSegments segments
  else printSegments (segments.take start) ++ "::" ++ printSegments (segments.drop (start + length))

/-- An address as text. A mapped address shows the version 4 address it stands for. -/
def IpAddress.print : IpAddress → String
  | .v4 bits => printV4 (octets bits)
  | .v6 bits =>
    match canonical (.v6 bits) with
    | .v4 mapped => "::ffff:" ++ printV4 (octets mapped)
    | .v6 _ => printV6 (segments bits)

/-- The address of a connection as text. -/
def SocketAddress.print (address : SocketAddress) : String :=
  match address.ip with
  | .v4 _ => s!"{address.ip.print}:{address.tcpPort}"
  | .v6 _ =>
    let scope := if address.scope = 0 then "" else s!"%{address.scope}"
    s!"[{address.ip.print}{scope}]:{address.tcpPort}"

end Net

end ControlPlane
