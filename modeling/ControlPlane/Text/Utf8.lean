/-!
# UTF-8 text in byte sequences

Names, tokens and configuration values are text, but they arrive as bytes. This module reads bytes
as text (`Utf8.decode`) and, where that fails, says where the bytes stop being UTF-8 and how long
the offending sequence is (`Utf8.fault?`). Reading with replacement (`Utf8.decodeLossy`) never
fails: each maximal broken piece becomes one U+FFFD.

Both scans run over the bytes once. Between characters they expect a first byte; inside a character
they carry a `Pending`, which says how many bytes are still owed and in which range the next one
must lie, since the strict form of UTF-8 restricts the second byte after E0, ED, F0 and F4.
-/

namespace ControlPlane

namespace Utf8

/-- What a multi-byte character still lacks after the bytes read so far. -/
structure Pending where
  /-- The number of continuation bytes still owed. -/
  owed : Nat
  /-- The least value the next byte may have. -/
  low : UInt8
  /-- The greatest value the next byte may have. -/
  high : UInt8
  /-- The code point bits collected so far. -/
  code : Nat
deriving DecidableEq, Repr

/-- What is owed after the first byte of a multi-byte character, if the byte can be one. -/
def Pending.ofLead (b : UInt8) : Option Pending :=
  if 0xC2 ≤ b ∧ b ≤ 0xDF then some ⟨1, 0x80, 0xBF, b.toNat % 32⟩
  else if b = 0xE0 then some ⟨2, 0xA0, 0xBF, 0⟩
  else if b = 0xED then some ⟨2, 0x80, 0x9F, 13⟩
  else if 0xE1 ≤ b ∧ b ≤ 0xEF then some ⟨2, 0x80, 0xBF, b.toNat % 16⟩
  else if b = 0xF0 then some ⟨3, 0x90, 0xBF, 0⟩
  else if 0xF1 ≤ b ∧ b ≤ 0xF3 then some ⟨3, 0x80, 0xBF, b.toNat % 8⟩
  else if b = 0xF4 then some ⟨3, 0x80, 0x8F, 4⟩
  else none

/-- Whether `b` may come next. -/
def Pending.admits (p : Pending) (b : UInt8) : Bool := p.low ≤ b && b ≤ p.high

/-- What is owed after a continuation byte. -/
def Pending.advance (p : Pending) (b : UInt8) : Pending :=
  ⟨p.owed - 1, 0x80, 0xBF, p.code * 64 + b.toNat % 64⟩

/-- Where a byte sequence stops being UTF-8. -/
structure Fault where
  /-- The length of the longest valid beginning. -/
  validUpTo : Nat
  /-- The length of the offending sequence, or `none` when the input ends inside a character that
  was valid so far. -/
  badLength : Option Nat
deriving DecidableEq, Repr

/-- The wording of a fault. -/
def Fault.message (f : Fault) : String :=
  match f.badLength with
  | some n => s!"invalid utf-8 sequence of {n} bytes from index {f.validUpTo}"
  | none => s!"incomplete utf-8 byte sequence from index {f.validUpTo}"

/-- Scans from a character boundary at `start` of which `read` bytes have been consumed. -/
def scan (start read : Nat) : Option Pending → List UInt8 → Option Fault
  | none, [] => none
  | some _, [] => some ⟨start, none⟩
  | none, b :: rest =>
    if b < 0x80 then scan (start + 1) 0 none rest
    else match Pending.ofLead b with
      | some p => scan start 1 (some p) rest
      | none => some ⟨start, some 1⟩
  | some p, b :: rest =>
    if p.admits b then
      if p.owed = 1 then scan (start + read + 1) 0 none rest
      else scan start (read + 1) (some (p.advance b)) rest
    else some ⟨start, some read⟩

/-- The first fault of a byte sequence, if it has one. -/
def fault? (bytes : List UInt8) : Option Fault := scan 0 0 none bytes

/-- Reads bytes as text. -/
def decode (bytes : ByteArray) : Except Fault String :=
  match String.fromUTF8? bytes with
  | some text => .ok text
  | none => .error ((fault? bytes.toList).getD ⟨0, none⟩)

/-- The character that stands for a piece that cannot be read. -/
def replacement : Char := '\uFFFD'

/-- Reads a first byte, adding to `out` whatever is complete with it. -/
def startChar (out : String) (b : UInt8) : String × Option Pending :=
  if b < 0x80 then (out.push (Char.ofNat b.toNat), none)
  else match Pending.ofLead b with
    | some p => (out, some p)
    | none => (out.push replacement, none)

/-- Reads bytes to the end, replacing each maximal broken piece. -/
def replaceFaults (out : String) : Option Pending → List UInt8 → String
  | none, [] => out
  | some _, [] => out.push replacement
  | none, b :: rest =>
    let (out, state) := startChar out b
    replaceFaults out state rest
  | some p, b :: rest =>
    if p.admits b then
      if p.owed = 1 then replaceFaults (out.push (Char.ofNat (p.advance b).code)) none rest
      else replaceFaults out (some (p.advance b)) rest
    else
      let (out, state) := startChar (out.push replacement) b
      replaceFaults out state rest

/-- Reads bytes as text, with replacement where they are none. -/
def decodeLossy (bytes : ByteArray) : String :=
  (String.fromUTF8? bytes).getD (replaceFaults "" none bytes.toList)

end Utf8

end ControlPlane
