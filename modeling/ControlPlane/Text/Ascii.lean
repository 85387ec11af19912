/-!
# Bytes with a name

The grammars of this library are written over bytes. The signs they treat specially are named here,
so that a reader of a grammar sees what is matched. Digits are read by value.
-/

namespace ControlPlane

namespace Ascii

/-- Horizontal tab. -/
@[match_pattern] abbrev tab : UInt8 := 0x09
/-- Line feed. -/
@[match_pattern] abbrev lineFeed : UInt8 := 0x0A
/-- Carriage return. -/
@[match_pattern] abbrev carriageReturn : UInt8 := 0x0D
/-- The plain space. -/
@[match_pattern] abbrev space : UInt8 := 0x20
/-- The double quote. -/
@[match_pattern] abbrev quote : UInt8 := 0x22
/-- The number sign. -/
@[match_pattern] abbrev hash : UInt8 := 0x23
/-- The percent sign. -/
@[match_pattern] abbrev percent : UInt8 := 0x25
/-- The ampersand. -/
@[match_pattern] abbrev ampersand : UInt8 := 0x26
/-- The asterisk. -/
@[match_pattern] abbrev asterisk : UInt8 := 0x2A
/-- The plus sign. -/
@[match_pattern] abbrev plus : UInt8 := 0x2B
/-- The comma. -/
@[match_pattern] abbrev comma : UInt8 := 0x2C
/-- The minus sign. -/
@[match_pattern] abbrev minus : UInt8 := 0x2D
/-- The full stop. -/
@[match_pattern] abbrev dot : UInt8 := 0x2E
/-- The slash. -/
@[match_pattern] abbrev slash : UInt8 := 0x2F
/-- The digit zero. -/
@[match_pattern] abbrev zero : UInt8 := 0x30
/-- The digit nine. -/
@[match_pattern] abbrev nine : UInt8 := 0x39
/-- The colon. -/
@[match_pattern] abbrev colon : UInt8 := 0x3A
/-- The equals sign. -/
@[match_pattern] abbrev equals : UInt8 := 0x3D
/-- The question mark. -/
@[match_pattern] abbrev question : UInt8 := 0x3F
/-- The opening bracket. -/
@[match_pattern] abbrev openBracket : UInt8 := 0x5B
/-- The backslash. -/
@[match_pattern] abbrev backslash : UInt8 := 0x5C
/-- The closing bracket. -/
@[match_pattern] abbrev closeBracket : UInt8 := 0x5D
/-- The opening brace. -/
@[match_pattern] abbrev openBrace : UInt8 := 0x7B
/-- The closing brace. -/
@[match_pattern] abbrev closeBrace : UInt8 := 0x7D

/-- Whether a byte is a decimal digit. -/
def isDigit (b : UInt8) : Bool := zero ≤ b && b ≤ nine

/-- The value of a decimal digit. -/
def digitValue (b : UInt8) : Nat := b.toNat - 0x30

/-- The value of a hexadecimal digit of either case. -/
def hexValue? (b : UInt8) : Option Nat :=
  if isDigit b then some (b.toNat - 0x30)
  else if 0x61 ≤ b ∧ b ≤ 0x66 then some (b.toNat - 0x57)
  else if 0x41 ≤ b ∧ b ≤ 0x46 then some (b.toNat - 0x37)
  else none

/-- The hexadecimal digit of a value below sixteen, in upper case. -/
def upperHexDigit (n : Nat) : UInt8 := if n < 10 then 0x30 + n.toUInt8 else 0x37 + n.toUInt8

/-- The hexadecimal digit of a value below sixteen, in lower case. -/
def lowerHexDigit (n : Nat) : UInt8 := if n < 10 then 0x30 + n.toUInt8 else 0x57 + n.toUInt8

theorem hexValue?_upperHexDigit {n : Nat} (h : n < 0x10) : hexValue? (upperHexDigit n) = some n := by
  revert n
  decide

theorem hexValue?_lowerHexDigit {n : Nat} (h : n < 0x10) : hexValue? (lowerHexDigit n) = some n := by
  revert n
  decide

/-- Whether a byte is a letter of the alphabet. -/
def isLetter (b : UInt8) : Bool := (0x41 ≤ b && b ≤ 0x5A) || (0x61 ≤ b && b ≤ 0x7A)

end Ascii

end ControlPlane
