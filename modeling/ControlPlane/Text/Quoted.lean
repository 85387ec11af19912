import ControlPlane.Text.Unprintable

/-!
# Quoted text

Messages name the key they speak of between double quotes. The quoted form shows every character
that leaves a mark of its own as it is, and every other one as an escape: the short escapes for NUL,
tab, line feed, carriage return, quote and backslash, and the number of the code point in lower-case
hexadecimal for the rest.
-/

namespace ControlPlane

namespace Quoted

/-- The digits of a number in lower-case hexadecimal, without leading zeros. -/
def hexDigits (n : Nat) : String := String.ofList (Nat.toDigits 16 n)

/-- The numeric escape of a character. -/
def numericEscape (c : Char) : String := "\\u\x7b" ++ hexDigits c.toNat ++ "\x7d"

/-- Whether a character is shown as it is. The plain letters, digits and signs always are, so the
tables are consulted for the others only. -/
def isPlain (c : Char) : Bool :=
  if c.toNat < 0x7F then 0x20 ≤ c.toNat
  else !CodePoint.isUnprintable c.toNat && !CodePoint.isExtender c.toNat

/-- The form of one character inside quotes. -/
def encodeChar (c : Char) : String :=
  if c = '\x00' then "\\0"
  else if c = '\t' then "\\t"
  else if c = '\n' then "\\n"
  else if c = '\r' then "\\r"
  else if c = '"' then "\\\""
  else if c = '\\' then "\\\\"
  else if isPlain c then c.toString
  else numericEscape c

/-- The characters of a text in their quoted form, without the quotes. -/
def encode (text : String) : String := text.toList.foldl (fun out c => out ++ encodeChar c) ""

end Quoted

/-- A text between double quotes. -/
def quoted (text : String) : String := "\"" ++ Quoted.encode text ++ "\""

end ControlPlane
