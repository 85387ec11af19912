import ControlPlane.Json.Fault
import ControlPlane.Text.Ascii

/-!
# The grammar of JSON

Which bytes are a JSON value, told by how values are written and not by how they are read
(`Derives`). A string is a sequence of letters (`Letter`), and most characters can be written as
several letters: as themselves, by a short escape, or by their code point in either case. An escape
may also write half a surrogate pair, which is no character, and so not every string is the spelling
of a text (`Spells`).
-/

namespace ControlPlane

namespace Json

open Ascii

/-! ## Strings -/

/-- The two forms of a hexadecimal digit. -/
def digitForms (n : Nat) : List UInt8 := [upperHexDigit n, lowerHexDigit n]

/-- The forms of a number below `0x10000` in four hexadecimal digits. -/
inductive IsHex (n : Nat) : List UInt8 → Prop
  /-- Each digit is in either case. -/
  | digits {a b c d : UInt8} (hn : n < 0x10000) (ha : a ∈ digitForms (n / 0x1000))
    (hb : b ∈ digitForms (n / 0x100 % 0x10)) (hc : c ∈ digitForms (n / 0x10 % 0x10))
    (hd : d ∈ digitForms (n % 0x10)) : IsHex n [a, b, c, d]

/-- The letters of the short escapes, with the characters that they stand for. -/
def shortEscapes : List (UInt8 × Char) :=
  [(quote, '"'), (backslash, '\\'), (slash, '/'), (0x62, '\x08'), (0x66, '\x0C'), (0x6E, '\n'),
    (0x72, '\r'), (0x74, '\t')]

/-- The letters of a string: a character, or half a surrogate pair, and the bytes that write it. -/
inductive Letter : Option Char → List UInt8 → Prop
  /-- A character stands for itself, unless it is a control, a quote or a backslash. -/
  | plain {c : Char} (hcontrol : 0x20 ≤ c.toNat) (hquote : c ≠ '"') (hbackslash : c ≠ '\\') :
    Letter (some c) (String.utf8EncodeChar c)
  /-- A character has a short escape. -/
  | short {c : Char} {b : UInt8} (h : (b, c) ∈ shortEscapes) : Letter (some c) [backslash, b]
  /-- A character is escaped by its code point. -/
  | hex {c : Char} {digits : List UInt8} (h : IsHex c.toNat digits) :
    Letter (some c) (backslash :: 0x75 :: digits)
  /-- A character with a large code point is escaped by a surrogate pair. -/
  | pair {c : Char} {high low : List UInt8} (hc : 0x10000 ≤ c.toNat)
    (hhigh : IsHex (0xD800 + (c.toNat - 0x10000) / 0x400) high)
    (hlow : IsHex (0xDC00 + (c.toNat - 0x10000) % 0x400) low) :
    Letter (some c) (backslash :: 0x75 :: (high ++ backslash :: 0x75 :: low))
  /-- Half a surrogate pair is escaped. -/
  | half {n : Nat} {digits : List UInt8} (hleast : 0xD800 ≤ n) (hgreatest : n ≤ 0xDFFF)
    (h : IsHex n digits) : Letter none (backslash :: 0x75 :: digits)

/-- The sequences of letters. -/
inductive Letters : List (Option Char) → List UInt8 → Prop
  /-- There is none. -/
  | nil : Letters [] []
  /-- One follows after another. -/
  | cons {letter : Option Char} {letters : List (Option Char)} {s t : List UInt8}
    (h : Letter letter s) (hs : Letters letters t) : Letters (letter :: letters) (s ++ t)

/-- Whether bytes between quotes spell a text. -/
def Spells (text : String) (s : List UInt8) : Prop := Letters (text.toList.map some) s

/-! ## Numbers -/

/-- Whether bytes are digits, and at least one. -/
def IsDigits (s : List UInt8) : Prop := s ≠ [] ∧ ∀ b ∈ s, isDigit b

/-- The whole part of a number. -/
inductive IsWhole : List UInt8 → Prop
  /-- Only the number zero starts with a zero. -/
  | zero : IsWhole [zero]
  /-- Other numbers start with another digit. -/
  | digits {b : UInt8} {s : List UInt8} (hb : isDigit b) (hzero : b ≠ zero)
    (hs : ∀ d ∈ s, isDigit d) : IsWhole (b :: s)

/-- The fraction of a number. -/
inductive IsFraction : List UInt8 → Prop
  /-- There is none. -/
  | none : IsFraction []
  /-- It stands behind a point. -/
  | digits {s : List UInt8} (h : IsDigits s) : IsFraction (dot :: s)

/-- The exponent of a number. -/
inductive IsExponent : List UInt8 → Prop
  /-- There is none. -/
  | none : IsExponent []
  /-- It stands behind its letter and may have a sign. -/
  | digits {mark : UInt8} {sign s : List UInt8} (hmark : mark ∈ ([0x65, 0x45] : List UInt8))
    (hsign : sign ∈ ([[], [plus], [minus]] : List (List UInt8))) (h : IsDigits s) :
    IsExponent (mark :: (sign ++ s))

/-- The numbers without a sign. -/
inductive IsUnsigned : List UInt8 → Prop
  /-- A number has a whole part, and possibly a fraction and an exponent. -/
  | parts {whole fraction exponent : List UInt8} (hwhole : IsWhole whole)
    (hfraction : IsFraction fraction) (hexponent : IsExponent exponent) :
    IsUnsigned (whole ++ fraction ++ exponent)

/-! ## Values -/

/-- Whether bytes are white space. -/
def IsBlanks (s : List UInt8) : Prop := ∀ b ∈ s, b ∈ [space, tab, lineFeed, carriageReturn]

theorem isBlanks_nil : IsBlanks [] := nofun

/-- The words that are values. -/
def words : List (List UInt8) :=
  [[0x6E, 0x75, 0x6C, 0x6C], [0x74, 0x72, 0x75, 0x65], [0x66, 0x61, 0x6C, 0x73, 0x65]]

/-- What stands before the value of a member: its key and a colon. -/
inductive IsLabel (key : List (Option Char)) : List UInt8 → Prop
  /-- There may be white space around the key. -/
  | spaced {before s behind : List UInt8} (hbefore : IsBlanks before) (h : Letters key s)
    (hbehind : IsBlanks behind) : IsLabel key (before ++ quote :: (s ++ quote :: (behind ++ [colon])))

/-- What is derived. -/
inductive Phrase where
  /-- A value. -/
  | value
  /-- The items of an array, and at least one. -/
  | items
  /-- The members of an object, and at least one, with their keys and the bytes of their values. -/
  | members (entries : List (List (Option Char) × List UInt8))

/-- Which bytes a phrase derives. -/
inductive Derives : Phrase → List UInt8 → Prop
  /-- A word is a value. -/
  | word {s : List UInt8} (h : s ∈ words) : Derives .value s
  /-- A number is a value. -/
  | unsigned {s : List UInt8} (h : IsUnsigned s) : Derives .value s
  /-- A number may be negative. -/
  | negative {s : List UInt8} (h : IsUnsigned s) : Derives .value (minus :: s)
  /-- A string is a value. -/
  | text {letters : List (Option Char)} {s : List UInt8} (h : Letters letters s) :
    Derives .value (quote :: (s ++ [quote]))
  /-- An array may be empty. -/
  | emptyList {blanks : List UInt8} (h : IsBlanks blanks) :
    Derives .value (openBracket :: (blanks ++ [closeBracket]))
  /-- An array holds items. -/
  | list {s : List UInt8} (h : Derives .items s) : Derives .value (openBracket :: (s ++ [closeBracket]))
  /-- An object may be empty. -/
  | emptyObject {blanks : List UInt8} (h : IsBlanks blanks) :
    Derives .value (openBrace :: (blanks ++ [closeBrace]))
  /-- An object holds members. -/
  | object {entries : List (List (Option Char) × List UInt8)} {s : List UInt8}
    (h : Derives (.members entries) s) : Derives .value (openBrace :: (s ++ [closeBrace]))
  /-- An item is a value. -/
  | item {before s behind : List UInt8} (hbefore : IsBlanks before) (h : Derives .value s)
    (hbehind : IsBlanks behind) : Derives .items (before ++ (s ++ behind))
  /-- Items follow behind a comma. -/
  | itemComma {before s behind rest : List UInt8} (hbefore : IsBlanks before)
    (h : Derives .value s) (hbehind : IsBlanks behind) (hrest : Derives .items rest) :
    Derives .items (before ++ (s ++ (behind ++ comma :: rest)))
  /-- A member is a value behind a label. -/
  | member {key : List (Option Char)} {label before s behind : List UInt8} (hlabel : IsLabel key label)
    (hbefore : IsBlanks before) (h : Derives .value s) (hbehind : IsBlanks behind) :
    Derives (.members [(key, s)]) (label ++ (before ++ (s ++ behind)))
  /-- Members follow behind a comma. -/
  | memberComma {key : List (Option Char)} {label before s behind rest : List UInt8}
    {entries : List (List (Option Char) × List UInt8)} (hlabel : IsLabel key label)
    (hbefore : IsBlanks before) (h : Derives .value s) (hbehind : IsBlanks behind)
    (hrest : Derives (.members entries) rest) :
    Derives (.members ((key, s) :: entries)) (label ++ (before ++ (s ++ (behind ++ comma :: rest))))

/-- The entries of which the one with a key is a string that spells a text. The keys of the others
are texts too, and their values are of any kind. -/
inductive Gives (key text : String) : List (List (Option Char) × List UInt8) → Prop
  /-- The others stand on either side. -/
  | entry {before after : List (List (Option Char) × List UInt8)} {s : List UInt8}
    (h : Spells text s)
    (hothers : ∀ entry ∈ before ++ after, ∃ other : String, other ≠ key ∧
      entry.1 = other.toList.map some) :
    Gives key text (before ++ (key.toList.map some, quote :: (s ++ [quote])) :: after)

/-- The texts that hold an object of which the member with a key is a string that spells a text. -/
inductive IsObjectWith (key text : String) : List UInt8 → Prop
  /-- There may be white space around the object. -/
  | spaced {before s behind : List UInt8} {entries : List (List (Option Char) × List UInt8)}
    (hbefore : IsBlanks before) (h : Derives (.members entries) s) (hgives : Gives key text entries)
    (hbehind : IsBlanks behind) :
    IsObjectWith key text (before ++ openBrace :: (s ++ closeBrace :: behind))

end Json

end ControlPlane
