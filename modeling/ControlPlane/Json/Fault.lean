import ControlPlane.Text.Quoted

/-!
# Faults in JSON text

A reader that fails says what is wrong and where. The place is kept as the number of bytes that
follow it, which a reader knows without knowing how much it has consumed; only when the fault is put
into words is it turned into a line and a column of the whole text.

A fault stands either behind what was consumed (`Fault.behind`) or on the byte that was looked at
(`Fault.facing`). At the end of the text both places are the same.
-/

namespace ControlPlane

namespace Json

/-- The bytes that a reader has still to consume. -/
abbrev Input := List UInt8

/-- What a value turned out to be, where another kind was wanted. -/
inductive Found where
  /-- The word for no value. -/
  | null
  /-- A truth value. -/
  | bool (value : Bool)
  /-- A whole number. -/
  | whole (value : Int)
  /-- A fraction, already printed. -/
  | fraction (digits : String)
  /-- A string. -/
  | text (value : String)
  /-- An array. -/
  | list
  /-- An object. -/
  | object
deriving DecidableEq, Repr

/-- The words for what was found. -/
def Found.describe : Found → String
  | .null => "null"
  | .bool true => "boolean \x60true\x60"
  | .bool false => "boolean \x60false\x60"
  | .whole value => s!"integer \x60{value}\x60"
  | .fraction digits => s!"floating point \x60{digits}\x60"
  | .text value => "string " ++ quoted value
  | .list => "sequence"
  | .object => "map"

/-- What can be wrong with a JSON text. -/
inductive FaultKind where
  /-- The text ends where a value should start, or inside a word or a number. -/
  | endInValue
  /-- The text ends inside an object. -/
  | endInObject
  /-- The text ends inside an array. -/
  | endInList
  /-- The text ends inside a string. -/
  | endInText
  /-- A byte that starts no value. -/
  | noValue
  /-- A word other than the three that JSON knows. -/
  | badWord
  /-- No colon after a key. -/
  | noColon
  /-- Neither a comma nor a closing brace after a member. -/
  | noCommaOrBrace
  /-- Neither a comma nor a closing bracket after an item. -/
  | noCommaOrBracket
  /-- A key that is no string. -/
  | keyNotText
  /-- A comma before the closing sign. -/
  | trailingComma
  /-- More after the value. -/
  | trailingCharacters
  /-- A control character inside a string. -/
  | controlCharacter
  /-- An escape that does not exist. -/
  | badEscape
  /-- One half of a surrogate pair. -/
  | loneSurrogate
  /-- No second escape after the first half of a surrogate pair. -/
  | endOfHexEscape
  /-- A string whose bytes are not UTF-8. -/
  | badCodePoint
  /-- A malformed number. -/
  | badNumber
  /-- A number too large for a double. -/
  | numberOutOfRange
  /-- Arrays and objects nested too deeply. -/
  | tooDeep
  /-- A field that was given before. -/
  | duplicateField (name : String)
  /-- A field that was not given. -/
  | missingField (name : String)
  /-- An array with fewer items than fields are wanted. -/
  | tooShort (length : Nat) (wanted : String)
  /-- A value of another kind than wanted. -/
  | wrongKind (found : Found) (wanted : String)
deriving DecidableEq, Repr

/-- The wording of a kind of fault. -/
def FaultKind.describe : FaultKind → String
  | .endInValue => "EOF while parsing a value"
  | .endInObject => "EOF while parsing an object"
  | .endInList => "EOF while parsing a list"
  | .endInText => "EOF while parsing a string"
  | .noValue => "expected value"
  | .badWord => "expected ident"
  | .noColon => "expected \x60:\x60"
  | .noCommaOrBrace => "expected \x60,\x60 or \x60\x7d\x60"
  | .noCommaOrBracket => "expected \x60,\x60 or \x60]\x60"
  | .keyNotText => "key must be a string"
  | .trailingComma => "trailing comma"
  | .trailingCharacters => "trailing characters"
  | .controlCharacter => "control character (\\u0000-\\u001F) found while parsing a string"
  | .badEscape => "invalid escape"
  | .loneSurrogate => "lone leading surrogate in hex escape"
  | .endOfHexEscape => "unexpected end of hex escape"
  | .badCodePoint => "invalid unicode code point"
  | .badNumber => "invalid number"
  | .numberOutOfRange => "number out of range"
  | .tooDeep => "recursion limit exceeded"
  | .duplicateField name => s!"duplicate field \x60{name}\x60"
  | .missingField name => s!"missing field \x60{name}\x60"
  | .tooShort length wanted => s!"invalid length {length}, expected {wanted}"
  | .wrongKind found wanted => s!"invalid type: {found.describe}, expected {wanted}"

/-- Something wrong at a place of a JSON text. -/
structure Fault where
  /-- What is wrong. -/
  kind : FaultKind
  /-- The number of bytes behind the place. -/
  left : Nat
deriving DecidableEq, Repr

/-- A fault behind the last byte consumed. -/
def Fault.behind (kind : FaultKind) (rest : Input) : Fault := ⟨kind, rest.length⟩

/-- A fault on the byte that comes next, or at the end of the text if none does. -/
def Fault.facing (kind : FaultKind) (rest : Input) : Fault := ⟨kind, rest.length - 1⟩

/-- Something wrong with a JSON text, with its place as a line and a column. -/
structure Complaint where
  /-- What is wrong. -/
  kind : FaultKind
  /-- The line, from one. -/
  line : Nat
  /-- The number of bytes of the line up to the place. -/
  column : Nat
deriving DecidableEq, Repr

/-- The wording of a complaint. -/
def Complaint.message (c : Complaint) : String :=
  s!"{c.kind.describe} at line {c.line} column {c.column}"

/-- The complaint that something is wrong `count` bytes behind the given line and column. A line feed
begins a new line and has no column of its own. -/
def FaultKind.complain (kind : FaultKind) (line column : Nat) : (count : Nat) → Input → Complaint
  | 0, _ | _, [] => ⟨kind, line, column⟩
  | count + 1, b :: rest =>
    if b = 0x0A then kind.complain (line + 1) 0 count rest
    else kind.complain line (column + 1) count rest

/-- Finds the place of a fault in the whole text. -/
def Fault.locate (f : Fault) (text : Input) : Complaint :=
  f.kind.complain 1 0 (text.length - f.left) text

/-- A reader consumes the beginning of a text, or says why it cannot. -/
abbrev Reader (α : Type) := Input → Except Fault (α × Input)

end Json

end ControlPlane
