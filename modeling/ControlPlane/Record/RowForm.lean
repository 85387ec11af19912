import ControlPlane.Record.Basic
import ControlPlane.Text.Utf8

/-!
# Records as rows

A row holds the fields of a record one after another. Text and documents are preceded by their length
in bytes, eight bytes with the least significant first; a truth value is one byte. Nothing marks the
end of a row, and bytes behind the last field are ignored.

`RecordKind.decode` undoes `RecordKind.encode` for every record whose fields are shorter than `2 ^ 64`
bytes. A row that was not written by `encode` may fail to decode, and `RowFault` says why.
-/

namespace ControlPlane

/-- Why a row does not decode. -/
inductive RowFault where
  /-- The row ends inside a length, a truth value or a document. -/
  | truncated
  /-- A text is longer than what is left of the row. -/
  | overlong
  /-- A byte that is no truth value. -/
  | badBool (byte : UInt8)
  /-- A text that is not UTF-8. -/
  | badText (fault : Utf8.Fault)
deriving DecidableEq, Repr

/-- The wording of a row fault. -/
def RowFault.message : RowFault → String
  | .truncated => "io error: unexpected end of file"
  | .overlong => "io error: "
  | .badBool byte => s!"invalid u8 while decoding bool, expected 0 or 1, found {byte}"
  | .badText fault => "string is not valid utf8: " ++ fault.message

namespace RowForm

/-! ## Writing -/

/-- A length in eight bytes. -/
def encodeLength (n : Nat) : ByteArray :=
  ⟨((List.range 8).map fun i => UInt8.ofNat (n >>> (8 * i))).toArray⟩

/-- Bytes behind their length. -/
def encodeBytes (bytes : ByteArray) : ByteArray := encodeLength bytes.size ++ bytes

/-- A text behind its length. -/
def encodeText (text : String) : ByteArray := encodeBytes text.toUTF8

/-- A truth value in one byte. -/
def encodeBool (value : Bool) : ByteArray := ⟨#[if value then 1 else 0]⟩

/-! ## Reading

A reader takes a field off the front of a row and leaves the rest. -/

/-- A reader of rows. -/
abbrev Decoder (α : Type) := ByteArray → Except RowFault (α × ByteArray)

/-- The bytes behind the first `n`. -/
def dropBytes (row : ByteArray) (n : Nat) : ByteArray := row.extract n row.size

/-- The number whose bytes are given, the least significant first. -/
def ofBytes (bytes : List UInt8) : Nat := bytes.foldr (fun b n => b.toNat + 256 * n) 0

/-- Reads a length. -/
def decodeLength : Decoder Nat := fun row =>
  if row.size < 8 then .error .truncated
  else .ok (ofBytes (row.extract 0 8).data.toList, dropBytes row 8)

/-- Reads a document. -/
def decodeBytes : Decoder ByteArray := fun row => do
  let (n, row) ← decodeLength row
  if row.size < n then .error .truncated else .ok (row.extract 0 n, dropBytes row n)

/-- Reads a text. -/
def decodeText : Decoder String := fun row => do
  let (n, row) ← decodeLength row
  if row.size < n then .error .overlong
  else match Utf8.decode (row.extract 0 n) with
    | .ok text => .ok (text, dropBytes row n)
    | .error fault => .error (.badText fault)

/-- Reads a truth value. -/
def decodeBool : Decoder Bool := fun row =>
  match row[0]? with
  | none => .error .truncated
  | some b =>
    if b = 0 then .ok (false, dropBytes row 1)
    else if b = 1 then .ok (true, dropBytes row 1)
    else .error (.badBool b)

end RowForm

open RowForm

/-- The row of a record. -/
def RecordKind.encode : (kind : RecordKind) → kind.Carrier → ByteArray
  | .state, entry => encodeText entry.name ++ encodeBytes entry.payload
  | .lock, held => encodeText held.name ++ encodeText held.token ++ encodeText held.holder
  | .gate, switch => encodeText switch.key ++ encodeBool switch.enabled
  | .config, entry => encodeText entry.key ++ encodeText entry.value

/-- The record in a row. -/
def RecordKind.decode : (kind : RecordKind) → ByteArray → Except RowFault kind.Carrier
  | .state, row => do
    let (name, row) ← decodeText row
    let (payload, _) ← decodeBytes row
    .ok ⟨name, payload⟩
  | .lock, row => do
    let (name, row) ← decodeText row
    let (token, row) ← decodeText row
    let (holder, _) ← decodeText row
    .ok ⟨name, token, holder⟩
  | .gate, row => do
    let (key, row) ← decodeText row
    let (enabled, _) ← decodeBool row
    .ok ⟨key, enabled⟩
  | .config, row => do
    let (key, row) ← decodeText row
    let (value, _) ← decodeText row
    .ok ⟨key, value⟩

end ControlPlane
