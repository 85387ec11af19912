import Std.Data.TreeMap
import ControlPlane.Json.Number

/-!
# JSON values and their compact text

An object is a list of members, printed in the order of the list. `Value.ofMembers` brings members as
they were read into ascending order of their keys: of several members with one key the last one counts.

Compact text has no white space. Strings escape the quote, the backslash and the control characters
and show everything else as it is.
-/

namespace ControlPlane

namespace Json

/-- A JSON value. -/
inductive Value where
  /-- No value. -/
  | null
  /-- A truth value. -/
  | bool (value : Bool)
  /-- A number. -/
  | number (value : Number)
  /-- A string. -/
  | text (value : String)
  /-- An array. -/
  | list (items : List Value)
  /-- An object. -/
  | object (members : List (String × Value))
deriving Repr, Inhabited

/-- The object with the given members; of those with one key the last counts. -/
def Value.ofMembers (members : List (String × Value)) : Value :=
  .object (members.foldl (fun map m => map.insert m.1 m.2) (∅ : Std.TreeMap String Value)).toList

/-- The member of an object with the given key. -/
def Value.member? (key : String) : Value → Option Value
  | .object members => members.lookup key
  | _ => none

/-! ## Compact text -/

/-- The form of one character in a string. -/
def encodeChar (c : Char) : String :=
  if c = '"' then "\\\""
  else if c = '\\' then "\\\\"
  else if c = '\x08' then "\\b"
  else if c = '\x0C' then "\\f"
  else if c = '\n' then "\\n"
  else if c = '\r' then "\\r"
  else if c = '\t' then "\\t"
  else if c.toNat < 0x20 then
    "\\u00" ++ String.ofList [Nat.digitChar (c.toNat / 16), Nat.digitChar (c.toNat % 16)]
  else c.toString

/-- A string as JSON. -/
def printText (text : String) : String :=
  text.toList.foldl (fun out c => out ++ encodeChar c) "\"" ++ "\""

/-- Texts with commas between them. -/
def joinWithCommas (texts : List String) : String := ",".intercalate texts

mutual

/-- A value as compact JSON. -/
def Value.print : Value → String
  | .null => "null"
  | .bool true => "true"
  | .bool false => "false"
  | .number value => value.print
  | .text value => printText value
  | .list items => "[" ++ joinWithCommas (printItems items) ++ "]"
  | .object members => "\x7b" ++ joinWithCommas (printMembers members) ++ "\x7d"

/-- The items of an array, each as compact JSON. -/
def printItems : List Value → List String
  | [] => []
  | item :: items => item.print :: printItems items

/-- The members of an object, each as compact JSON. -/
def printMembers : List (String × Value) → List String
  | [] => []
  | (key, value) :: members => (printText key ++ ":" ++ value.print) :: printMembers members

end

end Json

end ControlPlane
