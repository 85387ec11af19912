import ControlPlane.Http.Percent
import ControlPlane.Text.Utf8

/-!
# Query strings

A query is a sequence of fields between ampersands. A field is a name and a value, divided by the
first equals sign. In both a plus sign means a space and any byte may be percent-encoded; what does
not decode to text is replaced.
-/

namespace ControlPlane

namespace Http

open Ascii

/-- The text of a name or of a value. -/
def formText (piece : List UInt8) : String :=
  Utf8.decodeLossy
    ⟨(percentDecode (piece.map fun b => if b = plus then space else b)).toArray⟩

/-- The name and the value of a field. -/
def formField (piece : List UInt8) : String × String :=
  (formText (piece.takeWhile (· ≠ equals)), formText ((piece.dropWhile (· ≠ equals)).drop 1))

/-- The fields of a query. Empty pieces are no fields. -/
def formFields (query : List UInt8) : List (String × String) :=
  ((splitOn ampersand query).filter (· ≠ [])).map formField

end Http

end ControlPlane
