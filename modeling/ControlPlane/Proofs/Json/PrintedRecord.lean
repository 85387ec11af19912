import ControlPlane.Proofs.Json.PrintedValue

/-!
# A printed record is read back

A record that is printed as an object is read as the values it was printed from, in whatever order its
fields are printed (`Shape.parse_print`). The reader carries along what has been gathered, and each
printed member is taken in its turn (`TakesPrinted`).
-/

namespace ControlPlane

namespace Json

open Ascii Utf8

/-- The value of a field as JSON. -/
def FieldType.toJson : (type : FieldType) → type.Carrier → Value
  | .text, value => .text value
  | .bool, value => .bool value

/-- A printed field is read back. -/
theorem FieldType.read_print (type : FieldType) (value : type.Carrier) (rest : Input) :
    type.read (bytes (type.toJson value).print ++ rest) = .ok (value, rest) := by
  cases type with
  | text =>
    have hprint : (FieldType.toJson .text value).print = printText value := rfl
    unfold FieldType.read
    rw [hprint, bytes_printText, List.cons_append, skipBlanks_cons (by decide), List.append_assoc,
      List.singleton_append]
    exact readText_escaped value rest
  | bool => cases value <;> rfl

/-- What printed members do one after another to what has been gathered. -/
inductive TakesPrinted (fields : List Field) :
    Gathered fields → List (String × Value) → Gathered fields → Prop
  /-- There is none. -/
  | nil (got : Gathered fields) : TakesPrinted fields got [] got
  /-- One follows after another. -/
  | cons {got mid got' : Gathered fields} {key : String} {value : Value}
    {members : List (String × Value)}
    (h : ∀ rest, got.take fields key (colon :: (bytes value.print ++ rest)) = .ok (mid, rest))
    (hs : TakesPrinted fields mid members got') :
    TakesPrinted fields got ((key, value) :: members) got'

/-- The value of a field that was not seen before is taken. -/
theorem take_printed (field : Field) (fields : List Field) (others : Gathered fields)
    (value : field.type.Carrier) (rest : Input) :
    Gathered.take (field :: fields) (none, others) field.name
        (colon :: (bytes (field.type.toJson value).print ++ rest)) =
      .ok ((some value, others), rest) := by
  unfold Gathered.take
  rw [if_pos rfl]
  dsimp only
  rw [readColon_cons]
  simp only [bind, Except.bind]
  rw [FieldType.read_print]

/-- A value under another key is for the fields that follow. -/
theorem take_behind (field : Field) {fields : List Field} {others others' : Gathered fields}
    {key : String} {s rest : Input} (hkey : key ≠ field.name)
    (h : others.take fields key s = .ok (others', rest)) (seen : Option field.type.Carrier) :
    Gathered.take (field :: fields) (seen, others) key s = .ok ((seen, others'), rest) := by
  unfold Gathered.take
  rw [if_neg hkey, h]
  rfl

variable {fields : List Field} {got got' : Gathered fields}

theorem readMember_printed {mid : Gathered fields} {key : String} {value : Value} {rest : Input}
    (h : got.take fields key (colon :: (bytes value.print ++ rest)) = .ok (mid, rest)) :
    readMember fields got (escaped key ++ quote :: colon :: (bytes value.print ++ rest)) =
      .ok (mid, rest) := by
  unfold readMember
  rw [readText_escaped]
  exact h

/-- Joined members begin with a quote, behind which they are taken. The induction is on the members that
are still to be taken. -/
theorem readMembers_printed {key : String} {value : Value} {members : List (String × Value)}
    (h : TakesPrinted fields got ((key, value) :: members) got') (rest : Input) :
    ∃ tail mid left, bytes (joinWithCommas (printMembers ((key, value) :: members))) ++
        closeBrace :: rest = quote :: tail ∧
      readMember fields got tail = .ok (mid, left) ∧
      readMembers fields mid left = .ok (got', rest) := by
  induction members generalizing got key value with
  | nil =>
    cases h with
    | cons h hnone =>
      cases hnone
      refine ⟨escaped key ++ quote :: colon :: (bytes value.print ++ closeBrace :: rest), _, _, ?_,
        readMember_printed (h _), readMembers_of_brace (skipBlanks_cons (by decide) rest)⟩
      rw [printMembers_cons, printMembers, joinWithCommas_singleton, bytes_member]
      simp
  | cons next members ih =>
    obtain ⟨next, value'⟩ := next
    cases h with
    | cons h hmore =>
      obtain ⟨tail, mid, left, htail, hread, hreads⟩ := ih hmore
      refine ⟨escaped key ++ quote :: colon :: (bytes value.print ++ comma :: quote :: tail), _, _, ?_,
        readMember_printed (h _), ?_⟩
      · rw [← htail, printMembers_cons, printMembers_cons, bytes_joinWithCommas, bytes_member,
          ← printMembers_cons]
        simp
      · rw [readMembers_of_comma (skipBlanks_cons (by decide) _) (skipBlanks_cons (by decide) _) hread,
          hreads]

/-- A printed object is read as the record whose fields its members give. -/
theorem Shape.parse_print {shape : Shape} {member : String × Value} {members : List (String × Value)}
    {got : Gathered shape.fields} {values : Values shape.fields}
    (h : TakesPrinted shape.fields (Gathered.none shape.fields) (member :: members) got)
    (hfinish : got.finish shape.fields = .ok values) :
    shape.parse (bytes (Value.print (.object (member :: members)))) = .ok values := by
  obtain ⟨key, value⟩ := member
  -- the text ends with the closing brace, so nothing is left behind the members
  obtain ⟨tail, mid, left, htail, hread, hreads⟩ := readMembers_printed h []
  have hprint : bytes (Value.print (.object ((key, value) :: members))) =
      openBrace :: quote :: tail := by
    rw [← htail, Value.print, bytes_append, bytes_append]
    rfl
  have hobject : readObject shape.fields (quote :: tail) = .ok (values, []) := by
    unfold readObject
    rw [skipBlanks_cons (by decide)]
    simp only [bind, Except.bind]
    rw [if_neg (by decide), if_pos trivial, hread]
    dsimp only
    rw [hreads]
    dsimp only
    rw [hfinish]
  have hread : shape.read (openBrace :: quote :: tail) = .ok (values, []) := by
    unfold Shape.read
    rw [skipBlanks_cons (by decide)]
    dsimp only
    rw [if_neg (by decide), if_pos rfl]
    exact hobject
  rw [hprint, Shape.parse, parseWith, hread]
  rfl

end Json

end ControlPlane
