import ControlPlane.Json.Skip

/-!
# Reading records from JSON

A record is a fixed list of named fields, each a string or a truth value. It is read from an object,
whose other members are ignored, or from an array that holds the fields in order. The type of what
is read follows the list of fields, so a reader cannot return a field of the wrong kind or forget
one: `Values fields` has exactly one value per field.

While an object is read, `Gathered fields` holds what has been seen so far. A field may be given once
only, and every field must be given.
-/

namespace ControlPlane

namespace Json

open Ascii

/-- The kinds of fields. -/
inductive FieldType where
  /-- A string. -/
  | text
  /-- A truth value. -/
  | bool
deriving DecidableEq, Repr

/-- What a field of this kind holds. -/
abbrev FieldType.Carrier : FieldType → Type
  | .text => String
  | .bool => Bool

/-- The words for this kind in a message. -/
def FieldType.describe : FieldType → String
  | .text => "a string"
  | .bool => "a boolean"

/-- A named field. -/
structure Field where
  /-- The name. -/
  name : String
  /-- What it holds. -/
  type : FieldType
deriving DecidableEq, Repr

/-- One value for each field. -/
abbrev Values : List Field → Type
  | [] => Unit
  | field :: fields => field.type.Carrier × Values fields

/-- At most one value for each field. -/
abbrev Gathered : List Field → Type
  | [] => Unit
  | field :: fields => Option field.type.Carrier × Gathered fields

/-- The fields of a record and the name by which messages call it. -/
structure Shape where
  /-- The name. -/
  name : String
  /-- The fields in order. -/
  fields : List Field
deriving DecidableEq, Repr

/-- The words for a record in a message. -/
def Shape.describe (shape : Shape) : String := "struct " ++ shape.name

/-- The words for an array that holds a record. -/
def Shape.describeList (shape : Shape) : String :=
  let count := shape.fields.length
  let noun := if count = 1 then "element" else "elements"
  s!"{shape.describe} with {count} {noun}"

/-! ## Values of the wrong kind -/

/-- Finds out what a value is, given its first byte. Scalars are consumed, so that their own faults
come first; arrays and objects are not. -/
def identify (b : UInt8) (rest : Input) : Except Fault (Found × Input) :=
  if b = 0x6E then (readWord nullTail rest).map (Found.null, ·)
  else if b = 0x74 then (readWord trueTail rest).map (Found.bool true, ·)
  else if b = 0x66 then (readWord falseTail rest).map (Found.bool false, ·)
  else if b = minus then (readNumber true rest).map fun r => (r.1.found, r.2)
  else if isDigit b then (readNumber false (b :: rest)).map fun r => (r.1.found, r.2)
  else if b = quote then (readText rest).map fun r => (.text r.1, r.2)
  else if b = openBracket then .ok (.list, b :: rest)
  else if b = openBrace then .ok (.object, b :: rest)
  else .error (.facing .noValue (b :: rest))

/-- The fault for a value that is not what was wanted. -/
def wrongKind (wanted : String) (b : UInt8) (rest : Input) : Fault :=
  match identify b rest with
  | .ok (found, rest) => .behind (.wrongKind found wanted) rest
  | .error f => f

/-! ## Fields -/

/-- Reads a value of a field. -/
def FieldType.read (type : FieldType) (s : Input) : Except Fault (type.Carrier × Input) :=
  match skipBlanks s with
  | [] => .error (.facing .endInValue [])
  | b :: rest =>
    match type with
    | .text => if b = quote then readText rest else .error (wrongKind FieldType.text.describe b rest)
    | .bool =>
      if b = 0x74 then (readWord trueTail rest).map (true, ·)
      else if b = 0x66 then (readWord falseTail rest).map (false, ·)
      else .error (wrongKind FieldType.bool.describe b rest)

/-- No field seen yet. -/
def Gathered.none : (fields : List Field) → Gathered fields
  | [] => ()
  | _ :: fields => (Option.none, Gathered.none fields)

/-- The text behind a key that was given before: white space and the closing brace of the object are
passed over before the fault is reported. -/
def behindDuplicate (s : Input) : Input :=
  match skipBlanks s with
  | [] => []
  | b :: rest => if b = closeBrace then rest else b :: rest

/-- Takes the member with the given key, whose colon and value come next. -/
def Gathered.take : (fields : List Field) → Gathered fields → (key : String) → Input →
    Except Fault (Gathered fields × Input)
  | [], (), _, s => do
    let s ← readColon s
    let s ← skipValue s
    .ok ((), s)
  | field :: fields, (seen, others), key, s =>
    if key = field.name then
      match seen with
      | some _ => .error (.behind (.duplicateField key) (behindDuplicate s))
      | .none => do
        let s ← readColon s
        let (value, s) ← field.type.read s
        .ok ((some value, others), s)
    else do
      let (others, s) ← Gathered.take fields others key s
      .ok ((seen, others), s)

/-- All values, or the name of the first field that is missing. -/
def Gathered.finish : (fields : List Field) → Gathered fields → Except String (Values fields)
  | [], () => .ok ()
  | field :: fields, (seen, others) =>
    match seen with
    | .none => .error field.name
    | some value => (Gathered.finish fields others).map (value, ·)

/-! ## Objects -/

/-- Reads a key behind its opening quote, and the member. -/
def readMember (fields : List Field) (got : Gathered fields) (s : Input) :
    Except Fault (Gathered fields × Input) := do
  let (key, s) ← readText s
  got.take fields key s

theorem FieldType.read_length_le {type : FieldType} {s rest : Input} {value : type.Carrier}
    (h : type.read s = .ok (value, rest)) : rest.length ≤ s.length := by
  have hle := skipBlanks_length_le s
  unfold FieldType.read at h
  split at h
  · cases h
  · next b tail hs =>
    rw [hs] at hle
    simp only [List.length_cons] at hle
    cases type with
    | text =>
      simp only at h
      split at h
      · have := readText_length_lt h
        omega
      · cases h
    | bool =>
      simp only at h
      split at h
      · exact word hle h
      · split at h
        · exact word hle h
        · cases h
where
  word {letters : List UInt8} {s tail rest : Input} {v value : Bool}
      (hle : tail.length + 1 ≤ s.length)
      (h : (readWord letters tail).map (v, ·) = .ok (value, rest)) : rest.length ≤ s.length := by
    cases hw : readWord letters tail with
    | error f => rw [hw] at h; cases h
    | ok r =>
      have := readWord_length_le hw
      rw [hw] at h
      cases h
      omega

theorem Gathered.take_length_le {fields : List Field} {got got' : Gathered fields} {key : String}
    {s rest : Input} (h : got.take fields key s = .ok (got', rest)) : rest.length ≤ s.length := by
  induction fields generalizing s rest with
  | nil =>
    unfold Gathered.take at h
    cases hc : readColon s with
    | error f => rw [hc] at h; cases h
    | ok r =>
      have := readColon_length_lt hc
      rw [hc] at h
      simp only [bind, Except.bind] at h
      split at h
      · cases h
      · next hv =>
        cases h
        have := skipValue_length_le hv
        omega
  | cons field fields ih =>
    obtain ⟨seen, others⟩ := got
    unfold Gathered.take at h
    split at h
    · cases seen with
      | some value => cases h
      | none =>
        cases hc : readColon s with
        | error f => rw [hc] at h; cases h
        | ok r =>
          have := readColon_length_lt hc
          rw [hc] at h
          simp only [bind, Except.bind] at h
          split at h
          · cases h
          · next hv =>
            cases h
            have := FieldType.read_length_le hv
            omega
    · cases ht : Gathered.take fields others key s with
      | error f => rw [ht] at h; cases h
      | ok r =>
        have := ih ht
        rw [ht] at h
        cases h
        exact this

theorem readMember_length_lt {fields : List Field} {got got' : Gathered fields} {s rest : Input}
    (h : readMember fields got s = .ok (got', rest)) : rest.length < s.length := by
  unfold readMember at h
  cases ht : readText s with
  | error f => rw [ht] at h; cases h
  | ok r =>
    have := readText_length_lt ht
    rw [ht] at h
    have := Gathered.take_length_le h
    omega

/-- Reads the members of an object up to its closing brace, behind a member. -/
def readMembers (fields : List Field) (got : Gathered fields) (s : Input) :
    Except Fault (Gathered fields × Input) :=
  match _ : skipBlanks s with
  | [] => .error (.facing .endInObject [])
  | b :: rest =>
    if b = closeBrace then .ok (got, rest)
    else if b = comma then
      match _ : skipBlanks rest with
      | [] => .error (.facing .endInValue [])
      | c :: tail =>
        if c = quote then
          match _ : readMember fields got tail with
          | .ok (got, tail) => readMembers fields got tail
          | .error f => .error f
        else if c = closeBrace then .error (.facing .trailingComma (c :: tail))
        else .error (.facing .keyNotText (c :: tail))
    else .error (.facing .noCommaOrBrace (b :: rest))
termination_by s.length
decreasing_by
  have h₁ := skipBlanks_length_le s
  have h₂ := skipBlanks_length_le rest
  have h₃ := readMember_length_lt ‹_›
  simp_all only [List.length_cons]
  omega

/-- Reads an object behind its opening brace. -/
def readObject (fields : List Field) (s : Input) : Except Fault (Values fields × Input) := do
  let (got, rest) ←
    match skipBlanks s with
    | [] => .error (.facing .endInObject [])
    | b :: rest =>
      if b = closeBrace then .ok (Gathered.none fields, rest)
      else if b = quote then do
        let (got, rest) ← readMember fields (Gathered.none fields) rest
        readMembers fields got rest
      else .error (.facing .keyNotText (b :: rest))
  match got.finish fields with
  | .ok values => .ok (values, rest)
  | .error name => .error (.behind (.missingField name) rest)

/-! ## Arrays -/

/-- Finds the next item of an array, behind `count` items; an array that ends here is too short. -/
def nextItem (wanted : String) (count : Nat) (s : Input) : Except Fault Input :=
  match skipBlanks s with
  | [] => .error (.facing .endInList [])
  | b :: rest =>
    if b = closeBracket then .error (.behind (.tooShort count wanted) rest)
    else if count = 0 then .ok (b :: rest)
    else if b = comma then
      match skipBlanks rest with
      | [] => .error (.facing .endInValue [])
      | c :: tail =>
        if c = closeBracket then .error (.facing .trailingComma (c :: tail)) else .ok (c :: tail)
    else .error (.facing .noCommaOrBracket (b :: rest))

/-- Reads the fields in order, behind `count` items. -/
def readItems (wanted : String) : (fields : List Field) → (count : Nat) → Input →
    Except Fault (Values fields × Input)
  | [], _, s => .ok ((), s)
  | field :: fields, count, s => do
    let s ← nextItem wanted count s
    let (value, s) ← field.type.read s
    let (values, s) ← readItems wanted fields (count + 1) s
    .ok ((value, values), s)

/-- Accepts the closing bracket of an array. -/
def endList (s : Input) : Except Fault Input :=
  match skipBlanks s with
  | [] => .error (.facing .endInList [])
  | b :: rest =>
    if b = closeBracket then .ok rest
    else if b = comma then
      match skipBlanks rest with
      | [] => .error (.facing .trailingCharacters [])
      | c :: tail =>
        .error (.facing (if c = closeBracket then .trailingComma else .trailingCharacters)
          (c :: tail))
    else .error (.facing .trailingCharacters (b :: rest))

/-! ## Whole texts -/

/-- Reads a record, leaving the text behind it. -/
def Shape.read (shape : Shape) (s : Input) : Except Fault (Values shape.fields × Input) :=
  match skipBlanks s with
  | [] => .error (.facing .endInValue [])
  | b :: rest =>
    if b = openBracket then do
      let (values, rest) ← readItems shape.describeList shape.fields 0 rest
      let rest ← endList rest
      .ok (values, rest)
    else if b = openBrace then readObject shape.fields rest
    else .error (wrongKind shape.describe b rest)

/-- Reads a text that holds one record. -/
def Shape.parse (shape : Shape) (text : Input) : Except Complaint (Values shape.fields) :=
  parseWith shape.read text

end Json

end ControlPlane
