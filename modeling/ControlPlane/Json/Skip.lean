import ControlPlane.Json.Reader

/-!
# Passing over JSON values

A record ignores the members it does not know. Their values are passed over by a reader that checks
the grammar and builds nothing: it keeps only the kinds of the open arrays and objects on its stack,
so it nests as deep as the text does, it accepts numbers of any size, and it looks into strings no
further than to find their end.

The words for a fault differ from those of the full reader in a few places: a comma before the
closing sign is reported as a missing value or a missing key, and the end of the text behind a comma
of an object as the end of the object.
-/

namespace ControlPlane

namespace Json

open Ascii

/-- The kinds of nesting. -/
inductive Nest where
  /-- An array. -/
  | list
  /-- An object. -/
  | object
deriving DecidableEq, Repr

/-- The fault when the text ends inside a nest. -/
def Nest.endFault : Nest → FaultKind
  | .list => .endInList
  | .object => .endInObject

/-- The fault when neither a comma nor the closing sign follows. -/
def Nest.separatorFault : Nest → FaultKind
  | .list => .noCommaOrBracket
  | .object => .noCommaOrBrace

/-- The closing sign of a nest. -/
def Nest.closing : Nest → UInt8
  | .list => closeBracket
  | .object => closeBrace

/-- Passes over a key and its colon. -/
def skipKey (s : Input) : Except Fault Input :=
  match skipBlanks s with
  | [] => .error (.facing .endInObject [])
  | b :: rest =>
    if b = quote then do
      let rest ← skipText rest
      readColon rest
    else .error (.facing .keyNotText (b :: rest))

/-- Passes over what stands before the next value of a nest: a key in an object, nothing in an
array. -/
def Nest.skipLabel : Nest → Input → Except Fault Input
  | .list, s => .ok s
  | .object, s => skipKey s

/-- Passes over a value that is neither an array nor an object, given its first byte. -/
def skipScalar (b : UInt8) (rest : Input) : Except Fault Input :=
  if b = 0x6E then readWord nullTail rest
  else if b = 0x74 then readWord trueTail rest
  else if b = 0x66 then readWord falseTail rest
  else if b = minus then skipNumber rest
  else if isDigit b then skipNumber (b :: rest)
  else if b = quote then skipText rest
  else .error (.facing .noValue (b :: rest))

/-- What is skipped next: nothing, or more with a stack, before or behind a value. -/
inductive Hop where
  /-- The text behind the value. -/
  | done (rest : Input)
  /-- Another hop. -/
  | more (stack : List Nest) (behind : Bool) (rest : Input)

/-- A hop into a nest, behind its opening sign. -/
def enter (nest : Nest) (stack : List Nest) (s : Input) : Except Fault Hop :=
  match skipBlanks s with
  | [] => .error (.facing nest.endFault [])
  | b :: rest =>
    if b = nest.closing then .ok (.more stack true rest)
    else do
      let rest ← nest.skipLabel (b :: rest)
      .ok (.more (nest :: stack) false rest)

/-- A hop before a value. -/
def hopBefore (stack : List Nest) (s : Input) : Except Fault Hop :=
  match skipBlanks s with
  | [] => .error (.facing .endInValue [])
  | b :: rest =>
    if b = openBracket then enter .list stack rest
    else if b = openBrace then enter .object stack rest
    else do
      let rest ← skipScalar b rest
      .ok (.more stack true rest)

/-- A hop behind a value. -/
def hopBehind (stack : List Nest) (s : Input) : Except Fault Hop :=
  match stack with
  | [] => .ok (.done s)
  | nest :: stack =>
    match skipBlanks s with
    | [] => .error (.facing nest.endFault [])
    | b :: rest =>
      if b = comma then do
        let rest ← nest.skipLabel rest
        .ok (.more (nest :: stack) false rest)
      else if b = nest.closing then .ok (.more stack true rest)
      else .error (.facing nest.separatorFault (b :: rest))

/-- One hop. -/
def hop (stack : List Nest) (behind : Bool) (s : Input) : Except Fault Hop :=
  if behind then hopBehind stack s else hopBefore stack s

/-! ## Progress -/

theorem skipKey_length_lt {s rest : Input} (h : skipKey s = .ok rest) : rest.length < s.length := by
  have hle := skipBlanks_length_le s
  unfold skipKey at h
  split at h
  · cases h
  · next b tail hs =>
    rw [hs] at hle
    simp only [List.length_cons] at hle
    split at h
    · cases ht : skipText tail with
      | error f => rw [ht] at h; cases h
      | ok r =>
        have := skipText_length_lt ht
        rw [ht] at h
        have := readColon_length_lt h
        omega
    · cases h

theorem Nest.skipLabel_length_le {nest : Nest} {s rest : Input} (h : nest.skipLabel s = .ok rest) :
    rest.length ≤ s.length := by
  cases nest with
  | list => cases h; exact Nat.le_refl _
  | object => exact Nat.le_of_lt (skipKey_length_lt h)

theorem skipScalar_length_le {b : UInt8} {rest tail : Input} (h : skipScalar b rest = .ok tail) :
    tail.length ≤ rest.length := by
  unfold skipScalar at h
  repeat' split at h
  · exact readWord_length_le h
  · exact readWord_length_le h
  · exact readWord_length_le h
  · exact Nat.le_of_lt (skipNumber_length_lt h)
  · exact Nat.le_of_lt_succ (skipNumber_length_lt h)
  · exact Nat.le_of_lt (skipText_length_lt h)
  · cases h

theorem enter_length_le {nest : Nest} {stack stack' : List Nest} {behind : Bool} {s rest : Input}
    (h : enter nest stack s = .ok (.more stack' behind rest)) : rest.length ≤ s.length := by
  have hle := skipBlanks_length_le s
  unfold enter at h
  split at h
  · cases h
  · next b tail hs =>
    rw [hs] at hle
    split at h
    · cases h
      exact Nat.le_of_lt hle
    · cases hl : nest.skipLabel (b :: tail) with
      | error f => rw [hl] at h; cases h
      | ok r =>
        have := Nest.skipLabel_length_le hl
        rw [hl] at h
        cases h
        exact Nat.le_trans this hle

theorem hopBefore_length_lt {stack stack' : List Nest} {behind : Bool} {s rest : Input}
    (h : hopBefore stack s = .ok (.more stack' behind rest)) : rest.length < s.length := by
  have hle := skipBlanks_length_le s
  unfold hopBefore at h
  split at h
  · cases h
  · next b tail hs =>
    rw [hs] at hle
    simp only [List.length_cons] at hle
    split at h
    · have := enter_length_le h
      omega
    · split at h
      · have := enter_length_le h
        omega
      · cases hv : skipScalar b tail with
        | error f => rw [hv] at h; cases h
        | ok r =>
          have := skipScalar_length_le hv
          rw [hv] at h
          cases h
          omega

theorem hopBehind_length_lt {stack stack' : List Nest} {behind : Bool} {s rest : Input}
    (h : hopBehind stack s = .ok (.more stack' behind rest)) : rest.length < s.length := by
  have hle := skipBlanks_length_le s
  unfold hopBehind at h
  split at h
  · cases h
  · next nest stack =>
    split at h
    · cases h
    · next b tail hs =>
      rw [hs] at hle
      simp only [List.length_cons] at hle
      split at h
      · cases hl : nest.skipLabel tail with
        | error f => rw [hl] at h; cases h
        | ok r =>
          have := Nest.skipLabel_length_le hl
          rw [hl] at h
          cases h
          omega
      · split at h
        · cases h
          omega
        · cases h

/-- Every hop that is followed by another one consumes something. -/
theorem hop_length_lt {stack stack' : List Nest} {behind behind' : Bool} {s rest : Input}
    (h : hop stack behind s = .ok (.more stack' behind' rest)) : rest.length < s.length := by
  unfold hop at h
  split at h
  · exact hopBehind_length_lt h
  · exact hopBefore_length_lt h

/-! ## Whole values -/

/-- Hops until a value is complete. -/
def takeHops (stack : List Nest) (behind : Bool) (s : Input) : Except Fault Input :=
  match _ : hop stack behind s with
  | .ok (.done rest) => .ok rest
  | .ok (.more stack behind rest) => takeHops stack behind rest
  | .error f => .error f
termination_by s.length
decreasing_by exact hop_length_lt ‹_›

theorem takeHops_length_le {stack : List Nest} {behind : Bool} {s rest : Input}
    (h : takeHops stack behind s = .ok rest) : rest.length ≤ s.length := by
  fun_induction takeHops stack behind s with
  | case1 stack behind s rest' hh =>
    cases h
    unfold hop at hh
    split at hh
    · unfold hopBehind at hh
      split at hh
      · cases hh
        exact Nat.le_refl _
      · split at hh
        · cases hh
        · split at hh
          · cases hl : Nest.skipLabel _ _ with
            | error f => rw [hl] at hh; cases hh
            | ok r => rw [hl] at hh; cases hh
          · split at hh <;> cases hh
    · exact absurd hh (hopBefore_ne_done _ _ _)
  | case2 stack behind s stack' behind' rest' hh ih =>
    exact Nat.le_trans (ih h) (Nat.le_of_lt (hop_length_lt hh))
  | case3 => cases h
where
  hopBefore_ne_done (stack : List Nest) (s rest : Input) :
      hopBefore stack s ≠ .ok (.done rest) := by
    intro h
    unfold hopBefore at h
    split at h
    · cases h
    · split at h
      · exact enter_ne_done _ _ _ _ h
      · split at h
        · exact enter_ne_done _ _ _ _ h
        · next b tail _ _ _ =>
          cases hv : skipScalar b tail with
          | error f => rw [hv] at h; cases h
          | ok r => rw [hv] at h; cases h
  enter_ne_done (nest : Nest) (stack : List Nest) (s rest : Input) :
      enter nest stack s ≠ .ok (.done rest) := by
    intro h
    unfold enter at h
    split at h
    · cases h
    · next b tail _ =>
      split at h
      · cases h
      · cases hl : nest.skipLabel (b :: tail) with
        | error f => rw [hl] at h; cases h
        | ok r => rw [hl] at h; cases h

/-- Passes over a value. -/
def skipValue (s : Input) : Except Fault Input := takeHops [] false s

theorem skipValue_length_le {s rest : Input} (h : skipValue s = .ok rest) :
    rest.length ≤ s.length :=
  takeHops_length_le h

end Json

end ControlPlane
