import ControlPlane.Json.Value

/-!
# Reading JSON values

`Value.parse` reads a whole text. The reader keeps the arrays and objects that are still open on a
stack, so that it consumes the text from left to right in one loop: it either stands before a value
(`Stage.before`) or has just finished one (`Stage.behind`), and every turn of the loop consumes at
least one byte.

Arrays and objects may be nested 127 deep.
-/

namespace ControlPlane

namespace Json

open Ascii

/-- How many arrays and objects may be open at once. -/
def depthLimit : Nat := 127

/-- An array or object that is still open. What it holds so far is kept in reverse. -/
inductive Frame where
  /-- An array. -/
  | list (items : List Value)
  /-- An object, with the key of the value that is being read. -/
  | object (members : List (String × Value)) (key : String)
deriving Repr, Inhabited

/-- Where the reader stands. -/
inductive Stage where
  /-- Before a value. -/
  | before
  /-- Behind a value. -/
  | behind (value : Value)
deriving Repr, Inhabited

/-- Reads the colon behind a key. -/
def readColon (s : Input) : Except Fault Input :=
  match skipBlanks s with
  | [] => .error (.facing .endInObject [])
  | b :: rest => if b = colon then .ok rest else .error (.facing .noColon (b :: rest))

theorem readColon_length_lt {s rest : Input} (h : readColon s = .ok rest) :
    rest.length < s.length := by
  unfold readColon at h
  have hle := skipBlanks_length_le s
  split at h
  · cases h
  · next b tail hs =>
    split at h
    · cases h
      rw [hs] at hle
      exact hle
    · cases h

/-- Reads a key behind its opening quote, and the colon. -/
def readKey (s : Input) : Except Fault (String × Input) := do
  let (key, rest) ← readText s
  let rest ← readColon rest
  .ok (key, rest)

theorem readKey_length_lt {s rest : Input} {key : String} (h : readKey s = .ok (key, rest)) :
    rest.length < s.length := by
  unfold readKey at h
  cases ht : readText s with
  | error f => rw [ht] at h; cases h
  | ok r =>
    have := readText_length_lt ht
    rw [ht] at h
    simp only [bind, Except.bind] at h
    split at h
    · cases h
    · next hc =>
      cases h
      have := readColon_length_lt hc
      omega

/-- Reads a value that is neither an array nor an object, given its first byte. -/
def readScalar (b : UInt8) (rest : Input) : Except Fault (Value × Input) :=
  if b = 0x6E then (readWord nullTail rest).map (Value.null, ·)
  else if b = 0x74 then (readWord trueTail rest).map (Value.bool true, ·)
  else if b = 0x66 then (readWord falseTail rest).map (Value.bool false, ·)
  else if b = minus then (readNumber true rest).map fun r => (.number r.1, r.2)
  else if isDigit b then (readNumber false (b :: rest)).map fun r => (.number r.1, r.2)
  else if b = quote then (readText rest).map fun r => (.text r.1, r.2)
  else .error (.facing .noValue (b :: rest))

/-- What the reader does next: it is done, or goes on with a stack and a stage. -/
inductive Turn where
  /-- The value and the text behind it. -/
  | done (value : Value) (rest : Input)
  /-- Another turn. -/
  | more (stack : List Frame) (stage : Stage) (rest : Input)

/-- A turn before a value. -/
def turnBefore (stack : List Frame) (s : Input) : Except Fault Turn :=
  match skipBlanks s with
  | [] => .error (.facing .endInValue [])
  | b :: rest =>
    if b = openBracket then
      if depthLimit ≤ stack.length then .error (.facing .tooDeep (b :: rest))
      else match skipBlanks rest with
        | [] => .error (.facing .endInList [])
        | c :: tail =>
          if c = closeBracket then .ok (.more stack (.behind (.list [])) tail)
          else .ok (.more (.list [] :: stack) .before (c :: tail))
    else if b = openBrace then
      if depthLimit ≤ stack.length then .error (.facing .tooDeep (b :: rest))
      else match skipBlanks rest with
        | [] => .error (.facing .endInObject [])
        | c :: tail =>
          if c = closeBrace then .ok (.more stack (.behind (.ofMembers [])) tail)
          else if c = quote then do
            let (key, tail) ← readKey tail
            .ok (.more (.object [] key :: stack) .before tail)
          else .error (.facing .keyNotText (c :: tail))
    else do
      let (value, rest) ← readScalar b rest
      .ok (.more stack (.behind value) rest)

/-- A turn behind an item of an array that holds `items` so far, in reverse. -/
def turnInList (items : List Value) (stack : List Frame) (s : Input) : Except Fault Turn :=
  match skipBlanks s with
  | [] => .error (.facing .endInList [])
  | b :: rest =>
    if b = closeBracket then .ok (.more stack (.behind (.list items.reverse)) rest)
    else if b = comma then
      match skipBlanks rest with
      | [] => .error (.facing .endInValue [])
      | c :: tail =>
        if c = closeBracket then .error (.facing .trailingComma (c :: tail))
        else .ok (.more (.list items :: stack) .before (c :: tail))
    else .error (.facing .noCommaOrBracket (b :: rest))

/-- A turn behind a member of an object that holds `members` so far, in reverse. -/
def turnInObject (members : List (String × Value)) (stack : List Frame) (s : Input) :
    Except Fault Turn :=
  match skipBlanks s with
  | [] => .error (.facing .endInObject [])
  | b :: rest =>
    if b = closeBrace then .ok (.more stack (.behind (.ofMembers members.reverse)) rest)
    else if b = comma then
      match skipBlanks rest with
      | [] => .error (.facing .endInValue [])
      | c :: tail =>
        if c = quote then do
          let (key, tail) ← readKey tail
          .ok (.more (.object members key :: stack) .before tail)
        else if c = closeBrace then .error (.facing .trailingComma (c :: tail))
        else .error (.facing .keyNotText (c :: tail))
    else .error (.facing .noCommaOrBrace (b :: rest))

/-- One turn of the reader. -/
def turn (stack : List Frame) (stage : Stage) (s : Input) : Except Fault Turn :=
  match stage with
  | .before => turnBefore stack s
  | .behind value =>
    match stack with
    | [] => .ok (.done value s)
    | .list items :: stack => turnInList (value :: items) stack s
    | .object members key :: stack => turnInObject ((key, value) :: members) stack s

/-! ## Progress -/

theorem readScalar_length_le {b : UInt8} {rest tail : Input} {value : Value}
    (h : readScalar b rest = .ok (value, tail)) : tail.length ≤ rest.length := by
  unfold readScalar at h
  repeat' split at h
  · exact word h
  · exact word h
  · exact word h
  · exact Nat.le_of_lt (number h)
  · exact Nat.le_of_lt_succ (number h)
  · cases ht : readText rest with
    | error f => rw [ht] at h; cases h
    | ok r =>
      have := readText_length_lt ht
      rw [ht] at h
      cases h
      exact Nat.le_of_lt this
  · cases h
where
  word {letters : List UInt8} {s tail : Input} {v value : Value}
      (h : (readWord letters s).map (v, ·) = .ok (value, tail)) : tail.length ≤ s.length := by
    cases hw : readWord letters s with
    | error f => rw [hw] at h; cases h
    | ok r =>
      have := readWord_length_le hw
      rw [hw] at h
      cases h
      exact this
  number {negative : Bool} {s tail : Input} {value : Value}
      (h : ((readNumber negative s).map fun r => (Value.number r.1, r.2)) = .ok (value, tail)) :
      tail.length < s.length := by
    cases hn : readNumber negative s with
    | error f => rw [hn] at h; cases h
    | ok r =>
      have := readNumber_length_lt hn
      rw [hn] at h
      cases h
      exact this

theorem turnBefore_length_lt {stack stack' : List Frame} {stage : Stage} {s rest : Input}
    (h : turnBefore stack s = .ok (.more stack' stage rest)) : rest.length < s.length := by
  have hle := skipBlanks_length_le s
  unfold turnBefore at h
  split at h
  · cases h
  · next b tail hs =>
    have hle' := skipBlanks_length_le tail
    rw [hs] at hle
    simp only [List.length_cons] at hle
    split at h
    · split at h
      · cases h
      · split at h
        · cases h
        · next hc =>
          rw [hc] at hle'
          simp only [List.length_cons] at hle'
          split at h
          · cases h
            omega
          · cases h
            simp only [List.length_cons]
            omega
    · split at h
      · split at h
        · cases h
        · split at h
          · cases h
          · next c tail' hc =>
            rw [hc] at hle'
            simp only [List.length_cons] at hle'
            split at h
            · cases h; omega
            · split at h
              · cases hk : readKey tail' with
                | error f => rw [hk] at h; cases h
                | ok r =>
                  have := readKey_length_lt hk
                  rw [hk] at h
                  cases h
                  omega
              · cases h
      · cases hv : readScalar b tail with
        | error f => rw [hv] at h; cases h
        | ok r =>
          have := readScalar_length_le hv
          rw [hv] at h
          cases h
          omega

theorem turnInList_length_lt {items : List Value} {stack stack' : List Frame} {stage : Stage}
    {s rest : Input} (h : turnInList items stack s = .ok (.more stack' stage rest)) :
    rest.length < s.length := by
  have hle := skipBlanks_length_le s
  unfold turnInList at h
  split at h
  · cases h
  · next b tail hs =>
    have hle' := skipBlanks_length_le tail
    rw [hs] at hle
    simp only [List.length_cons] at hle
    split at h
    · cases h; omega
    · split at h
      · split at h
        · cases h
        · next hc =>
          rw [hc] at hle'
          simp only [List.length_cons] at hle'
          split at h
          · cases h
          · cases h
            simp only [List.length_cons]
            omega
      · cases h

theorem turnInObject_length_lt {members : List (String × Value)} {stack stack' : List Frame}
    {stage : Stage} {s rest : Input}
    (h : turnInObject members stack s = .ok (.more stack' stage rest)) :
    rest.length < s.length := by
  have hle := skipBlanks_length_le s
  unfold turnInObject at h
  split at h
  · cases h
  · next b tail hs =>
    have hle' := skipBlanks_length_le tail
    rw [hs] at hle
    simp only [List.length_cons] at hle
    split at h
    · cases h; omega
    · split at h
      · split at h
        · cases h
        · next c tail' hc =>
          rw [hc] at hle'
          simp only [List.length_cons] at hle'
          split at h
          · cases hk : readKey tail' with
            | error f => rw [hk] at h; cases h
            | ok r =>
              have := readKey_length_lt hk
              rw [hk] at h
              cases h
              omega
          · split at h <;> cases h
      · cases h

/-- Every turn that is followed by another one consumes something. -/
theorem turn_length_lt {stack stack' : List Frame} {stage stage' : Stage} {s rest : Input}
    (h : turn stack stage s = .ok (.more stack' stage' rest)) : rest.length < s.length := by
  unfold turn at h
  split at h
  · exact turnBefore_length_lt h
  · split at h
    · cases h
    · exact turnInList_length_lt h
    · exact turnInObject_length_lt h

/-! ## Whole texts -/

/-- Takes turns until a value is complete. -/
def takeTurns (stack : List Frame) (stage : Stage) (s : Input) : Except Fault (Value × Input) :=
  match _ : turn stack stage s with
  | .ok (.done value rest) => .ok (value, rest)
  | .ok (.more stack stage rest) => takeTurns stack stage rest
  | .error f => .error f
termination_by s.length
decreasing_by exact turn_length_lt ‹_›

/-- Reads a value, leaving the text behind it. -/
def readValue (s : Input) : Except Fault (Value × Input) := takeTurns [] .before s

/-- Accepts white space only. -/
def expectEnd (s : Input) : Except Fault Unit :=
  match skipBlanks s with
  | [] => .ok ()
  | rest => .error (.facing .trailingCharacters rest)

/-- Makes a reader of the beginning of a text one of the whole text: only white space may follow,
and faults are located. -/
def parseWith {α : Type} (reader : Reader α) (text : Input) : Except Complaint α :=
  match reader text with
  | .error f => .error (f.locate text)
  | .ok (value, rest) =>
    match expectEnd rest with
    | .error f => .error (f.locate text)
    | .ok () => .ok value

/-- Reads a text that holds one value. -/
def Value.parse (text : Input) : Except Complaint Value := parseWith readValue text

end Json

end ControlPlane
