import ControlPlane.Json.Fault
import ControlPlane.Text.Ascii

/-!
# White space, words and strings of JSON

A string is read behind its opening quote. `readText` yields the text that the string denotes: it
resolves escapes, joins surrogate pairs and insists on UTF-8. `skipText` only finds the end of the
string: it checks that escapes are well formed and that no control character occurs, but neither
pairs surrogates nor looks at UTF-8. Where `readText` succeeds, `skipText` stops at the same place.
-/

namespace ControlPlane

namespace Json

open Ascii

/-- White space of JSON: space, tab, line feed and carriage return. -/
def isBlank (b : UInt8) : Bool := b = space || b = tab || b = lineFeed || b = carriageReturn

/-- The text behind leading white space. -/
def skipBlanks (s : Input) : Input := s.dropWhile isBlank

theorem skipBlanks_length_le (s : Input) : (skipBlanks s).length ≤ s.length :=
  (List.dropWhile_sublist isBlank).length_le

/-- Consumes the rest of a word, byte by byte. -/
def readWord : List UInt8 → Input → Except Fault Input
  | [], s => .ok s
  | _ :: _, [] => .error (.behind .endInValue [])
  | w :: word, b :: s => if b = w then readWord word s else .error (.behind .badWord s)

theorem readWord_length_le {word : List UInt8} {s rest : Input} (h : readWord word s = .ok rest) :
    rest.length ≤ s.length := by
  fun_induction readWord word s with
  | case1 s => cases h; exact Nat.le_refl _
  | case2 => cases h
  | case3 word b s ih => exact Nat.le_succ_of_le (ih h)
  | case4 => cases h

/-- The word for no value, behind its first letter. -/
def nullTail : List UInt8 := [0x75, 0x6C, 0x6C]

/-- The word for truth, behind its first letter. -/
def trueTail : List UInt8 := [0x72, 0x75, 0x65]

/-- The word for falsehood, behind its first letter. -/
def falseTail : List UInt8 := [0x61, 0x6C, 0x73, 0x65]

/-! ## Escapes -/

/-- The four hexadecimal digits of a numeric escape. -/
def readHex : Input → Except Fault (Nat × Input)
  | a :: b :: c :: d :: rest =>
    match hexValue? a, hexValue? b, hexValue? c, hexValue? d with
    | some a, some b, some c, some d => .ok (((a * 16 + b) * 16 + c) * 16 + d, rest)
    | _, _, _, _ => .error (.behind .badEscape rest)
  | _ => .error (.behind .endInText [])

theorem readHex_length_lt {s rest : Input} {n : Nat} (h : readHex s = .ok (n, rest)) :
    rest.length < s.length := by
  unfold readHex at h
  split at h
  · split at h
    · cases h; simp; omega
    · cases h
  · cases h

/-- The first half of a surrogate pair. -/
def isLeading (n : Nat) : Bool := 0xD800 ≤ n && n ≤ 0xDBFF

/-- The second half of a surrogate pair. -/
def isTrailing (n : Nat) : Bool := 0xDC00 ≤ n && n ≤ 0xDFFF

/-- The second half of a surrogate pair whose first half is `high`. -/
def readTrailing (high : Nat) : Input → Except Fault (Char × Input)
  | [] => .error (.behind .endInText [])
  | [b] => .error (.behind (if b = backslash then .endInText else .endOfHexEscape) [])
  | b :: u :: rest =>
    if b ≠ backslash then .error (.behind .endOfHexEscape (u :: rest))
    else if u ≠ 0x75 then .error (.behind .endOfHexEscape rest)
    else do
      let (low, rest) ← readHex rest
      if isTrailing low then
        .ok (Char.ofNat (0x10000 + (high - 0xD800) * 0x400 + (low - 0xDC00)), rest)
      else .error (.behind .loneSurrogate rest)

theorem readTrailing_length_lt {high : Nat} {s rest : Input} {c : Char}
    (h : readTrailing high s = .ok (c, rest)) : rest.length < s.length := by
  unfold readTrailing at h
  split at h
  · cases h
  · cases h
  · next b u tail =>
    split at h
    · cases h
    · split at h
      · cases h
      · cases hx : readHex tail with
        | error f => rw [hx] at h; cases h
        | ok r =>
          have hlt := readHex_length_lt hx
          rw [hx] at h
          simp only [bind, Except.bind] at h
          split at h
          · simp only [Except.ok.injEq, Prod.mk.injEq] at h
            obtain ⟨_, rfl⟩ := h
            simp; omega
          · cases h

/-- A numeric escape, behind its letter. -/
def readUnicodeEscape (s : Input) : Except Fault (Char × Input) := do
  let (n, rest) ← readHex s
  if isTrailing n then .error (.behind .loneSurrogate rest)
  else if isLeading n then readTrailing n rest
  else .ok (Char.ofNat n, rest)

theorem readUnicodeEscape_length_lt {s rest : Input} {c : Char}
    (h : readUnicodeEscape s = .ok (c, rest)) : rest.length < s.length := by
  unfold readUnicodeEscape at h
  cases hx : readHex s with
  | error f => rw [hx] at h; cases h
  | ok r =>
    have hlt := readHex_length_lt hx
    rw [hx] at h
    simp only [bind, Except.bind] at h
    split at h
    · cases h
    · split at h
      · exact Nat.lt_trans (readTrailing_length_lt h) hlt
      · cases h; exact hlt

/-- What the letter of a short escape stands for. -/
def shortEscape? (b : UInt8) : Option Char :=
  if b = quote then some '"'
  else if b = backslash then some '\\'
  else if b = slash then some '/'
  else if b = 0x62 then some '\x08'
  else if b = 0x66 then some '\x0C'
  else if b = 0x6E then some '\n'
  else if b = 0x72 then some '\r'
  else if b = 0x74 then some '\t'
  else none

/-- An escape, behind its backslash. -/
def readEscape : Input → Except Fault (Char × Input)
  | [] => .error (.behind .endInText [])
  | b :: rest =>
    match shortEscape? b with
    | some c => .ok (c, rest)
    | none => if b = 0x75 then readUnicodeEscape rest else .error (.behind .badEscape rest)

theorem readEscape_length_lt {s rest : Input} {c : Char} (h : readEscape s = .ok (c, rest)) :
    rest.length < s.length := by
  unfold readEscape at h
  split at h
  · cases h
  · split at h
    · cases h; simp
    · split at h
      · exact Nat.lt_succ_of_lt (readUnicodeEscape_length_lt h)
      · cases h

/-! ## Strings -/

/-- Reads a string to its closing quote; `done` holds the bytes that the part read so far
denotes. -/
def readTextFrom (done : ByteArray) (s : Input) : Except Fault (String × Input) :=
  match s with
  | [] => .error (.behind .endInText [])
  | b :: rest =>
    if b = quote then
      match String.fromUTF8? done with
      | some text => .ok (text, rest)
      | none => .error (.behind .badCodePoint rest)
    else if b = backslash then
      match _ : readEscape rest with
      | .ok (c, rest') => readTextFrom (done ++ c.toString.toUTF8) rest'
      | .error f => .error f
    else if b < space then .error (.behind .controlCharacter rest)
    else readTextFrom (done.push b) rest
termination_by s.length
decreasing_by
  · have := readEscape_length_lt ‹_›
    simp; omega
  · simp

/-- Reads a string behind its opening quote. -/
def readText (s : Input) : Except Fault (String × Input) := readTextFrom .empty s

theorem readTextFrom_length_lt {done : ByteArray} {s rest : Input} {text : String}
    (h : readTextFrom done s = .ok (text, rest)) : rest.length < s.length := by
  fun_induction readTextFrom done s with
  | case1 => cases h
  | case2 => cases h; simp
  | case3 => cases h
  | case4 done tail c rest' hx _ ih =>
    have := ih h
    have := readEscape_length_lt hx
    simp; omega
  | case5 => cases h
  | case6 => cases h
  | case7 done b tail _ _ _ ih =>
    have := ih h
    simp; omega

theorem readText_length_lt {s rest : Input} {text : String} (h : readText s = .ok (text, rest)) :
    rest.length < s.length :=
  readTextFrom_length_lt h

/-- Passes over an escape, behind its backslash. -/
def skipEscape : Input → Except Fault Input
  | [] => .error (.behind .endInText [])
  | b :: rest =>
    match shortEscape? b with
    | some _ => .ok rest
    | none =>
      if b = 0x75 then
        match readHex rest with
        | .ok (_, rest') => .ok rest'
        | .error f => .error f
      else .error (.behind .badEscape rest)

theorem skipEscape_length_lt {s rest : Input} (h : skipEscape s = .ok rest) :
    rest.length < s.length := by
  unfold skipEscape at h
  split at h
  · cases h
  · split at h
    · cases h; simp
    · split at h
      · split at h
        · next hx =>
          cases h
          have := readHex_length_lt hx
          simp; omega
        · cases h
      · cases h

/-- Passes over a string behind its opening quote. -/
def skipText (s : Input) : Except Fault Input :=
  match s with
  | [] => .error (.behind .endInText [])
  | b :: rest =>
    if b = quote then .ok rest
    else if b = backslash then
      match _ : skipEscape rest with
      | .ok rest' => skipText rest'
      | .error f => .error f
    else if b < space then .error (.behind .controlCharacter (b :: rest))
    else skipText rest
termination_by s.length
decreasing_by
  · have := skipEscape_length_lt ‹_›
    simp; omega
  · simp

theorem skipText_length_lt {s rest : Input} (h : skipText s = .ok rest) :
    rest.length < s.length := by
  fun_induction skipText s with
  | case1 => cases h
  | case2 => cases h; simp
  | case3 tail rest' hx _ ih =>
    have := ih h
    have := skipEscape_length_lt hx
    simp; omega
  | case4 => cases h
  | case5 => cases h
  | case6 b tail _ _ _ ih =>
    have := ih h
    simp; omega

end Json

end ControlPlane
