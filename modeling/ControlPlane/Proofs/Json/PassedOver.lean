import ControlPlane.Json.Skip
import Mathlib.Data.List.DropRight
import Mathlib.Tactic.SplitIfs

/-!
# How values are read and passed over

The full reader takes turns and the reader that passes over values takes hops. Here are the equations by
which both go on, and the ways in which a value is passed over, before it (`PassedBefore`) and behind it
(`PassedBehind`).
-/

namespace ControlPlane

namespace Json

open Ascii

/-! ## Strings and numbers -/

theorem skipText_backslash (s : Input) :
    skipText (backslash :: s) = (skipEscape s).bind skipText := by
  rw [skipText, if_neg (by decide), if_pos rfl]
  cases skipEscape s <;> rfl

theorem skipText_unicode (s : Input) :
    skipText (backslash :: 0x75 :: s) = (readHex s).bind fun a => skipText a.2 := by
  rw [skipText_backslash, skipEscape]
  cases hx : readHex s <;> rfl

/-- The digits of an exponent end at the same place, whether or not they are all counted. -/
theorem behindDigits_of_readExponentDigits (value : Nat) (s : Input) :
    (∀ r, readExponentDigits value s = .ok r → r.2 = behindDigits s) ∧
      ∀ rest, readExponentDigits value s = .error rest → behindDigits rest = behindDigits s := by
  fun_induction readExponentDigits value s with
  | case1 =>
    constructor
    · intro r h
      cases h
      rfl
    · intro rest h
      cases h
  | case2 value b rest hb value' hv =>
    constructor
    · intro r h
      cases h
    · intro rest' h
      cases h
      simp [behindDigits, hb]
  | case3 value b rest hb value' hv ih =>
    have hskip : behindDigits (b :: rest) = behindDigits rest := by simp [behindDigits, hb]
    rw [hskip]
    exact ih
  | case4 value b rest hb =>
    constructor
    · intro r h
      cases h
      simp [behindDigits, hb]
    · intro rest' h
      cases h

theorem skipBlanks_skipBlanks (s : Input) : skipBlanks (skipBlanks s) = skipBlanks s :=
  List.dropWhile_idempotent _ _

/-! ## Arrays and objects -/

/-- The kind of an open array or object. -/
def Frame.nest : Frame → Nest
  | .list _ => .list
  | .object _ _ => .object

/-- Whether the reader stands behind a value. -/
def Stage.isBehind : Stage → Bool
  | .before => false
  | .behind _ => true

theorem takeHops_of_more {stack stack' : List Nest} {behind behind' : Bool} {s rest : Input}
    (h : hop stack behind s = .ok (.more stack' behind' rest)) :
    takeHops stack behind s = takeHops stack' behind' rest := by
  rw [takeHops.eq_def]
  split
  · next hh => rw [h] at hh; cases hh
  · next hh => rw [h] at hh; cases hh; rfl
  · next hh => rw [h] at hh; cases hh

theorem takeHops_of_done {stack : List Nest} {behind : Bool} {s rest : Input}
    (h : hop stack behind s = .ok (.done rest)) : takeHops stack behind s = .ok rest := by
  rw [takeHops.eq_def]
  split
  · next hh => rw [h] at hh; cases hh; rfl
  · next hh => rw [h] at hh; cases hh
  · next hh => rw [h] at hh; cases hh

theorem takeHops_of_error {stack : List Nest} {behind : Bool} {s : Input} {f : Fault}
    (h : hop stack behind s = .error f) : takeHops stack behind s = .error f := by
  rw [takeHops.eq_def]
  split
  · next hh => rw [h] at hh; cases hh
  · next hh => rw [h] at hh; cases hh
  · next hh => rw [h] at hh; cases hh; rfl

theorem takeTurns_of_more {stack stack' : List Frame} {stage stage' : Stage} {s rest : Input}
    (h : turn stack stage s = .ok (.more stack' stage' rest)) :
    takeTurns stack stage s = takeTurns stack' stage' rest := by
  rw [takeTurns.eq_def]
  split
  · next hh => rw [h] at hh; cases hh
  · next hh => rw [h] at hh; cases hh; rfl
  · next hh => rw [h] at hh; cases hh

theorem takeTurns_of_error {stack : List Frame} {stage : Stage} {s : Input} {f : Fault}
    (h : turn stack stage s = .error f) : takeTurns stack stage s = .error f := by
  rw [takeTurns.eq_def]
  split
  · next hh => rw [h] at hh; cases hh
  · next hh => rw [h] at hh; cases hh
  · next hh => rw [h] at hh; cases hh; rfl

/-- A value that begins with neither a bracket nor a brace is read as a scalar. -/
theorem takeTurns_scalar {base : List Frame} {s tail : Input} {b : UInt8} (hs : skipBlanks s = b :: tail)
    (hlist : b ≠ openBracket) (hobject : b ≠ openBrace) :
    takeTurns base .before s =
      (readScalar b tail >>= fun r => takeTurns base (.behind r.1) r.2) := by
  have hturn : turn base .before s =
      (readScalar b tail >>= fun r => .ok (.more base (.behind r.1) r.2)) := by
    simp only [turn, turnBefore, hs]
    rw [if_neg hlist, if_neg hobject]
  cases hscalar : readScalar b tail with
  | error f =>
    rw [hscalar] at hturn
    exact takeTurns_of_error hturn
  | ok r =>
    rw [hscalar] at hturn
    exact takeTurns_of_more hturn

/-- Passing over a value begins with passing over white space. -/
theorem takeHops_skipBlanks (stack : List Nest) (s : Input) :
    takeHops stack false (skipBlanks s) = takeHops stack false s := by
  have hhop : hop stack false (skipBlanks s) = hop stack false s := by
    simp [hop, hopBefore, skipBlanks_skipBlanks]
  cases hh : hop stack false s with
  | error f => rw [takeHops_of_error hh, takeHops_of_error (hhop.trans hh)]
  | ok next =>
    cases next with
    | done rest => rw [takeHops_of_done hh, takeHops_of_done (hhop.trans hh)]
    | more stack' behind rest => rw [takeHops_of_more hh, takeHops_of_more (hhop.trans hh)]

/-- The ways in which a nest is entered. -/
inductive Entered (nest : Nest) (stack : List Nest) (rest : Input) : Input → Prop
  /-- It is empty. -/
  | empty (tail : Input) (h : takeHops stack true tail = .ok rest) :
    Entered nest stack rest (nest.closing :: tail)
  /-- Its first value follows. -/
  | filled (c : UInt8) (tail s : Input) (hc : c ≠ nest.closing)
    (hlabel : nest.skipLabel (c :: tail) = .ok s) (h : takeHops (nest :: stack) false s = .ok rest) :
    Entered nest stack rest (c :: tail)

/-- The ways in which passing over goes on before a value. -/
inductive PassedBefore (stack : List Nest) (rest : Input) : Input → Prop
  /-- An array is entered. -/
  | list (tail : Input) (h : Entered .list stack rest (skipBlanks tail)) :
    PassedBefore stack rest (openBracket :: tail)
  /-- An object is entered. -/
  | object (tail : Input) (h : Entered .object stack rest (skipBlanks tail)) :
    PassedBefore stack rest (openBrace :: tail)
  /-- The value is a scalar. -/
  | scalar (b : UInt8) (tail s : Input) (hlist : b ≠ openBracket) (hobject : b ≠ openBrace)
    (hb : skipScalar b tail = .ok s) (h : takeHops stack true s = .ok rest) :
    PassedBefore stack rest (b :: tail)

/-- The ways in which passing over goes on behind a value. -/
inductive PassedBehind (nest : Nest) (stack : List Nest) (rest : Input) : Input → Prop
  /-- Another value follows. -/
  | comma (tail s : Input) (hlabel : nest.skipLabel tail = .ok s)
    (h : takeHops (nest :: stack) false s = .ok rest) :
    PassedBehind nest stack rest (comma :: tail)
  /-- The nest ends. -/
  | closing (tail : Input) (h : takeHops stack true tail = .ok rest) :
    PassedBehind nest stack rest (nest.closing :: tail)

theorem passedBefore_of_takeHops {stack : List Nest} {s rest : Input}
    (h : takeHops stack false s = .ok rest) : PassedBefore stack rest (skipBlanks s) := by
  have hhop : hop stack false s = hopBefore stack s := rfl
  cases hh : hopBefore stack s with
  | error f => rw [takeHops_of_error (hhop.trans hh)] at h; cases h
  | ok next =>
    cases next with
    | done s' => exact absurd hh (takeHops_length_le.hopBefore_ne_done stack s s')
    | more stack' behind s' =>
      rw [takeHops_of_more (hhop.trans hh)] at h
      unfold hopBefore at hh
      split at hh
      · cases hh
      · next b tail hs =>
        rw [hs]
        split_ifs at hh with hlist hobject
        · subst hlist
          exact .list tail (entered hh h)
        · subst hobject
          exact .object tail (entered hh h)
        · cases hb : skipScalar b tail with
          | error f => rw [hb] at hh; cases hh
          | ok r =>
            rw [hb] at hh
            cases hh
            exact .scalar b tail _ hlist hobject hb h
where
  entered {nest : Nest} {stack stack' : List Nest} {behind : Bool} {s s' rest : Input}
      (hh : enter nest stack s = .ok (.more stack' behind s'))
      (h : takeHops stack' behind s' = .ok rest) : Entered nest stack rest (skipBlanks s) := by
    unfold enter at hh
    split at hh
    · cases hh
    · next c tail hs =>
      rw [hs]
      split_ifs at hh with hc
      · cases hh
        subst hc
        exact .empty _ h
      · cases hl : nest.skipLabel (c :: tail) with
        | error f => rw [hl] at hh; cases hh
        | ok r =>
          rw [hl] at hh
          cases hh
          exact .filled c tail _ hc hl h

theorem passedBehind_of_takeHops {nest : Nest} {stack : List Nest} {s rest : Input}
    (h : takeHops (nest :: stack) true s = .ok rest) :
    PassedBehind nest stack rest (skipBlanks s) := by
  cases hh : hop (nest :: stack) true s with
  | error f => rw [takeHops_of_error hh] at h; cases h
  | ok next =>
    have hbehind : hopBehind (nest :: stack) s = .ok next := hh
    simp only [hopBehind] at hbehind
    split at hbehind
    · cases hbehind
    · next b tail hs =>
      rw [hs]
      split_ifs at hbehind with hcomma hclosing
      · cases hl : nest.skipLabel tail with
        | error f => rw [hl] at hbehind; cases hbehind
        | ok r =>
          rw [hl] at hbehind
          cases hbehind
          rw [takeHops_of_more hh] at h
          subst hcomma
          exact .comma tail r hl h
      · cases hbehind
        rw [takeHops_of_more hh] at h
        subst hclosing
        exact .closing tail h

end Json

end ControlPlane
