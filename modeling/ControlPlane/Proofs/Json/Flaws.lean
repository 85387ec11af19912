import ControlPlane.Proofs.Json.NumberRange
import ControlPlane.Proofs.Json.Surrogates

/-!
# What the full reader does not read

A text can be JSON by the grammar and not be read in full. There are four reasons for that, and each
of them stands at a place of the text (`Flawed`): a number that is out of range, an array or object
inside of too many others, and a string with half a surrogate pair alone in it.
-/

namespace ControlPlane

namespace Json

open Ascii

/-- The faults for which an accepted document cannot be read. -/
def unreadableFaults : List FaultKind :=
  [.numberOutOfRange, .tooDeep, .loneSurrogate, .endOfHexEscape]

/--
What the grammar derives and the full reader does not read, given by what is wrong with it. The phrase
stands inside of `depth` arrays and objects.
-/
inductive Flawed (kind : FaultKind) : (depth : Nat) → Phrase → List UInt8 → Prop
  /-- A number is out of range, whatever its sign. -/
  | number {depth : Nat} {sign s : List UInt8} (hkind : kind = .numberOutOfRange)
    (hsign : sign ∈ ([[], [minus]] : List (List UInt8))) (h : OutOfRange s) :
    Flawed kind depth .value (sign ++ s)
  /-- Half a surrogate pair is alone in a string. -/
  | text {depth : Nat} {letters : List (Option Char)} {s : List UInt8} (hs : Letters letters s)
    (h : Unpaired kind s) : Flawed kind depth .value (quote :: (s ++ [quote]))
  /-- An array or object is nested too deeply. -/
  | deep {depth : Nat} {b : UInt8} {s : List UInt8} (hkind : kind = .tooDeep)
    (hdepth : depthLimit ≤ depth) (hb : b ∈ [openBracket, openBrace]) (h : Derives .value (b :: s)) :
    Flawed kind depth .value (b :: s)
  /-- There is a flaw in an array. -/
  | list {depth : Nat} {s : List UInt8} (h : Flawed kind (depth + 1) .items s) :
    Flawed kind depth .value (openBracket :: (s ++ [closeBracket]))
  /-- There is a flaw in an object. -/
  | object {depth : Nat} {entries : List (List (Option Char) × List UInt8)} {s : List UInt8}
    (h : Flawed kind (depth + 1) (.members entries) s) :
    Flawed kind depth .value (openBrace :: (s ++ [closeBrace]))
  /-- There is a flaw in the last item of an array. -/
  | item {depth : Nat} {before s behind : List UInt8} (hbefore : IsBlanks before)
    (h : Flawed kind depth .value s) (hbehind : IsBlanks behind) :
    Flawed kind depth .items (before ++ (s ++ behind))
  /-- There is a flaw in an item before a comma. -/
  | itemComma {depth : Nat} {before s behind rest : List UInt8} (hbefore : IsBlanks before)
    (h : Flawed kind depth .value s) (hbehind : IsBlanks behind) (hrest : Derives .items rest) :
    Flawed kind depth .items (before ++ (s ++ (behind ++ comma :: rest)))
  /-- There is a flaw in the items behind a comma. -/
  | laterItem {depth : Nat} {before s behind rest : List UInt8} (hbefore : IsBlanks before)
    (hs : Derives .value s) (hbehind : IsBlanks behind) (h : Flawed kind depth .items rest) :
    Flawed kind depth .items (before ++ (s ++ (behind ++ comma :: rest)))
  /-- Half a surrogate pair is alone in the first key of an object. -/
  | key {depth : Nat} {entries : List (List (Option Char) × List UInt8)} {key : List (Option Char)}
    {before s rest : List UInt8} (hbefore : IsBlanks before) (hs : Letters key s) (h : Unpaired kind s)
    (hmembers : Derives (.members entries) (before ++ quote :: (s ++ quote :: rest))) :
    Flawed kind depth (.members entries) (before ++ quote :: (s ++ quote :: rest))
  /-- There is a flaw in the value of the last member of an object. -/
  | member {depth : Nat} {key : List (Option Char)} {label before s behind : List UInt8}
    (hlabel : IsLabel key label) (hbefore : IsBlanks before) (h : Flawed kind depth .value s)
    (hbehind : IsBlanks behind) :
    Flawed kind depth (.members [(key, s)]) (label ++ (before ++ (s ++ behind)))
  /-- There is a flaw in the value of a member before a comma. -/
  | memberComma {depth : Nat} {key : List (Option Char)} {label before s behind rest : List UInt8}
    {entries : List (List (Option Char) × List UInt8)} (hlabel : IsLabel key label)
    (hbefore : IsBlanks before) (h : Flawed kind depth .value s) (hbehind : IsBlanks behind)
    (hrest : Derives (.members entries) rest) :
    Flawed kind depth (.members ((key, s) :: entries))
      (label ++ (before ++ (s ++ (behind ++ comma :: rest))))
  /-- There is a flaw in the members behind a comma. -/
  | laterMember {depth : Nat} {key : List (Option Char)} {label before s behind rest : List UInt8}
    {entries : List (List (Option Char) × List UInt8)} (hlabel : IsLabel key label)
    (hbefore : IsBlanks before) (hs : Derives .value s) (hbehind : IsBlanks behind)
    (h : Flawed kind depth (.members entries) rest) :
    Flawed kind depth (.members ((key, s) :: entries))
      (label ++ (before ++ (s ++ (behind ++ comma :: rest))))

variable {kind : FaultKind} {depth : Nat} {phrase : Phrase} {bytes : List UInt8}

theorem Unpaired.kind_mem {s : List UInt8} (h : Unpaired kind s) : kind ∈ unreadableFaults := by
  cases h with
  | trailing | leading | single => decide

namespace Flawed

/-- There are four kinds of flaws. -/
theorem kind_mem (h : Flawed kind depth phrase bytes) : kind ∈ unreadableFaults := by
  induction h with
  | number hkind =>
    subst hkind
    decide
  | deep hkind =>
    subst hkind
    decide
  | text _ h => exact h.kind_mem
  | key _ _ h => exact h.kind_mem
  | list _ ih => exact ih
  | object _ ih => exact ih
  | item _ _ _ ih => exact ih
  | itemComma _ _ _ _ ih => exact ih
  | laterItem _ _ _ _ ih => exact ih
  | member _ _ _ _ ih => exact ih
  | memberComma _ _ _ _ _ ih => exact ih
  | laterMember _ _ _ _ _ ih => exact ih

/-- What has a flaw is JSON nevertheless. -/
theorem derives (h : Flawed kind depth phrase bytes) : Derives phrase bytes := by
  induction h with
  | number _ hsign h =>
    simp only [List.mem_cons, List.not_mem_nil, or_false] at hsign
    rcases hsign with rfl | rfl
    · exact .unsigned h.isUnsigned
    · exact .negative h.isUnsigned
  | text hs => exact .text hs
  | deep _ _ _ h => exact h
  | list _ ih => exact .list ih
  | object _ ih => exact .object ih
  | item hbefore _ hbehind ih => exact .item hbefore ih hbehind
  | itemComma hbefore _ hbehind hrest ih => exact .itemComma hbefore ih hbehind hrest
  | laterItem hbefore hs hbehind _ ih => exact .itemComma hbefore hs hbehind ih
  | key _ _ _ hmembers => exact hmembers
  | member hlabel hbefore _ hbehind ih => exact .member hlabel hbefore ih hbehind
  | memberComma hlabel hbefore _ hbehind hrest ih => exact .memberComma hlabel hbefore ih hbehind hrest
  | laterMember hlabel hbefore hs hbehind _ ih => exact .memberComma hlabel hbefore hs hbehind ih

end Flawed

end Json

end ControlPlane
