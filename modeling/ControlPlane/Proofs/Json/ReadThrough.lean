import ControlPlane.Proofs.Json.ValueForm

/-!
# What is read can be passed over

Where the full reader comes to the end of a value, so does the reader that passes over it, and at the
same place (`takeHops_of_takeTurns`). One turn of the first is one hop of the second.
-/

namespace ControlPlane

namespace Json

open Ascii

/-! ## Numbers -/

theorem skipExponent_of_readExponent {significand : Significand} {negative : Bool} {s rest : Input}
    {n : Number} (h : readExponent significand negative s = .ok (n, rest)) :
    skipExponent s = .ok rest := by
  unfold readExponent at h
  dsimp only at h
  unfold skipExponent
  split at h
  · cases h
  · next b tail hs =>
    by_cases hb : isDigit b = true
    · obtain ⟨hok, herror⟩ := behindDigits_of_readExponentDigits (digitValue b) tail
      rw [if_pos hb] at h ⊢
      split at h
      · next he =>
        rw [Significand.finish_rest h]
        exact congrArg Except.ok (hok _ he).symm
      · next he =>
        split at h
        · cases h
        · cases h
          exact congrArg Except.ok (herror _ he).symm
    · rw [if_neg hb] at h
      cases h

theorem skipOptionalExponent_of_read {significand : Significand} {negative : Bool} {s rest : Input}
    {n : Number} (h : readOptionalExponent significand negative s = .ok (n, rest)) :
    skipOptionalExponent s = .ok rest := by
  unfold readOptionalExponent at h
  unfold skipOptionalExponent
  split at h
  · next b tail =>
    split_ifs at h ⊢ with hmark
    · exact skipExponent_of_readExponent h
    · rw [Significand.finish_rest h]
  · rw [Significand.finish_rest h]

/-- A number that is read can be passed over. -/
theorem skipNumber_of_readNumber {negative : Bool} {s rest : Input} {n : Number}
    (h : readNumber negative s = .ok (n, rest)) : skipNumber s = .ok rest := by
  unfold readNumber at h
  unfold skipNumber
  cases hwhole : readWhole s with
  | error f => rw [hwhole] at h; cases h
  | ok r =>
    obtain ⟨digits, tail⟩ := r
    rw [hwhole] at h
    simp only [bind, Except.bind] at h
    split
    · cases hwhole
    · split at h
      · next b tail =>
        dsimp only
        split_ifs at h ⊢ with hdot hmark hfull
        · split at h
          · cases h
          · next hdigits =>
            unfold readFractionDigits at hdigits
            unfold skipFraction
            split at hdigits
            · cases hdigits
            · next hne =>
              cases hdigits
              exact skipOptionalExponent_of_read h
        · exact skipExponent_of_readExponent h
        · rw [Significand.finish_rest h]
        · cases h
          rfl
      · dsimp only
        split_ifs at h with hfull
        · rw [Significand.finish_rest h]
        · cases h
          rfl

/-! ## Scalars and keys -/

theorem of_map {α β : Type} {r : Except Fault (α × Input)} {g : α → β} {b : β} {rest : Input}
    (h : (r.map fun a => (g a.1, a.2)) = .ok (b, rest)) : ∃ a, r = .ok (a, rest) ∧ b = g a := by
  cases r with
  | error f => cases h
  | ok a =>
    cases h
    exact ⟨a.1, rfl, rfl⟩

theorem of_map_readWord {word s rest : Input} {v value : Value}
    (h : (readWord word s).map (v, ·) = .ok (value, rest)) : readWord word s = .ok rest ∧ value = v := by
  cases hw : readWord word s with
  | error f => rw [hw] at h; cases h
  | ok rest' =>
    rw [hw] at h
    cases h
    exact ⟨rfl, rfl⟩

theorem skipScalar_of_readScalar {b : UInt8} {tail rest : Input} {value : Value}
    (hs : IsEndOfText (b :: tail)) (h : readScalar b tail = .ok (value, rest)) :
    skipScalar b tail = .ok rest := by
  unfold readScalar at h
  unfold skipScalar
  split_ifs at h ⊢ with hnull htrue hfalse hminus hdigit hquote
  · exact (of_map_readWord h).1
  · exact (of_map_readWord h).1
  · exact (of_map_readWord h).1
  · obtain ⟨n, hn, -⟩ := of_map h
    exact skipNumber_of_readNumber hn
  · obtain ⟨n, hn, -⟩ := of_map h
    exact skipNumber_of_readNumber hn
  · obtain ⟨text, htext, -⟩ := of_map h
    subst hquote
    exact skipText_of_readText (hs.isText_behind (by decide)) htext

theorem skipKey_of_readKey {s tail rest : Input} {key : String} (hs : IsEndOfText s)
    (htail : skipBlanks s = quote :: tail) (h : readKey tail = .ok (key, rest)) :
    skipKey s = .ok rest := by
  have hsuffix := hs.of_suffix (skipBlanks_suffix s)
  rw [htail] at hsuffix
  unfold readKey at h
  cases hread : readText tail with
  | error f => rw [hread] at h; cases h
  | ok r =>
    obtain ⟨key', mid⟩ := r
    rw [hread] at h
    simp only [bind, Except.bind] at h
    split at h
    · cases h
    · next hcolon =>
      cases h
      rw [skipKey, htail]
      dsimp only
      rw [if_pos rfl, skipText_of_readText (hsuffix.isText_behind (by decide)) hread]
      exact hcolon

/-! ## Turns and hops -/

variable {stack stack' : List Frame} {stage stage' : Stage} {s s' rest : Input}

theorem isBlank_of_skipBlanks {b : UInt8} {tail : Input} (h : skipBlanks s = b :: tail) :
    isBlank b = false := by
  have hdrop : s.dropWhile isBlank = b :: tail := h
  have hhead := List.head_dropWhile_not isBlank (hdrop ▸ List.cons_ne_nil b tail)
  simpa only [hdrop, List.head_cons] using hhead

theorem takeHops_of_turnBefore (hs : IsEndOfText s)
    (h : turnBefore stack s = .ok (.more stack' stage' s')) :
    takeHops (stack.map Frame.nest) false s = takeHops (stack'.map Frame.nest) stage'.isBehind s' := by
  have hsuffix := hs.of_suffix (skipBlanks_suffix s)
  rw [← takeHops_skipBlanks]
  unfold turnBefore at h
  split at h
  · cases h
  · next b tail hb =>
    rw [hb] at hsuffix ⊢
    have htail := hsuffix.of_suffix (List.suffix_cons b tail)
    obtain ⟨blanks, hblanks, heq⟩ := exists_blanks tail
    split_ifs at h with hlist hdepth hobject hdepth
    · subst hlist
      split at h
      · cases h
      · next c tail' hc =>
        split_ifs at h with hbracket
        · subst hbracket
          cases h
          rw [hc] at heq
          rw [heq]
          exact takeHops_list (enter_of_blanks hblanks s')
        · cases h
          exact takeHops_list (enter_of_skipLabel hc hbracket (by rw [hc]; rfl))
    · subst hobject
      split at h
      · cases h
      · next c tail' hc =>
        dsimp only at h
        by_cases hbrace : c = closeBrace
        · rw [if_pos hbrace] at h
          subst hbrace
          cases h
          rw [hc] at heq
          rw [heq]
          exact takeHops_object (enter_of_blanks hblanks s')
        · rw [if_neg hbrace] at h
          split_ifs at h with hquote
          subst hquote
          cases hkey : readKey tail' with
          | error f => rw [hkey] at h; cases h
          | ok r =>
            obtain ⟨key, mid⟩ := r
            rw [hkey] at h
            cases h
            have hskip := skipKey_of_readKey htail hc hkey
            rw [← skipKey_skipBlanks] at hskip
            exact takeHops_object (enter_of_skipLabel hc hbrace hskip)
    · cases hscalar : readScalar b tail with
      | error f => rw [hscalar] at h; cases h
      | ok r =>
        obtain ⟨value, mid⟩ := r
        rw [hscalar] at h
        cases h
        exact takeHops_of_scalar (isBlank_of_skipBlanks hb) hlist hobject
          (skipScalar_of_readScalar hsuffix hscalar)

theorem takeHops_of_turnInList {items : List Value}
    (h : turnInList items stack s = .ok (.more stack' stage' s')) :
    takeHops (.list :: stack.map Frame.nest) true s =
      takeHops (stack'.map Frame.nest) stage'.isBehind s' := by
  obtain ⟨blanks, hblanks, heq⟩ := exists_blanks s
  unfold turnInList at h
  split at h
  · cases h
  · next b tail hb =>
    rw [heq, hb]
    split_ifs at h with hbracket hcomma
    · subst hbracket
      cases h
      exact takeHops_closing .list hblanks s'
    · subst hcomma
      rw [takeHops_comma .list hblanks rfl]
      split at h
      · cases h
      · next c tail' hc =>
        split_ifs at h with hbracket'
        cases h
        rw [← takeHops_skipBlanks, hc]
        rfl

theorem takeHops_of_turnInObject {members : List (String × Value)} (hs : IsEndOfText s)
    (h : turnInObject members stack s = .ok (.more stack' stage' s')) :
    takeHops (.object :: stack.map Frame.nest) true s =
      takeHops (stack'.map Frame.nest) stage'.isBehind s' := by
  obtain ⟨blanks, hblanks, heq⟩ := exists_blanks s
  have hsuffix := hs.of_suffix (skipBlanks_suffix s)
  unfold turnInObject at h
  split at h
  · cases h
  · next b tail hb =>
    rw [hb] at hsuffix
    have htail := hsuffix.of_suffix (List.suffix_cons b tail)
    rw [heq, hb]
    split_ifs at h with hbrace hcomma
    · subst hbrace
      cases h
      exact takeHops_closing .object hblanks s'
    · subst hcomma
      split at h
      · cases h
      · next c tail' hc =>
        dsimp only at h
        by_cases hquote : c = quote
        · rw [if_pos hquote] at h
          subst hquote
          cases hkey : readKey tail' with
          | error f => rw [hkey] at h; cases h
          | ok r =>
            obtain ⟨key, mid⟩ := r
            rw [hkey] at h
            cases h
            exact takeHops_comma .object hblanks (skipKey_of_readKey htail hc hkey)
        · rw [if_neg hquote] at h
          split_ifs at h

theorem takeHops_of_turn (hs : IsEndOfText s) (h : turn stack stage s = .ok (.more stack' stage' s')) :
    takeHops (stack.map Frame.nest) stage.isBehind s =
      takeHops (stack'.map Frame.nest) stage'.isBehind s' := by
  cases stage with
  | before => exact takeHops_of_turnBefore hs h
  | behind value =>
    cases stack with
    | nil => cases h
    | cons frame stack =>
      cases frame with
      | list items => exact takeHops_of_turnInList h
      | object members key => exact takeHops_of_turnInObject hs h

/-- The reader is done only where nothing is open any more. -/
theorem of_turn_done {value : Value} (h : turn stack stage s = .ok (.done value rest)) :
    stack = [] ∧ stage = .behind value ∧ rest = s := by
  cases stage with
  | before =>
    simp only [turn, turnBefore, bind, Except.bind] at h
    repeat' split at h
    all_goals cases h
  | behind value' =>
    cases stack with
    | nil =>
      cases h
      exact ⟨rfl, rfl, rfl⟩
    | cons frame stack =>
      cases frame with
      | list items =>
        simp only [turn, turnInList] at h
        repeat' split at h
        all_goals cases h
      | object members key =>
        simp only [turn, turnInObject, bind, Except.bind] at h
        repeat' split at h
        all_goals cases h

/-- What is read, from where the reader stands up to the end, can be passed over. -/
theorem takeHops_of_takeTurns {value : Value} (hs : IsEndOfText s)
    (h : takeTurns stack stage s = .ok (value, rest)) :
    takeHops (stack.map Frame.nest) stage.isBehind s = .ok rest := by
  fun_induction takeTurns stack stage s with
  | case1 stack stage s value' rest' hturn =>
    cases h
    obtain ⟨rfl, rfl, rfl⟩ := of_turn_done hturn
    exact takeHops_of_done rfl
  | case2 stack stage s stack' stage' s' hturn ih =>
    have hkeeps := turn_keeps stack stage hs
    rw [hturn] at hkeeps
    cases hkeeps with
    | ok _ hsuffix =>
      rw [takeHops_of_turn hs hturn]
      exact ih (hs.of_suffix hsuffix) h
  | case3 => cases h

/-- A value that is read can be passed over. -/
theorem skipValue_of_readValue {value : Value} (hs : IsEndOfText s)
    (h : readValue s = .ok (value, rest)) : skipValue s = .ok rest := by
  have htake : takeHops (([] : List Frame).map Frame.nest) Stage.before.isBehind s = .ok rest :=
    takeHops_of_takeTurns hs h
  exact htake

end Json

end ControlPlane
