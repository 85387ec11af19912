import ControlPlane.Proofs.Json.StringForm
import ControlPlane.Proofs.Json.ValueSkip

/-!
# What is passed over is a value

Whatever is passed over in a text is derived by the grammar (`value_of_skipValue`), and so exactly the
values are passed over. Arrays and objects are gone through alike (`Nest.form_of_takeHops`): each of
their values is shorter than what it stands in, and has been dealt with before (`FormsWithin`).
-/

namespace ControlPlane

namespace Json

open Ascii

/-! ## White space and words -/

theorem exists_blanks (s : Input) : ∃ blanks, IsBlanks blanks ∧ s = blanks ++ skipBlanks s := by
  refine ⟨s.takeWhile isBlank, fun b hb => ?_, List.takeWhile_append_dropWhile.symm⟩
  have hblank : isBlank b = true := List.mem_takeWhile_imp hb
  simpa [isBlank, or_assoc] using hblank

theorem blanks_of_expectEnd {s : Input} (h : expectEnd s = .ok ()) : IsBlanks s := by
  obtain ⟨blanks, hblanks, hs⟩ := exists_blanks s
  unfold expectEnd at h
  split at h
  · next hnil =>
    rw [hnil, List.append_nil] at hs
    rwa [hs]
  · cases h

/-- Behind what is read of a whole text there is only white space. -/
theorem of_parseWith {α : Type} {reader : Reader α} {s : Input} {value : α}
    (h : parseWith reader s = .ok value) : ∃ rest, reader s = .ok (value, rest) ∧ IsBlanks rest := by
  unfold parseWith at h
  split at h
  · cases h
  · next rest hread =>
    split at h
    · cases h
    · next hend =>
      cases h
      exact ⟨rest, hread, blanks_of_expectEnd hend⟩

theorem eq_of_readWord {word : List UInt8} {s rest : Input} (h : readWord word s = .ok rest) :
    s = word ++ rest := by
  fun_induction readWord word s with
  | case1 s =>
    cases h
    rfl
  | case2 => cases h
  | case3 word b s ih => rw [ih h, List.cons_append]
  | case4 => cases h

theorem colon_of_readColon {s rest : Input} (h : readColon s = .ok rest) :
    ∃ blanks, IsBlanks blanks ∧ s = blanks ++ colon :: rest := by
  obtain ⟨blanks, hblanks, hs⟩ := exists_blanks s
  unfold readColon at h
  split at h
  · cases h
  · next b tail hb =>
    split_ifs at h with hcolon
    cases h
    exact ⟨blanks, hblanks, by rw [← hcolon, ← hb, ← hs]⟩

/-! ## Numbers -/

theorem digits_append (s : Input) : leadingDigits s ++ behindDigits s = s :=
  List.takeWhile_append_dropWhile

theorem isDigit_of_mem_leadingDigits {s : Input} {b : UInt8} (h : b ∈ leadingDigits s) :
    isDigit b = true :=
  List.mem_takeWhile_imp h

theorem isWhole_of_readWhole {s rest : Input} {digits : List UInt8}
    (h : readWhole s = .ok (digits, rest)) : IsWhole digits ∧ s = digits ++ rest := by
  unfold readWhole at h
  split at h
  · cases h
  · next b tail =>
    split at h
    · next hzero =>
      subst hzero
      split at h
      · split_ifs at h
        cases h
        exact ⟨.zero, rfl⟩
      · cases h
        exact ⟨.zero, rfl⟩
    · next hzero =>
      split_ifs at h with hb
      cases h
      refine ⟨.digits hb hzero fun d hd => isDigit_of_mem_leadingDigits hd, ?_⟩
      rw [List.cons_append, digits_append]

theorem readExponentSign_form (s : Input) :
    ∃ sign, sign ∈ ([[], [plus], [minus]] : List (List UInt8)) ∧
      s = sign ++ (readExponentSign s).2 := by
  unfold readExponentSign
  split
  · split_ifs with hplus hminus
    · exact ⟨[plus], by simp, by rw [hplus]; rfl⟩
    · exact ⟨[minus], by simp, by rw [hminus]; rfl⟩
    · exact ⟨[], by simp, rfl⟩
  · exact ⟨[], by simp, rfl⟩

theorem exponent_of_skipExponent {s rest : Input} (h : skipExponent s = .ok rest) :
    ∃ sign digits, sign ∈ ([[], [plus], [minus]] : List (List UInt8)) ∧ IsDigits digits ∧
      s = sign ++ (digits ++ rest) := by
  obtain ⟨sign, hsign, hs⟩ := readExponentSign_form s
  unfold skipExponent at h
  split at h
  · cases h
  · next b tail htail =>
    split_ifs at h with hb
    cases h
    refine ⟨sign, b :: leadingDigits tail, hsign, ⟨List.cons_ne_nil _ _, fun d hd => ?_⟩, ?_⟩
    · rcases List.mem_cons.mp hd with rfl | hd
      · exact hb
      · exact isDigit_of_mem_leadingDigits hd
    · rw [List.cons_append, digits_append, ← htail, ← hs]

theorem exponent_of_skipOptionalExponent {s rest : Input} (h : skipOptionalExponent s = .ok rest) :
    ∃ exponent, IsExponent exponent ∧ s = exponent ++ rest := by
  unfold skipOptionalExponent at h
  split at h
  · next b tail =>
    split_ifs at h with hmark
    · obtain ⟨sign, digits, hsign, hdigits, rfl⟩ := exponent_of_skipExponent h
      refine ⟨b :: (sign ++ digits), .digits ?_ hsign hdigits, ?_⟩
      · simpa [isExponentMark] using hmark
      · rw [List.cons_append, List.append_assoc]
    · cases h
      exact ⟨[], .none, rfl⟩
  · cases h
    exact ⟨[], .none, rfl⟩

theorem fraction_of_skipFraction {s rest : Input} (h : skipFraction s = .ok rest) :
    ∃ digits exponent, IsDigits digits ∧ IsExponent exponent ∧ s = digits ++ (exponent ++ rest) := by
  unfold skipFraction at h
  split at h
  · cases h
  · next hdigits =>
    obtain ⟨exponent, hexponent, hrest⟩ := exponent_of_skipOptionalExponent h
    refine ⟨leadingDigits s, exponent, ⟨?_, fun d hd => isDigit_of_mem_leadingDigits hd⟩,
      hexponent, ?_⟩
    · intro hnil
      exact hdigits hnil
    · rw [← hrest, digits_append]

/-- What is passed over as a number is one. -/
theorem unsigned_of_skipNumber {s rest : Input} (h : skipNumber s = .ok rest) :
    ∃ bytes, IsUnsigned bytes ∧ s = bytes ++ rest := by
  unfold skipNumber at h
  split at h
  · cases h
  · split at h
    · cases h
    · next whole tail hwhole =>
      obtain ⟨hform, rfl⟩ := isWhole_of_readWhole hwhole
      split at h
      · next b tail' _ =>
        split_ifs at h with hdot hmark
        · subst hdot
          obtain ⟨digits, exponent, hdigits, hexponent, rfl⟩ := fraction_of_skipFraction h
          exact ⟨whole ++ dot :: digits ++ exponent, .parts hform (.digits hdigits) hexponent, by simp⟩
        · have hoptional : skipOptionalExponent (b :: tail') = .ok rest := by
            rw [skipOptionalExponent, if_pos hmark, h]
          obtain ⟨exponent, hexponent, htail⟩ := exponent_of_skipOptionalExponent hoptional
          exact ⟨whole ++ [] ++ exponent, .parts hform .none hexponent, by simp [htail]⟩
        · cases h
          exact ⟨whole ++ [] ++ [], .parts hform .none .none, by simp⟩
      · cases h
        exact ⟨whole ++ [] ++ [], .parts hform .none .none, by simp⟩

/-! ## Scalars and labels -/

theorem scalar_of_skipScalar {b : UInt8} {tail rest : Input} (hs : IsEndOfText (b :: tail))
    (h : skipScalar b tail = .ok rest) :
    ∃ bytes, Derives .value bytes ∧ b :: tail = bytes ++ rest := by
  unfold skipScalar at h
  split_ifs at h with hnull htrue hfalse hminus hdigit hquote
  · subst hnull
    exact ⟨0x6E :: nullTail, .word (by decide), by rw [eq_of_readWord h, List.cons_append]⟩
  · subst htrue
    exact ⟨0x74 :: trueTail, .word (by decide), by rw [eq_of_readWord h, List.cons_append]⟩
  · subst hfalse
    exact ⟨0x66 :: falseTail, .word (by decide), by rw [eq_of_readWord h, List.cons_append]⟩
  · subst hminus
    obtain ⟨bytes, hbytes, rfl⟩ := unsigned_of_skipNumber h
    exact ⟨minus :: bytes, .negative hbytes, rfl⟩
  · obtain ⟨bytes, hbytes, hs⟩ := unsigned_of_skipNumber h
    exact ⟨bytes, .unsigned hbytes, hs⟩
  · subst hquote
    obtain ⟨letters, bytes, hletters, rfl⟩ := letters_of_skipText (hs.isText_behind (by decide)) h
    exact ⟨quote :: (bytes ++ [quote]), .text hletters, by simp⟩

theorem label_of_skipKey {s rest : Input} (hs : IsEndOfText s) (h : skipKey s = .ok rest) :
    ∃ key label, IsLabel key label ∧ s = label ++ rest := by
  obtain ⟨before, hbefore, hblanks⟩ := exists_blanks s
  have hsuffix := hs.of_suffix (skipBlanks_suffix s)
  unfold skipKey at h
  split at h
  · cases h
  · next b tail htail =>
    split_ifs at h with hquote
    subst hquote
    rw [htail] at hblanks hsuffix
    cases hskip : skipText tail with
    | error f => rw [hskip] at h; cases h
    | ok mid =>
      rw [hskip] at h
      obtain ⟨key, bytes, hkey, rfl⟩ := letters_of_skipText (hsuffix.isText_behind (by decide)) hskip
      obtain ⟨behind, hbehind, rfl⟩ := colon_of_readColon h
      exact ⟨key, _, .spaced hbefore hkey hbehind, by simp [hblanks]⟩

/-! ## Arrays and objects -/

/-- The phrases that stand in an array or in an object. -/
def Nest.Holds : Nest → List UInt8 → Prop
  | .list, bytes => Derives .items bytes
  | .object, bytes => ∃ entries, Derives (.members entries) bytes

/-- What stands before a value of an array or of an object. -/
def Nest.Labels : Nest → List UInt8 → Prop
  | .list, bytes => [] = bytes
  | .object, bytes => ∃ key, IsLabel key bytes

namespace Nest

variable {nest : Nest} {stack : List Nest} {label before bytes behind more : List UInt8}

theorem holds_one (hlabel : nest.Labels label) (hbefore : IsBlanks before)
    (h : Derives .value bytes) (hbehind : IsBlanks behind) :
    nest.Holds (label ++ (before ++ (bytes ++ behind))) := by
  cases nest with
  | list =>
    subst hlabel
    have hitems : Derives .items (before ++ (bytes ++ behind)) := .item hbefore h hbehind
    exact hitems
  | object =>
    obtain ⟨key, hkey⟩ := hlabel
    exact ⟨_, .member hkey hbefore h hbehind⟩

theorem holds_more (hlabel : nest.Labels label) (hbefore : IsBlanks before)
    (h : Derives .value bytes) (hbehind : IsBlanks behind) (hmore : nest.Holds more) :
    nest.Holds (label ++ (before ++ (bytes ++ (behind ++ comma :: more)))) := by
  cases nest with
  | list =>
    subst hlabel
    have hitems : Derives .items (before ++ (bytes ++ (behind ++ comma :: more))) :=
      .itemComma hbefore h hbehind hmore
    exact hitems
  | object =>
    obtain ⟨key, hkey⟩ := hlabel
    obtain ⟨entries, hentries⟩ := hmore
    exact ⟨_, .memberComma hkey hbefore h hbehind hentries⟩

theorem labels_of_skipLabel {s rest : Input} (hs : IsEndOfText s)
    (h : nest.skipLabel s = .ok rest) : ∃ label, nest.Labels label ∧ s = label ++ rest := by
  cases nest with
  | list =>
    cases h
    exact ⟨[], rfl, rfl⟩
  | object =>
    obtain ⟨key, label, hlabel, hs⟩ := label_of_skipKey hs h
    exact ⟨label, ⟨key, hlabel⟩, hs⟩

theorem skipLabel_skipBlanks {s mid rest : Input} (h : nest.skipLabel (skipBlanks s) = .ok mid)
    (hrest : takeHops (nest :: stack) false mid = .ok rest) :
    ∃ mid', nest.skipLabel s = .ok mid' ∧ takeHops (nest :: stack) false mid' = .ok rest := by
  cases nest with
  | list =>
    cases h
    exact ⟨s, rfl, by rwa [takeHops_skipBlanks] at hrest⟩
  | object => exact ⟨mid, (skipKey_skipBlanks s).symm.trans h, hrest⟩

end Nest

/-- Whether what is passed over in an input is a value, if the input is no longer than `n`. -/
def FormsWithin (n : Nat) : Prop :=
  ∀ {stack : List Nest} {s rest : Input}, s.length ≤ n → IsEndOfText s →
    takeHops stack false s = .ok rest → ∃ before bytes behind, IsBlanks before ∧
      Derives .value bytes ∧ s = before ++ (bytes ++ behind) ∧ takeHops stack true behind = .ok rest

/-- What is passed over in an array or an object is what may stand there, up to the closing sign. The
induction is on the length: behind a comma less is left. -/
theorem Nest.form_of_takeHops {n : Nat} (hn : FormsWithin n) {nest : Nest} {stack : List Nest}
    {s mid rest : Input} (hle : s.length ≤ n) (hs : IsEndOfText s)
    (hlabel : nest.skipLabel s = .ok mid) (h : takeHops (nest :: stack) false mid = .ok rest) :
    ∃ bytes behind, nest.Holds bytes ∧ s = bytes ++ nest.closing :: behind ∧
      takeHops stack true behind = .ok rest := by
  induction hk : s.length using Nat.strong_induction_on generalizing s mid with
  | _ k ih =>
    subst hk
    obtain ⟨label, hlabels, rfl⟩ := Nest.labels_of_skipLabel hs hlabel
    have hmid : IsEndOfText mid := hs.of_suffix (List.suffix_append label mid)
    have hlength : mid.length ≤ (label ++ mid).length := by
      rw [List.length_append]
      omega
    obtain ⟨before, bytes, behind, hbefore, hvalue, rfl, hbehind⟩ := hn (hlength.trans hle) hmid h
    obtain ⟨blanks, hblanks, heq⟩ := exists_blanks behind
    have hpassed := passedBehind_of_takeHops hbehind
    generalize skipBlanks behind = behind' at hpassed heq
    subst heq
    cases hpassed with
    | comma tail mid' hlabel' h' =>
      have hsuffix : tail <:+ label ++ (before ++ (bytes ++ (blanks ++ comma :: tail))) :=
        ⟨label ++ before ++ bytes ++ blanks ++ [comma], by simp⟩
      have hlt : tail.length < (label ++ (before ++ (bytes ++ (blanks ++ comma :: tail)))).length := by
        simp only [List.length_append, List.length_cons]
        omega
      obtain ⟨more, behind, hmore, rfl, hrest⟩ :=
        ih _ hlt (hlt.le.trans hle) (hs.of_suffix hsuffix) hlabel' h' rfl
      exact ⟨_, behind, Nest.holds_more hlabels hbefore hvalue hblanks hmore, by simp, hrest⟩
    | closing tail h' =>
      exact ⟨_, tail, Nest.holds_one hlabels hbefore hvalue hblanks, by simp, h'⟩

theorem Nest.form_of_entered {n : Nat} (hn : FormsWithin n) {nest : Nest} {stack : List Nest}
    {s rest : Input} (hle : s.length ≤ n) (hs : IsEndOfText s)
    (h : Entered nest stack rest (skipBlanks s)) :
    ∃ bytes behind, (IsBlanks bytes ∨ nest.Holds bytes) ∧ s = bytes ++ nest.closing :: behind ∧
      takeHops stack true behind = .ok rest := by
  obtain ⟨blanks, hblanks, heq⟩ := exists_blanks s
  generalize hs' : skipBlanks s = s' at h heq
  cases h with
  | empty tail h => exact ⟨blanks, tail, .inl hblanks, heq, h⟩
  | filled c tail mid hc hlabel h =>
    rw [← hs'] at hlabel
    obtain ⟨mid', hlabel', h'⟩ := Nest.skipLabel_skipBlanks hlabel h
    obtain ⟨bytes, behind, hholds, hbytes, hrest⟩ := Nest.form_of_takeHops hn hle hs hlabel' h'
    exact ⟨bytes, behind, .inr hholds, hbytes, hrest⟩

/-- The induction is on the length of the input. -/
theorem formsWithin (n : Nat) : FormsWithin n := by
  induction n with
  | zero =>
    intro stack s rest hle _ h
    obtain rfl : s = [] := List.length_eq_zero_iff.mp (Nat.le_zero.mp hle)
    cases passedBefore_of_takeHops h
  | succ n ih =>
    intro stack s rest hle hs h
    obtain ⟨before, hbefore, heq⟩ := exists_blanks s
    have hpassed := passedBefore_of_takeHops h
    have hsuffix := skipBlanks_suffix s
    generalize skipBlanks s = s' at hpassed heq hsuffix
    have hlength := hsuffix.length_le.trans hle
    have hend := hs.of_suffix hsuffix
    cases hpassed with
    | list tail hentered =>
      obtain ⟨bytes, behind, hform, rfl, hrest⟩ := Nest.form_of_entered ih
        (Nat.le_of_succ_le_succ hlength) (hend.of_suffix (List.suffix_cons _ _)) hentered
      refine ⟨before, openBracket :: (bytes ++ [closeBracket]), behind, hbefore, ?_, ?_, hrest⟩
      · rcases hform with hblanks | hitems
        · exact .emptyList hblanks
        · exact .list hitems
      · rw [heq, List.cons_append, List.append_assoc]
        rfl
    | object tail hentered =>
      obtain ⟨bytes, behind, hform, rfl, hrest⟩ := Nest.form_of_entered ih
        (Nat.le_of_succ_le_succ hlength) (hend.of_suffix (List.suffix_cons _ _)) hentered
      refine ⟨before, openBrace :: (bytes ++ [closeBrace]), behind, hbefore, ?_, ?_, hrest⟩
      · rcases hform with hblanks | ⟨entries, hmembers⟩
        · exact .emptyObject hblanks
        · exact .object hmembers
      · rw [heq, List.cons_append, List.append_assoc]
        rfl
    | scalar b tail behind _ _ hb hrest =>
      obtain ⟨bytes, hvalue, hbytes⟩ := scalar_of_skipScalar hend hb
      exact ⟨before, bytes, behind, hbefore, hvalue, by rw [heq, hbytes], hrest⟩

/-- What is passed over as a value is white space and a value. -/
theorem value_of_skipValue {s rest : Input} (hs : IsEndOfText s) (h : skipValue s = .ok rest) :
    ∃ before bytes, IsBlanks before ∧ Derives .value bytes ∧ s = before ++ (bytes ++ rest) := by
  obtain ⟨before, bytes, behind, hbefore, hvalue, hbytes, hbehind⟩ :=
    formsWithin s.length (Nat.le_refl _) hs h
  have hdone : takeHops [] true behind = .ok behind := takeHops_of_done rfl
  obtain rfl : behind = rest := Except.ok.inj (hdone.symm.trans hbehind)
  exact ⟨before, bytes, hbefore, hvalue, hbytes⟩

end Json

end ControlPlane
