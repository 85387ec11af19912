import ControlPlane.Proofs.Json.StringRead

/-!
# Values are passed over

Whatever the grammar derives is passed over to its end, however deeply it is nested
(`takeHops_of_derives`). The induction is on the derivation: a value leaves the reader behind itself
with the same stack, and what is between the signs of an array or an object leaves it behind the
closing sign. A number ends where none of its bytes can follow (`EndsNumber`).
-/

namespace ControlPlane

namespace Json

open Ascii

/-! ## White space -/

theorem skipBlanks_append {blanks : List UInt8} (h : IsBlanks blanks) (s : Input) :
    skipBlanks (blanks ++ s) = skipBlanks s := by
  induction blanks with
  | nil => rfl
  | cons b blanks ih =>
    have hb : isBlank b = true := by
      have hmem := h b List.mem_cons_self
      simp only [List.mem_cons, List.not_mem_nil, or_false] at hmem
      rcases hmem with rfl | rfl | rfl | rfl <;> rfl
    rw [List.cons_append, skipBlanks, List.dropWhile_cons, if_pos hb]
    exact ih fun d hd => h d (List.mem_cons_of_mem b hd)

theorem skipBlanks_cons {b : UInt8} (h : isBlank b = false) (s : Input) :
    skipBlanks (b :: s) = b :: s := by
  rw [skipBlanks, List.dropWhile_cons, if_neg (by rw [h]; decide)]

/-- A text may end in white space. -/
theorem parseWith_of_blanks {α : Type} {reader : Reader α} {s rest : Input} {value : α}
    (h : reader s = .ok (value, rest)) (hrest : IsBlanks rest) : parseWith reader s = .ok value := by
  have hend : expectEnd rest = .ok () := by
    have hblank := skipBlanks_append hrest []
    rw [List.append_nil] at hblank
    rw [expectEnd, hblank]
    rfl
  unfold parseWith
  rw [h]
  dsimp only
  rw [hend]

/-! ## Numbers -/

/-- Whether a number ends before a text: the text does not go on with a digit, a point or an exponent. -/
def EndsNumber (rest : Input) : Prop :=
  ∀ b ∈ rest.head?, isDigit b = false ∧ b ≠ dot ∧ isExponentMark b = false

/-- Whether digits end before a text. -/
def EndsDigits (rest : Input) : Prop := ∀ b ∈ rest.head?, isDigit b = false

theorem leadingDigits_append {digits : List UInt8} (h : ∀ b ∈ digits, isDigit b) {rest : Input}
    (hrest : EndsDigits rest) : leadingDigits (digits ++ rest) = digits := by
  rw [leadingDigits, List.takeWhile_append_of_pos h]
  cases rest with
  | nil => simp
  | cons b rest =>
    have hb : isDigit b = false := hrest b rfl
    rw [List.takeWhile_cons, if_neg (by rw [hb]; decide), List.append_nil]

theorem behindDigits_append {digits : List UInt8} (h : ∀ b ∈ digits, isDigit b) {rest : Input}
    (hrest : EndsDigits rest) : behindDigits (digits ++ rest) = rest := by
  rw [behindDigits, List.dropWhile_append_of_pos h]
  cases rest with
  | nil => rfl
  | cons b rest =>
    have hb : isDigit b = false := hrest b rfl
    rw [List.dropWhile_cons, if_neg (by rw [hb]; decide)]

theorem readWhole_of_isWhole {whole : List UInt8} (h : IsWhole whole) {rest : Input}
    (hrest : EndsDigits rest) : readWhole (whole ++ rest) = .ok (whole, rest) := by
  cases h with
  | zero =>
    unfold readWhole
    dsimp only [List.cons_append, List.nil_append]
    rw [if_pos rfl]
    cases rest with
    | nil => rfl
    | cons b rest =>
      have hb : isDigit b = false := hrest b rfl
      exact if_neg (by rw [hb]; decide)
  | @digits b s hb hzero hs =>
    unfold readWhole
    dsimp only [List.cons_append]
    rw [if_neg hzero, if_pos hb, leadingDigits_append hs hrest, behindDigits_append hs hrest]

theorem skipExponent_of_isDigits {sign s : List UInt8}
    (hsign : sign ∈ ([[], [plus], [minus]] : List (List UInt8))) (h : IsDigits s) {rest : Input}
    (hrest : EndsDigits rest) : skipExponent (sign ++ (s ++ rest)) = .ok rest := by
  obtain ⟨hne, hdigits⟩ := h
  obtain ⟨d, s', rfl⟩ := List.exists_cons_of_ne_nil hne
  have hd : isDigit d = true := hdigits d List.mem_cons_self
  have hsigned : (readExponentSign (sign ++ (d :: s' ++ rest))).2 = d :: (s' ++ rest) := by
    simp only [List.mem_cons, List.not_mem_nil, or_false] at hsign
    rcases hsign with rfl | rfl | rfl
    · have hplus : d ≠ plus := by
        rintro rfl
        cases hd
      have hminus : d ≠ minus := by
        rintro rfl
        cases hd
      rw [List.nil_append, List.cons_append, readExponentSign, if_neg hplus, if_neg hminus]
    · rfl
    · rfl
  rw [skipExponent, hsigned]
  dsimp only
  rw [if_pos hd, behindDigits_append (fun b hb => hdigits b (List.mem_cons_of_mem d hb)) hrest]

/-- What follows the digits of a number is passed over. -/
theorem skipOptionalExponent_of_isExponent {exponent : List UInt8} (h : IsExponent exponent)
    {rest : Input} (hrest : EndsNumber rest) :
    skipOptionalExponent (exponent ++ rest) = .ok rest ∧ EndsDigits (exponent ++ rest) := by
  cases h with
  | none =>
    refine ⟨?_, fun b hb => (hrest b hb).1⟩
    rw [List.nil_append]
    cases rest with
    | nil => rfl
    | cons b rest =>
      have hb : isExponentMark b = false := (hrest b rfl).2.2
      rw [skipOptionalExponent, if_neg (by rw [hb]; decide)]
  | @digits mark sign s hmark hsign hdigits =>
    have hmark' : isExponentMark mark = true ∧ isDigit mark = false := by
      simp only [List.mem_cons, List.not_mem_nil, or_false] at hmark
      rcases hmark with rfl | rfl <;> exact ⟨rfl, rfl⟩
    refine ⟨?_, ?_⟩
    · rw [List.cons_append, List.append_assoc, skipOptionalExponent, if_pos hmark'.1]
      exact skipExponent_of_isDigits hsign hdigits fun b hb => (hrest b hb).1
    · intro b hb
      obtain rfl : mark = b := Option.some.inj hb
      exact hmark'.2

theorem skipNumber_eq {s : Input} (hs : s ≠ []) :
    skipNumber s = (readWhole s).bind fun r => match r.2 with
      | b :: tail =>
        if b = dot then skipFraction tail
        else if isExponentMark b then skipExponent tail
        else .ok r.2
      | [] => .ok [] := by
  cases s with
  | nil => exact absurd rfl hs
  | cons b s =>
    unfold skipNumber
    dsimp only
    cases readWhole (b :: s) <;> rfl

theorem IsWhole.append_ne_nil {whole : List UInt8} (h : IsWhole whole) (rest : Input) :
    whole ++ rest ≠ [] := by
  cases h <;> exact List.cons_ne_nil _ _

theorem skipNumber_point {whole : List UInt8} (h : IsWhole whole) (rest : Input) :
    skipNumber (whole ++ dot :: rest) = skipFraction rest := by
  have hpoint : EndsDigits (dot :: rest) := by
    intro b hb
    cases hb
    rfl
  rw [skipNumber_eq (h.append_ne_nil _), readWhole_of_isWhole h hpoint]
  rfl

theorem skipNumber_behind {whole : List UInt8} (h : IsWhole whole) {rest : Input}
    (hrest : EndsDigits rest) (hdot : rest.head? ≠ some dot) :
    skipNumber (whole ++ rest) = skipOptionalExponent rest := by
  rw [skipNumber_eq (h.append_ne_nil _), readWhole_of_isWhole h hrest]
  cases rest with
  | nil => rfl
  | cons b rest =>
    have hb : b ≠ dot := fun he => hdot (congrArg some he)
    exact if_neg hb

theorem skipNumber_of_isUnsigned {s : List UInt8} (h : IsUnsigned s) {rest : Input}
    (hrest : EndsNumber rest) : skipNumber (s ++ rest) = .ok rest := by
  cases h with
  | @parts whole fraction exponent hwhole hfraction hexponent =>
    obtain ⟨hskip, hends⟩ := skipOptionalExponent_of_isExponent hexponent hrest
    rw [List.append_assoc, List.append_assoc]
    cases hfraction with
    | none =>
      have hdot : (exponent ++ rest).head? ≠ some dot := by
        cases hexponent with
        | none => exact fun he => (hrest dot he).2.1 rfl
        | @digits mark _ _ hmark =>
          intro he
          cases he
          exact absurd hmark (by decide)
      rw [List.nil_append, skipNumber_behind hwhole hends hdot, hskip]
    | @digits part hpart =>
      obtain ⟨hne, hdigits⟩ := hpart
      obtain ⟨d, part, rfl⟩ := List.exists_cons_of_ne_nil hne
      rw [List.cons_append, skipNumber_point hwhole, skipFraction, leadingDigits_append hdigits hends,
        behindDigits_append hdigits hends]
      exact hskip

/-! ## Signs around values -/

/-- Whether a byte is neither white space nor a closing sign. -/
def StartsValue (b : UInt8) : Prop := isBlank b = false ∧ b ≠ closeBracket ∧ b ≠ closeBrace

theorem startsValue_of_isDigit {b : UInt8} (hb : isDigit b = true) : StartsValue b := by
  have hne {d : UInt8} (hd : isDigit d = false) : b ≠ d := by
    rintro rfl
    rw [hb] at hd
    cases hd
  have hspace : b ≠ space := hne rfl
  have htab : b ≠ tab := hne rfl
  have hfeed : b ≠ lineFeed := hne rfl
  have hreturn : b ≠ carriageReturn := hne rfl
  refine ⟨?_, hne rfl, hne rfl⟩
  simp [isBlank, hspace, htab, hfeed, hreturn]

theorem exists_head_of_isUnsigned {s : List UInt8} (h : IsUnsigned s) :
    ∃ b tail, s = b :: tail ∧ isDigit b = true := by
  cases h with
  | @parts whole fraction exponent hwhole _ _ =>
    cases hwhole with
    | zero => exact ⟨zero, fraction ++ exponent, rfl, rfl⟩
    | @digits b s hb _ _ => exact ⟨b, s ++ fraction ++ exponent, rfl, hb⟩

theorem exists_head_of_value {s : List UInt8} (h : Derives .value s) :
    ∃ b tail, s = b :: tail ∧ StartsValue b := by
  cases h with
  | word h =>
    simp only [words, List.mem_cons, List.not_mem_nil, or_false] at h
    rcases h with rfl | rfl | rfl <;> exact ⟨_, _, rfl, by decide, by decide, by decide⟩
  | unsigned h =>
    obtain ⟨b, tail, rfl, hb⟩ := exists_head_of_isUnsigned h
    exact ⟨b, tail, rfl, startsValue_of_isDigit hb⟩
  | negative | text | emptyList | list | emptyObject | object =>
    exact ⟨_, _, rfl, by decide, by decide, by decide⟩

/-- Behind white space, items start with a value. -/
theorem exists_head_of_items {s : List UInt8} (h : Derives .items s) (rest : Input) :
    ∃ b tail, skipBlanks (s ++ rest) = b :: tail ∧ StartsValue b := by
  have hvalue {before s behind : List UInt8} (hbefore : IsBlanks before) (h : Derives .value s) :
      ∃ b tail, skipBlanks (before ++ (s ++ behind) ++ rest) = b :: tail ∧ StartsValue b := by
    obtain ⟨b, tail, rfl, hb⟩ := exists_head_of_value h
    refine ⟨b, tail ++ behind ++ rest, ?_, hb⟩
    rw [List.append_assoc, skipBlanks_append hbefore, List.cons_append, List.cons_append,
      skipBlanks_cons hb.1]
  cases h with
  | item hbefore h _ => exact hvalue hbefore h
  | itemComma hbefore h _ _ => exact hvalue hbefore h

/-- Behind white space, members start with the quote of a key. -/
theorem exists_quote_of_members {entries : List (List (Option Char) × List UInt8)} {s : List UInt8}
    (h : Derives (.members entries) s) (rest : Input) :
    ∃ tail, skipBlanks (s ++ rest) = quote :: tail := by
  have hlabel {key : List (Option Char)} {label : List UInt8} (h : IsLabel key label)
      (behind : List UInt8) : ∃ tail, skipBlanks (label ++ behind ++ rest) = quote :: tail := by
    cases h with
    | @spaced before s behind' hbefore _ _ =>
      refine ⟨s ++ quote :: (behind' ++ [colon]) ++ (behind ++ rest), ?_⟩
      rw [List.append_assoc, List.append_assoc, skipBlanks_append hbefore, List.cons_append,
        skipBlanks_cons (by decide)]
  cases h with
  | member h _ _ _ => exact hlabel h _
  | memberComma h _ _ _ _ => exact hlabel h _

/-- What follows a value in a nest is white space and a sign that no number goes on with. -/
theorem endsNumber_behind {blanks : List UInt8} (h : IsBlanks blanks) {b : UInt8}
    (hb : b ∈ [comma, closeBracket, closeBrace]) (rest : Input) :
    EndsNumber (blanks ++ b :: rest) := by
  intro d hd
  have hmem : d ∈ [space, tab, lineFeed, carriageReturn] ++ [comma, closeBracket, closeBrace] := by
    cases blanks with
    | nil =>
      cases hd
      exact List.mem_append_right _ hb
    | cons c blanks =>
      cases hd
      exact List.mem_append_left _ (h _ List.mem_cons_self)
  have hall : ([space, tab, lineFeed, carriageReturn] ++ [comma, closeBracket, closeBrace]).all
      (fun d => !isDigit d && d != dot && !isExponentMark d) = true := by
    decide
  simpa [and_assoc] using List.all_eq_true.mp hall d hmem

theorem skipKey_skipBlanks (s : Input) : skipKey (skipBlanks s) = skipKey s := by
  rw [skipKey, skipBlanks_skipBlanks, skipKey]

theorem skipKey_of_isLabel {key : List (Option Char)} {label : List UInt8} (h : IsLabel key label)
    (rest : Input) : skipKey (label ++ rest) = .ok rest := by
  cases h with
  | @spaced before s behind hbefore h hbehind =>
    have hcolon : readColon (behind ++ [colon] ++ rest) = .ok rest := by
      rw [List.append_assoc, readColon, skipBlanks_append hbehind]
      rfl
    have htext := skipText_of_letters h (behind ++ [colon] ++ rest)
    rw [List.append_assoc, List.cons_append, List.append_assoc, List.cons_append, skipKey,
      skipBlanks_append hbefore, skipBlanks_cons (by decide)]
    dsimp only
    rw [if_pos rfl, htext]
    exact hcolon

/-! ## Hops -/

variable {stack : List Nest}

theorem takeHops_of_blanks {blanks : List UInt8} (h : IsBlanks blanks) (s : Input) :
    takeHops stack false (blanks ++ s) = takeHops stack false s := by
  rw [← takeHops_skipBlanks, skipBlanks_append h, takeHops_skipBlanks]

theorem skipScalar_of_isDigit {b : UInt8} (hb : isDigit b = true) (rest : Input) :
    skipScalar b rest = skipNumber (b :: rest) := by
  have hne {d : UInt8} (hd : isDigit d = false) : b ≠ d := by
    rintro rfl
    rw [hb] at hd
    cases hd
  rw [skipScalar, if_neg (hne rfl), if_neg (hne rfl), if_neg (hne rfl), if_neg (hne rfl), if_pos hb]

theorem takeHops_of_scalar {b : UInt8} {rest tail : Input} (hb : isBlank b = false)
    (hlist : b ≠ openBracket) (hobject : b ≠ openBrace) (h : skipScalar b rest = .ok tail) :
    takeHops stack false (b :: rest) = takeHops stack true tail := by
  refine takeHops_of_more ?_
  show hopBefore stack (b :: rest) = _
  rw [hopBefore, skipBlanks_cons hb]
  dsimp only
  rw [if_neg hlist, if_neg hobject, h]
  rfl

/-- A nest that is empty is left at once. -/
theorem enter_of_blanks {nest : Nest} {blanks : List UInt8} (h : IsBlanks blanks) (rest : Input) :
    enter nest stack (blanks ++ nest.closing :: rest) = .ok (.more stack true rest) := by
  have hclosing : isBlank nest.closing = false := by cases nest <;> rfl
  rw [enter, skipBlanks_append h, skipBlanks_cons hclosing]
  exact if_pos rfl

theorem enter_of_skipLabel {nest : Nest} {s tail mid : Input} {b : UInt8}
    (hs : skipBlanks s = b :: tail) (hb : b ≠ nest.closing)
    (h : nest.skipLabel (skipBlanks s) = .ok mid) :
    enter nest stack s = .ok (.more (nest :: stack) false mid) := by
  rw [hs] at h
  rw [enter, hs]
  dsimp only
  rw [if_neg hb, h]
  rfl

theorem takeHops_list {s mid : Input} {stack' : List Nest} {behind : Bool}
    (h : enter .list stack s = .ok (.more stack' behind mid)) :
    takeHops stack false (openBracket :: s) = takeHops stack' behind mid :=
  takeHops_of_more h

theorem takeHops_object {s mid : Input} {stack' : List Nest} {behind : Bool}
    (h : enter .object stack s = .ok (.more stack' behind mid)) :
    takeHops stack false (openBrace :: s) = takeHops stack' behind mid :=
  takeHops_of_more h

theorem takeHops_closing (nest : Nest) {blanks : List UInt8} (h : IsBlanks blanks) (rest : Input) :
    takeHops (nest :: stack) true (blanks ++ nest.closing :: rest) = takeHops stack true rest := by
  have hclosing : isBlank nest.closing = false := by cases nest <;> rfl
  have hcomma : nest.closing ≠ comma := by cases nest <;> decide
  refine takeHops_of_more ?_
  show hopBehind (nest :: stack) (blanks ++ nest.closing :: rest) = _
  rw [hopBehind, skipBlanks_append h, skipBlanks_cons hclosing]
  dsimp only
  rw [if_neg hcomma, if_pos rfl]

theorem takeHops_comma (nest : Nest) {blanks : List UInt8} (h : IsBlanks blanks) {rest mid : Input}
    (hlabel : nest.skipLabel rest = .ok mid) :
    takeHops (nest :: stack) true (blanks ++ comma :: rest) = takeHops (nest :: stack) false mid := by
  refine takeHops_of_more ?_
  show hopBehind (nest :: stack) (blanks ++ comma :: rest) = _
  rw [hopBehind, skipBlanks_append h, skipBlanks_cons (by decide)]
  dsimp only
  rw [if_pos rfl, hlabel]
  rfl

/-! ## Phrases -/

/-- How a phrase is passed over. A value is passed over with any stack. The items of an array and the
members of an object are passed over up to the closing sign, which takes the nest off the stack. -/
def PassesOver : Phrase → List UInt8 → Prop
  | .value, s => ∀ (stack : List Nest) (rest : Input), EndsNumber rest →
      takeHops stack false (s ++ rest) = takeHops stack true rest
  | .items, s => ∀ (stack : List Nest) (rest : Input),
      takeHops (.list :: stack) false (s ++ closeBracket :: rest) = takeHops stack true rest
  | .members _, s => ∀ (stack : List Nest) (rest : Input), ∃ mid,
      skipKey (s ++ closeBrace :: rest) = .ok mid ∧
      takeHops (.object :: stack) false mid = takeHops stack true rest

/-- A value between white space in a nest is passed over up to the sign behind it. -/
theorem takeHops_of_passesOver {before s behind : List UInt8} (hbefore : IsBlanks before)
    (h : PassesOver .value s) (hbehind : IsBlanks behind) {b : UInt8}
    (hb : b ∈ [comma, closeBracket, closeBrace]) (rest : Input) :
    takeHops stack false (before ++ (s ++ (behind ++ b :: rest))) =
      takeHops stack true (behind ++ b :: rest) := by
  rw [takeHops_of_blanks hbefore]
  exact h stack _ (endsNumber_behind hbehind hb rest)

theorem passesOver_of_derives {phrase : Phrase} {s : List UInt8} (h : Derives phrase s) :
    PassesOver phrase s := by
  induction h with
  | word h =>
    intro stack rest _
    simp only [words, List.mem_cons, List.not_mem_nil, or_false] at h
    rcases h with rfl | rfl | rfl
    all_goals exact takeHops_of_scalar (by decide) (by decide) (by decide) rfl
  | unsigned h =>
    intro stack rest hrest
    obtain ⟨b, tail, rfl, hb⟩ := exists_head_of_isUnsigned h
    have hskip : skipScalar b (tail ++ rest) = .ok rest := by
      rw [skipScalar_of_isDigit hb]
      exact skipNumber_of_isUnsigned h hrest
    obtain ⟨hlist, hobject⟩ : b ≠ openBracket ∧ b ≠ openBrace := by
      refine ⟨?_, ?_⟩ <;> rintro rfl <;> cases hb
    exact takeHops_of_scalar (startsValue_of_isDigit hb).1 hlist hobject hskip
  | negative h =>
    intro stack rest hrest
    refine takeHops_of_scalar (by decide) (by decide) (by decide) ?_
    exact skipNumber_of_isUnsigned h hrest
  | @text letters s h =>
    intro stack rest _
    rw [List.cons_append, List.append_assoc]
    refine takeHops_of_scalar (by decide) (by decide) (by decide) ?_
    exact skipText_of_letters h rest
  | emptyList h =>
    intro stack rest _
    rw [List.cons_append, List.append_assoc]
    exact takeHops_list (enter_of_blanks h rest)
  | @list s hitems ih =>
    intro stack rest _
    obtain ⟨b, tail, hs, hb⟩ := exists_head_of_items hitems (closeBracket :: rest)
    have henter : enter .list stack (s ++ closeBracket :: rest) =
        .ok (.more (.list :: stack) false (skipBlanks (s ++ closeBracket :: rest))) :=
      enter_of_skipLabel hs hb.2.1 rfl
    rw [List.cons_append, List.append_assoc]
    refine (takeHops_list henter).trans ?_
    rw [takeHops_skipBlanks]
    exact ih stack rest
  | emptyObject h =>
    intro stack rest _
    rw [List.cons_append, List.append_assoc]
    exact takeHops_object (enter_of_blanks h rest)
  | @object entries s hmembers ih =>
    intro stack rest _
    obtain ⟨mid, hkey, htake⟩ := ih stack rest
    obtain ⟨tail, hs⟩ := exists_quote_of_members hmembers (closeBrace :: rest)
    have henter : enter .object stack (s ++ closeBrace :: rest) =
        .ok (.more (.object :: stack) false mid) :=
      enter_of_skipLabel hs (by decide) ((skipKey_skipBlanks _).trans hkey)
    rw [List.cons_append, List.append_assoc]
    exact (takeHops_object henter).trans htake
  | @item before s behind hbefore _ hbehind ih =>
    intro stack rest
    rw [List.append_assoc, List.append_assoc,
      takeHops_of_passesOver hbefore ih hbehind (by decide) rest]
    exact takeHops_closing .list hbehind rest
  | @itemComma before s behind tail hbefore _ hbehind _ ih ihrest =>
    intro stack rest
    rw [List.append_assoc, List.append_assoc, List.append_assoc, List.cons_append,
      takeHops_of_passesOver hbefore ih hbehind (by decide), takeHops_comma .list hbehind rfl]
    exact ihrest stack rest
  | @member key label before s behind hlabel hbefore _ hbehind ih =>
    intro stack rest
    rw [List.append_assoc, List.append_assoc, List.append_assoc]
    refine ⟨_, skipKey_of_isLabel hlabel _, ?_⟩
    rw [takeHops_of_passesOver hbefore ih hbehind (by decide) rest]
    exact takeHops_closing .object hbehind rest
  | @memberComma key label before s behind tail entries hlabel hbefore _ hbehind _ ih ihrest =>
    intro stack rest
    obtain ⟨mid, hkey, htake⟩ := ihrest stack rest
    rw [List.append_assoc, List.append_assoc, List.append_assoc, List.append_assoc, List.cons_append]
    refine ⟨_, skipKey_of_isLabel hlabel _, ?_⟩
    rw [takeHops_of_passesOver hbefore ih hbehind (by decide), takeHops_comma .object hbehind hkey]
    exact htake

/-- A value is passed over to its end. -/
theorem skipValue_of_derives {s : List UInt8} (h : Derives .value s) {rest : Input}
    (hrest : EndsNumber rest) : skipValue (s ++ rest) = .ok rest := by
  have hpass : takeHops [] false (s ++ rest) = takeHops [] true rest :=
    passesOver_of_derives h [] rest hrest
  rw [skipValue, hpass]
  exact takeHops_of_done rfl

end Json

end ControlPlane
