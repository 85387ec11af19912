import ControlPlane.Proofs.Json.MemberRead
import ControlPlane.Proofs.Json.PrintedScalar

/-!
# What is printed is read back

Compact text is read as the value that was printed (`ReadsAs`): truth values, strings, whole numbers of
64 bits, arrays, and objects, whose members are put into the order of their keys. Each kind of value has
a lemma of its own, so the text of a value that is put together is read by putting the lemmas together.
-/

namespace ControlPlane

namespace Json

open Ascii Utf8

/-! ## Values -/

/-- Whether a text is read as a value wherever the value may stand, with room for so many arrays and
objects that are open inside it. -/
structure ReadsAs (room : Nat) (text : String) (value : Value) : Prop where
  /-- The text begins with a value. -/
  starts : ∃ b tail, bytes text = b :: tail ∧ StartsValue b
  /-- The text is read to its end. -/
  reads : ∀ (base : List Frame) (rest : Input), base.length + room ≤ depthLimit → EndsNumber rest →
    takeTurns base .before (bytes text ++ rest) = takeTurns base (.behind value) rest

theorem readsAs_of_scalar {room : Nat} {text : String} {value : Value} {b : UInt8} {tail : List UInt8}
    (htext : bytes text = b :: tail) (hb : StartsValue b) (hlist : b ≠ openBracket)
    (hobject : b ≠ openBrace)
    (h : ∀ rest, EndsNumber rest → readScalar b (tail ++ rest) = .ok (value, rest)) :
    ReadsAs room text value where
  starts := ⟨b, tail, htext, hb⟩
  reads base rest _ hrest := by
    rw [htext, List.cons_append, takeTurns_scalar (skipBlanks_cons hb.1 _) hlist hobject, h rest hrest]
    rfl

theorem startsValue_of_mem {b : UInt8}
    (h : b ∈ ([quote, openBracket, openBrace, 0x6E, 0x74, 0x66] : List UInt8)) : StartsValue b := by
  have hall : ([quote, openBracket, openBrace, 0x6E, 0x74, 0x66] : List UInt8).all
      (fun b => !isBlank b && b != closeBracket && b != closeBrace) = true := by
    decide
  simpa [StartsValue, and_assoc] using List.all_eq_true.mp hall b h

theorem readsAs_bool (room : Nat) (value : Bool) :
    ReadsAs room (Value.print (.bool value)) (.bool value) := by
  cases value
  · exact readsAs_of_scalar rfl (startsValue_of_mem (b := 0x66) (by decide)) (by decide) (by decide)
      fun _ _ => rfl
  · exact readsAs_of_scalar rfl (startsValue_of_mem (b := 0x74) (by decide)) (by decide) (by decide)
      fun _ _ => rfl

theorem readsAs_text (room : Nat) (text : String) :
    ReadsAs room (Value.print (.text text)) (.text text) := by
  have hprint : Value.print (.text text) = printText text := rfl
  rw [hprint]
  refine readsAs_of_scalar (bytes_printText text) (startsValue_of_mem (by decide)) (by decide)
    (by decide) ?_
  intro rest _
  have hscalar (s : Input) : readScalar quote s = (readText s).map fun r => (.text r.1, r.2) := rfl
  rw [hscalar, List.append_assoc, List.singleton_append, readText_escaped]
  rfl

theorem readScalar_of_isDigit {b : UInt8} (hb : isDigit b = true) (rest : Input) :
    readScalar b rest = (readNumber false (b :: rest)).map fun r => (.number r.1, r.2) := by
  have hne {d : UInt8} (hd : isDigit d = false) : b ≠ d := by
    rintro rfl
    rw [hb] at hd
    cases hd
  unfold readScalar
  rw [if_neg (hne rfl), if_neg (hne rfl), if_neg (hne rfl), if_neg (hne rfl), if_pos hb]

theorem readsAs_whole (room : Nat) {n : Nat} (h : n ≤ significandLimit) :
    ReadsAs room (Value.print (.number (.whole n))) (.number (.whole n)) := by
  have hprint : Value.print (.number (.whole n)) = n.repr := rfl
  have hunsigned : IsUnsigned (bytes n.repr) := by
    simpa using IsUnsigned.parts (isWhole_repr n) .none .none
  obtain ⟨b, tail, hbytes, hb⟩ := exists_head_of_isUnsigned hunsigned
  have hne {d : UInt8} (hd : isDigit d = false) : b ≠ d := by
    rintro rfl
    rw [hb] at hd
    cases hd
  rw [hprint]
  refine readsAs_of_scalar hbytes (startsValue_of_isDigit hb) (hne rfl) (hne rfl) ?_
  intro rest hrest
  rw [readScalar_of_isDigit hb, ← List.cons_append, ← hbytes, readNumber_repr h hrest]
  rfl

/-! ## Arrays -/

theorem joinWithCommas_singleton (text : String) : joinWithCommas [text] = text :=
  String.intercalate_singleton

theorem bytes_joinWithCommas (text next : String) (texts : List String) :
    bytes (joinWithCommas (text :: next :: texts)) =
      bytes text ++ comma :: bytes (joinWithCommas (next :: texts)) := by
  unfold joinWithCommas
  rw [String.intercalate_cons_cons, bytes_append, bytes_append, List.append_assoc]
  rfl

/-- Joined texts begin with the first of them. -/
theorem exists_bytes_joinWithCommas (text : String) (texts : List String) :
    ∃ tail, bytes (joinWithCommas (text :: texts)) = bytes text ++ tail := by
  cases texts with
  | nil => exact ⟨[], by rw [joinWithCommas_singleton, List.append_nil]⟩
  | cons next texts => exact ⟨_, bytes_joinWithCommas text next texts⟩

theorem endsNumber_cons {b : UInt8} (hb : b ∈ [comma, closeBracket, closeBrace]) (rest : Input) :
    EndsNumber (b :: rest) := by
  exact endsNumber_behind isBlanks_nil hb rest

theorem exists_head_of_printItems {room : Nat} {item item' : Value}
    (h : ReadsAs room item.print item') (items : List Value) (rest : Input) :
    ∃ b tail, bytes (joinWithCommas (printItems (item :: items))) ++ rest = b :: tail ∧
      StartsValue b := by
  obtain ⟨b, front, hfront, hb⟩ := h.starts
  obtain ⟨tail, htail⟩ := exists_bytes_joinWithCommas item.print (printItems items)
  refine ⟨b, front ++ tail ++ rest, ?_, hb⟩
  rw [printItems, htail, hfront]
  rfl

/-- An item is followed by the closing bracket. -/
theorem takeTurns_listClosing {base : List Frame} {done : List Value} {value : Value}
    {blanks : List UInt8} (h : IsBlanks blanks) (rest : Input) :
    takeTurns (.list done :: base) (.behind value) (blanks ++ closeBracket :: rest) =
      takeTurns base (.behind (.list (value :: done).reverse)) rest := by
  refine takeTurns_of_more ?_
  rw [turn, turnInList, skipBlanks_append h, skipBlanks_cons (by decide)]
  rfl

/-- An item is followed by a comma and another item. -/
theorem takeTurns_listComma {base : List Frame} {done : List Value} {value : Value}
    {blanks : List UInt8} (h : IsBlanks blanks) {s tail : Input} {b : UInt8}
    (hs : skipBlanks s = b :: tail) (hb : b ≠ closeBracket) :
    takeTurns (.list done :: base) (.behind value) (blanks ++ comma :: s) =
      takeTurns (.list (value :: done) :: base) .before (b :: tail) := by
  refine takeTurns_of_more ?_
  show turnInList _ _ _ = _
  rw [turnInList, skipBlanks_append h, skipBlanks_cons (by decide)]
  dsimp only
  rw [if_neg (by decide), if_pos rfl, hs]
  exact if_neg hb

theorem takeTurns_closeBracket (base : List Frame) (done : List Value) (value : Value) (rest : Input) :
    takeTurns (.list done :: base) (.behind value) (closeBracket :: rest) =
      takeTurns base (.behind (.list (value :: done).reverse)) rest :=
  takeTurns_listClosing isBlanks_nil rest

theorem takeTurns_item {base : List Frame} {done : List Value} {value : Value} {b : UInt8}
    {rest : Input} (hb : StartsValue b) :
    takeTurns (.list done :: base) (.behind value) (comma :: b :: rest) =
      takeTurns (.list (value :: done) :: base) .before (b :: rest) :=
  takeTurns_listComma isBlanks_nil (skipBlanks_cons hb.1 rest) hb.2.1

/-- The induction is on the items that are still to be read. -/
theorem takeTurns_items {room : Nat} {item item' : Value} {items items' : List Value}
    (hitem : ReadsAs room item.print item')
    (hitems : List.Forall₂ (fun item item' => ReadsAs room item.print item') items items')
    {base : List Frame} (hroom : base.length + (room + 1) ≤ depthLimit) (rest : Input)
    (done : List Value) :
    takeTurns (.list done :: base) .before
        (bytes (joinWithCommas (printItems (item :: items))) ++ closeBracket :: rest) =
      takeTurns base (.behind (.list (done.reverse ++ item' :: items'))) rest := by
  have hlength (done : List Value) : (Frame.list done :: base).length + room ≤ depthLimit := by
    rw [List.length_cons]
    omega
  induction hitems generalizing item item' done with
  | nil =>
    rw [printItems, printItems, joinWithCommas_singleton,
      hitem.reads _ _ (hlength done) (endsNumber_cons (by decide) rest), takeTurns_closeBracket,
      List.reverse_cons]
  | @cons next next' items items' hnext _ ih =>
    obtain ⟨b, tail, hhead, hb⟩ := exists_head_of_printItems hnext items (closeBracket :: rest)
    rw [printItems, printItems, bytes_joinWithCommas, List.append_assoc, List.cons_append,
      ← printItems, hitem.reads _ _ (hlength done) (endsNumber_cons (by decide) _), hhead,
      takeTurns_item hb, ← hhead, ih hnext, List.reverse_cons, List.append_assoc,
      List.singleton_append]

theorem readsAs_list {room : Nat} {items items' : List Value}
    (h : List.Forall₂ (fun item item' => ReadsAs room item.print item') items items') :
    ReadsAs (room + 1) (Value.print (.list items)) (.list items') := by
  have hprint : bytes (Value.print (.list items)) =
      openBracket :: (bytes (joinWithCommas (printItems items)) ++ [closeBracket]) := by
    rw [Value.print, bytes_append, bytes_append]
    rfl
  refine ⟨⟨_, _, hprint, startsValue_of_mem (by decide)⟩, ?_⟩
  intro base rest hroom _
  have hdeep : ¬ depthLimit ≤ base.length := by omega
  rw [hprint, List.cons_append, List.append_assoc, List.singleton_append]
  cases h with
  | nil =>
    refine takeTurns_of_more ?_
    rw [turn, turnBefore, skipBlanks_cons (by decide)]
    dsimp only
    rw [if_pos rfl, if_neg hdeep]
    rfl
  | @cons item item' items items' hitem hitems =>
    obtain ⟨b, tail, hhead, hb⟩ := exists_head_of_printItems hitem items (closeBracket :: rest)
    have hopen : takeTurns base .before (openBracket :: b :: tail) =
        takeTurns (.list [] :: base) .before (b :: tail) := by
      refine takeTurns_of_more ?_
      rw [turn, turnBefore, skipBlanks_cons (by decide)]
      dsimp only
      rw [if_pos rfl, if_neg hdeep, skipBlanks_cons hb.1]
      exact if_neg hb.2.1
    rw [hhead, hopen, ← hhead, takeTurns_items hitem hitems hroom]
    rfl

/-! ## Objects -/

/-- Whether a member is read as another one, under the same key. -/
def MemberReadsAs (room : Nat) (member member' : String × Value) : Prop :=
  member.1 = member'.1 ∧ ReadsAs room member.2.print member'.2

theorem printMembers_cons (member : String × Value) (members : List (String × Value)) :
    printMembers (member :: members) =
      (printText member.1 ++ ":" ++ member.2.print) :: printMembers members := rfl

/-- Behind its opening quote, a printed member is a key, a colon and a value. -/
theorem bytes_member (key : String) (value : Value) :
    bytes (printText key ++ ":" ++ value.print) =
      quote :: (escaped key ++ quote :: colon :: bytes value.print) := by
  rw [bytes_append, bytes_append, bytes_printText, List.cons_append, List.append_assoc,
    List.cons_append, List.append_assoc, List.singleton_append]
  rfl

theorem readColon_cons (rest : Input) : readColon (colon :: rest) = .ok rest :=
  readColon_of_blanks isBlanks_nil rest

theorem readKey_escaped (key : String) (rest : Input) :
    readKey (escaped key ++ quote :: colon :: rest) = .ok (key, rest) := by
  rw [readKey, readText_escaped]
  simp only [bind, Except.bind]
  rw [readColon_cons]

/-- A member is followed by the closing brace. -/
theorem takeTurns_objectClosing {base : List Frame} {done : List (String × Value)} {key : String}
    {value : Value} {blanks : List UInt8} (h : IsBlanks blanks) (rest : Input) :
    takeTurns (.object done key :: base) (.behind value) (blanks ++ closeBrace :: rest) =
      takeTurns base (.behind (.ofMembers ((key, value) :: done).reverse)) rest := by
  refine takeTurns_of_more ?_
  rw [turn, turnInObject, skipBlanks_append h, skipBlanks_cons (by decide)]
  rfl

theorem takeTurns_closeBrace (base : List Frame) (done : List (String × Value)) (key : String)
    (value : Value) (rest : Input) :
    takeTurns (.object done key :: base) (.behind value) (closeBrace :: rest) =
      takeTurns base (.behind (.ofMembers ((key, value) :: done).reverse)) rest :=
  takeTurns_objectClosing isBlanks_nil rest

/-- A member is followed by a comma and another member. -/
theorem takeTurns_member (base : List Frame) (done : List (String × Value)) (key next : String)
    (value : Value) (rest : Input) :
    takeTurns (.object done key :: base) (.behind value)
        (comma :: quote :: (escaped next ++ quote :: colon :: rest)) =
      takeTurns (.object ((key, value) :: done) next :: base) .before rest := by
  refine takeTurns_of_more ?_
  rw [turn, turnInObject, skipBlanks_cons (by decide)]
  dsimp only
  rw [if_neg (by decide), if_pos rfl, skipBlanks_cons (by decide)]
  dsimp only
  rw [if_pos rfl, readKey_escaped]
  rfl

/-- Joined members begin with a key, behind which they are read. The induction is on the members that
are still to be read. -/
theorem takeTurns_members {room : Nat} (key : String) {value value' : Value}
    {members members' : List (String × Value)} (hvalue : ReadsAs room value.print value')
    (hmembers : List.Forall₂ (MemberReadsAs room) members members') {base : List Frame}
    (hroom : base.length + (room + 1) ≤ depthLimit) (rest : Input) :
    ∃ tail, bytes (joinWithCommas (printMembers ((key, value) :: members))) ++ closeBrace :: rest =
        quote :: (escaped key ++ quote :: colon :: tail) ∧
      ∀ done, takeTurns (.object done key :: base) .before tail =
        takeTurns base (.behind (.ofMembers (done.reverse ++ (key, value') :: members'))) rest := by
  have hlength (done : List (String × Value)) (key : String) :
      (Frame.object done key :: base).length + room ≤ depthLimit := by
    rw [List.length_cons]
    omega
  induction hmembers generalizing key value value' with
  | nil =>
    refine ⟨bytes value.print ++ closeBrace :: rest, ?_, ?_⟩
    · rw [printMembers_cons, printMembers, joinWithCommas_singleton, bytes_member]
      simp
    · intro done
      rw [hvalue.reads _ _ (hlength done key) (endsNumber_cons (by decide) rest),
        takeTurns_closeBrace, List.reverse_cons]
  | @cons member member' members members' hmember _ ih =>
    obtain ⟨next, value₂⟩ := member
    obtain ⟨next', value₂'⟩ := member'
    obtain ⟨rfl, hvalue₂⟩ := hmember
    obtain ⟨tail, htail, hreads⟩ := ih next hvalue₂
    refine ⟨bytes value.print ++ comma :: quote :: (escaped next ++ quote :: colon :: tail), ?_, ?_⟩
    · rw [← htail, printMembers_cons, printMembers_cons, bytes_joinWithCommas, bytes_member,
        ← printMembers_cons]
      simp
    · intro done
      rw [hvalue.reads _ _ (hlength done key) (endsNumber_cons (by decide) _), takeTurns_member, hreads,
        List.reverse_cons, List.append_assoc, List.singleton_append]

theorem readsAs_object {room : Nat} {members members' : List (String × Value)}
    (h : List.Forall₂ (MemberReadsAs room) members members') :
    ReadsAs (room + 1) (Value.print (.object members)) (.ofMembers members') := by
  have hprint : bytes (Value.print (.object members)) =
      openBrace :: (bytes (joinWithCommas (printMembers members)) ++ [closeBrace]) := by
    rw [Value.print, bytes_append, bytes_append]
    rfl
  refine ⟨⟨_, _, hprint, startsValue_of_mem (by decide)⟩, ?_⟩
  intro base rest hroom _
  have hdeep : ¬ depthLimit ≤ base.length := by omega
  rw [hprint, List.cons_append, List.append_assoc, List.singleton_append]
  cases h with
  | nil =>
    refine takeTurns_of_more ?_
    rw [turn, turnBefore, skipBlanks_cons (by decide)]
    dsimp only
    rw [if_neg (by decide), if_pos rfl, if_neg hdeep]
    rfl
  | @cons member member' members members' hmember hmembers =>
    obtain ⟨key, value⟩ := member
    obtain ⟨key', value'⟩ := member'
    obtain ⟨rfl, hvalue⟩ := hmember
    obtain ⟨tail, htail, hreads⟩ := takeTurns_members key hvalue hmembers hroom rest
    have hopen : takeTurns base .before
        (openBrace :: quote :: (escaped key ++ quote :: colon :: tail)) =
          takeTurns (.object [] key :: base) .before tail := by
      refine takeTurns_of_more ?_
      rw [turn, turnBefore, skipBlanks_cons (by decide)]
      dsimp only
      rw [if_neg (by decide), if_pos rfl, if_neg hdeep, skipBlanks_cons (by decide)]
      dsimp only
      rw [if_neg (by decide), if_pos rfl, readKey_escaped]
      rfl
    rw [htail, hopen, hreads]
    rfl

/-! ## Whole texts -/

/-- A text that is read as a value holds the value and nothing else. -/
theorem ReadsAs.parse {room : Nat} {text : String} {value : Value} (h : ReadsAs room text value)
    (hroom : room ≤ depthLimit) : Value.parse (bytes text) = .ok value := by
  have hends : EndsNumber [] := nofun
  have hbase : ([] : List Frame).length + room ≤ depthLimit := by
    rw [List.length_nil]
    omega
  have hread : readValue (bytes text) = .ok (value, []) := by
    have hturns := h.reads [] [] hbase hends
    rw [List.append_nil] at hturns
    rw [readValue, hturns, takeTurns.eq_def]
    rfl
  rw [Value.parse, parseWith, hread]
  rfl

/-! ## Members by their keys -/

theorem lookup_toList (map : Std.TreeMap String Value) (key : String) :
    map.toList.lookup key = map[key]? := by
  ext value
  rw [List.lookup_eq_some_iff, ← Std.TreeMap.mem_toList_iff_getElem?_eq_some]
  constructor
  · rintro ⟨before, after, hsplit, -⟩
    rw [hsplit]
    simp
  · intro hmem
    obtain ⟨before, after, hsplit⟩ := List.append_of_mem hmem
    refine ⟨before, after, hsplit, ?_⟩
    have hdistinct := map.distinct_keys_toList
    rw [hsplit, List.pairwise_append] at hdistinct
    intro entry hentry
    have hne : ¬ compare entry.1 key = .eq :=
      hdistinct.2.2 entry hentry (key, value) List.mem_cons_self
    rw [compare_eq_iff_eq] at hne
    exact bne_iff_ne.mpr fun he => hne he.symm

/-- The members of an object are looked up as they were given, the last of one key first. -/
theorem member?_ofMembers (members : List (String × Value)) (key : String) :
    (Value.ofMembers members).member? key = members.reverse.lookup key := by
  rw [Value.ofMembers, Value.member?, lookup_toList, ← List.foldr_reverse]
  induction members.reverse with
  | nil => simp
  | cons member members ih =>
    obtain ⟨name, value⟩ := member
    rw [List.foldr_cons, Std.TreeMap.getElem?_insert, ih, List.lookup_cons]
    by_cases hname : name = key
    · rw [if_pos (compare_eq_iff_eq.mpr hname), hname, beq_self_eq_true]
    · rw [if_neg fun he => hname (compare_eq_iff_eq.mp he),
        beq_eq_false_iff_ne.mpr fun he => hname he.symm]

/-! ## The order of members -/

/-- Members with keys that are not in a map are added to it. -/
theorem toList_foldl_insert {members : List (String × Value)} {map : Std.TreeMap String Value}
    (hkeys : (members ++ map.toList).Pairwise fun a b => a.1 ≠ b.1) :
    (members.foldl (fun map m => map.insert m.1 m.2) map).toList.Perm (members ++ map.toList) := by
  induction members generalizing map with
  | nil => exact .refl _
  | cons member members ih =>
    obtain ⟨key, value⟩ := member
    rw [List.cons_append, List.pairwise_cons] at hkeys
    obtain ⟨hkey, hkeys⟩ := hkeys
    have hnew : map.toList.filter (fun entry => ¬ (key == entry.1)) = map.toList := by
      refine List.filter_eq_self.mpr fun entry hentry => ?_
      simpa using hkey entry (List.mem_append_right members hentry)
    have hinsert : (map.insert key value).toList.Perm ((key, value) :: map.toList) := by
      have h := Std.TreeMap.toList_insert_perm (t := map) (k := key) (v := value)
      rwa [hnew] at h
    have hmove : (members ++ (map.insert key value).toList).Perm
        ((key, value) :: (members ++ map.toList)) :=
      (hinsert.append_left members).trans List.perm_middle
    refine (ih ?_).trans hmove
    refine (hmove.pairwise_iff fun h => Ne.symm h).mpr ?_
    exact List.pairwise_cons.mpr ⟨hkey, hkeys⟩

/-- Members are put into the order of their keys. -/
theorem ofMembers_of_perm {members members' : List (String × Value)} (hperm : members.Perm members')
    (hordered : members'.Pairwise fun a b => a.1 < b.1) : Value.ofMembers members = .object members' := by
  have hempty : (∅ : Std.TreeMap String Value).toList = [] := rfl
  have hdistinct : (members ++ (∅ : Std.TreeMap String Value).toList).Pairwise
      fun a b => a.1 ≠ b.1 := by
    rw [hempty, List.append_nil]
    exact (hperm.pairwise_iff fun h => Ne.symm h).mpr (hordered.imp fun h => ne_of_lt h)
  have hlist := toList_foldl_insert hdistinct
  rw [hempty, List.append_nil] at hlist
  have hkeys := (members.foldl (fun map m => map.insert m.1 m.2)
    (∅ : Std.TreeMap String Value)).ordered_keys_toList
  have hsorted := hkeys.imp fun h => compareOfLessAndEq_eq_lt.mp h
  unfold Value.ofMembers
  congr 1
  refine List.Perm.eq_of_pairwise ?_ hsorted hordered (hlist.trans hperm)
  intro a b _ _ hab hba
  exact absurd hab (lt_asymm hba)

end Json

end ControlPlane
