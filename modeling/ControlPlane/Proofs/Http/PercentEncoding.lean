import ControlPlane.Proofs.Http.Reaching
import ControlPlane.Proofs.Text.Utf8Order

/-!
# Percent-encoded names and tokens

A client that percent-encodes the UTF-8 form of a name or a token, all but the unreserved bytes
(`percentEncode`), can put it into a path or a query: no sign that has a meaning there is left, and the
same bytes come out again. So a path of an encoded name names the member with that name
(`ofPath?_memberPath`), and a query of an encoded token gives that token (`readToken_tokenQuery`).
-/

namespace ControlPlane

namespace Http

open Ascii

/-! ## Encoding -/

/-- Whether a byte is left as it is: a letter, a digit, or one of the signs `-`, `.`, `_` and `~`. -/
def isUnreserved (b : UInt8) : Bool :=
  isLetter b || isDigit b || ([minus, dot, 0x5F, 0x7E] : List UInt8).contains b

/-- The encoded form of a byte. -/
def encodeByte (b : UInt8) : List UInt8 :=
  if isUnreserved b then [b]
  else [percent, upperHexDigit (b.toNat / 16), upperHexDigit (b.toNat % 16)]

/-- The encoded form of bytes. -/
def percentEncode (s : List UInt8) : List UInt8 := s.flatMap encodeByte

/-- What the bytes of an encoded form are like: they belong to a path, and none has a meaning of its own
in a path or a query. -/
structure IsInert (b : UInt8) : Prop where
  /-- The byte is ASCII. -/
  ascii : b < 0x80
  /-- The byte may stand in a path. -/
  path : isPathByte b
  /-- The byte is no sign that divides a target. -/
  sign : b ∉ [slash, question, hash, ampersand, equals, plus]

theorem bounds_of_isUnreserved {b : UInt8} (h : isUnreserved b) : 0x20 < b ∧ b < 0x80 := by
  simp only [isUnreserved, isLetter, isDigit, Bool.or_eq_true, Bool.and_eq_true, decide_eq_true_eq,
    List.contains_iff_mem, List.mem_cons, List.not_mem_nil, or_false, UInt8.le_iff_toNat_le] at h
  rw [UInt8.lt_iff_toNat_lt, UInt8.lt_iff_toNat_lt]
  have hrange {least greatest : Nat} (hleast : 0x20 < least) (hgreatest : greatest < 0x80)
      (hb : least ≤ b.toNat ∧ b.toNat ≤ greatest) : 0x20 < b.toNat ∧ b.toNat < 0x80 :=
    ⟨Nat.lt_of_lt_of_le hleast hb.1, Nat.lt_of_le_of_lt hb.2 hgreatest⟩
  rcases h with ((hupper | hlower) | hdigit) | rfl | rfl | rfl | rfl
  · exact hrange (by decide) (by decide) hupper
  · exact hrange (by decide) (by decide) hlower
  · exact hrange (by decide) (by decide) hdigit
  all_goals exact ⟨by decide, by decide⟩

/-- What is left as it is is not among bytes that are not. -/
theorem not_mem_of_isUnreserved {b : UInt8} (h : isUnreserved b) {others : List UInt8}
    (hothers : others.all (fun c => !isUnreserved c) = true) : b ∉ others := by
  intro hmem
  have hb := List.all_eq_true.mp hothers b hmem
  rw [h] at hb
  cases hb

theorem isInert_of_isUnreserved {b : UInt8} (h : isUnreserved b) : IsInert b where
  ascii := (bounds_of_isUnreserved h).2
  path := by
    rw [isPathByte, Bool.and_eq_true, decide_eq_true_eq, Bool.not_eq_true', List.contains_eq_mem,
      decide_eq_false_iff_not]
    exact ⟨(bounds_of_isUnreserved h).1, not_mem_of_isUnreserved h (by decide)⟩
  sign := not_mem_of_isUnreserved h (by decide)

theorem isUnreserved_upperHexDigit {n : Nat} (h : n < 0x10) : isUnreserved (upperHexDigit n) := by
  revert n
  decide

theorem isInert_of_mem_encodeByte {b c : UInt8} (h : c ∈ encodeByte b) : IsInert c := by
  unfold encodeByte at h
  split at h
  · next hb =>
    rw [List.mem_singleton] at h
    exact isInert_of_isUnreserved (h ▸ hb)
  · have hb := b.toNat_lt
    simp only [List.mem_cons, List.not_mem_nil, or_false] at h
    rcases h with rfl | rfl | rfl
    · exact ⟨by decide, by decide, by decide⟩
    · exact isInert_of_isUnreserved (isUnreserved_upperHexDigit (by omega))
    · exact isInert_of_isUnreserved (isUnreserved_upperHexDigit (by omega))

theorem isInert_of_mem {s : List UInt8} {c : UInt8} (h : c ∈ percentEncode s) : IsInert c := by
  obtain ⟨b, -, hc⟩ := List.mem_flatMap.1 h
  exact isInert_of_mem_encodeByte hc

theorem percentDecode_cons {b : UInt8} (hb : b ≠ percent) (rest : List UInt8) :
    percentDecode (b :: rest) = b :: percentDecode rest := by
  match rest with
  | [] => rfl
  | [_] => rfl
  | _ :: _ :: _ => rw [percentDecode, if_neg hb]

theorem percentDecode_encodeByte (b : UInt8) (rest : List UInt8) :
    percentDecode (encodeByte b ++ rest) = b :: percentDecode rest := by
  unfold encodeByte
  split
  · next hb =>
    have hne : b ≠ percent := by
      rintro rfl
      cases hb
    exact percentDecode_cons hne rest
  · have hb := b.toNat_lt
    have hpair : hexPair? (upperHexDigit (b.toNat / 16)) (upperHexDigit (b.toNat % 16)) = some b := by
      rw [hexPair?, hexValue?_upperHexDigit (by omega), hexValue?_upperHexDigit (by omega)]
      dsimp only
      rw [Nat.div_add_mod, UInt8.ofNat_toNat]
    rw [List.cons_append, List.cons_append, List.cons_append, List.nil_append, percentDecode,
      if_pos rfl, hpair]

/-- What was encoded is decoded again. -/
theorem percentDecode_percentEncode (s : List UInt8) : percentDecode (percentEncode s) = s := by
  induction s with
  | nil => rfl
  | cons b s ih => rw [percentEncode, List.flatMap_cons, percentDecode_encodeByte, ← percentEncode, ih]

theorem percentEncode_ne_nil {s : List UInt8} (h : s ≠ []) : percentEncode s ≠ [] := by
  intro hnil
  have hdecoded := percentDecode_percentEncode s
  rw [hnil] at hdecoded
  exact h hdecoded.symm

/-! ## Pieces -/

theorem splitOn_cons_of_ne {separator b : UInt8} (hb : b ≠ separator) {s piece : List UInt8}
    {pieces : List (List UInt8)} (h : splitOn separator s = piece :: pieces) :
    splitOn separator (b :: s) = (b :: piece) :: pieces := by
  rw [splitOn, if_neg hb, h]

/-- A piece without separators is split off at the separator behind it. -/
theorem splitOn_append {separator : UInt8} {piece : List UInt8} (h : separator ∉ piece)
    (rest : List UInt8) :
    splitOn separator (piece ++ separator :: rest) = piece :: splitOn separator rest := by
  induction piece with
  | nil => rw [List.nil_append, splitOn, if_pos rfl]
  | cons b piece ih =>
    rw [List.mem_cons, not_or] at h
    exact splitOn_cons_of_ne (Ne.symm h.1) (ih h.2)

theorem splitOn_of_not_mem {separator : UInt8} {piece : List UInt8} (h : separator ∉ piece) :
    splitOn separator piece = [piece] := by
  induction piece with
  | nil => rfl
  | cons b piece ih =>
    rw [List.mem_cons, not_or] at h
    exact splitOn_cons_of_ne (Ne.symm h.1) (ih h.2)

/-! ## Paths -/

/-- The path of the member of a collection with a name. -/
def memberPath (collection name : String) : List UInt8 :=
  slash :: (Endpoint.version ++ slash :: (Utf8.bytes collection ++
    slash :: percentEncode (Utf8.bytes name)))

theorem bytes_injective {a b : String} (h : Utf8.bytes a = Utf8.bytes b) : a = b :=
  String.toByteArray_inj.mp (ByteArray.ext (Array.ext' h))

/-- The segment of an encoded name holds the name. -/
theorem names_percentEncode {name : String} (h : name ≠ "") :
    Names (percentEncode (Utf8.bytes name)) name :=
  ⟨(percentDecode_percentEncode _).symm, h⟩

theorem ofPath?_memberPath {collection : String} (hcollection : slash ∉ Utf8.bytes collection)
    {name : String} (hname : name ≠ "") :
    Endpoint.ofPath? (memberPath collection name) =
      Endpoint.ofMember? (Utf8.bytes collection) (percentEncode (Utf8.bytes name)) := by
  have hencoded : slash ∉ percentEncode (Utf8.bytes name) := by
    intro hmem
    exact (isInert_of_mem hmem).sign List.mem_cons_self
  have hsplit : splitOn slash (memberPath collection name) =
      [[], Endpoint.version, Utf8.bytes collection, percentEncode (Utf8.bytes name)] := by
    have hversion : slash ∉ Endpoint.version := by decide
    rw [memberPath, splitOn, if_pos rfl, splitOn_append hversion, splitOn_append hcollection,
      splitOn_of_not_mem hencoded]
  unfold Endpoint.ofPath?
  rw [hsplit]
  exact if_pos ⟨rfl, percentEncode_ne_nil fun hnil => hname (bytes_injective hnil)⟩

/-! ## Queries -/

/-- The query that gives a token. -/
def tokenQuery (token : String) : List UInt8 :=
  Utf8.bytes "ID" ++ equals :: percentEncode (Utf8.bytes token)

theorem formText_percentEncode (text : String) :
    formText (percentEncode (Utf8.bytes text)) = text := by
  have hplus : (percentEncode (Utf8.bytes text)).map (fun b => if b = plus then space else b) =
      percentEncode (Utf8.bytes text) := by
    refine (List.map_congr_left fun b hb => ?_).trans (List.map_id _)
    have hne : b ≠ plus := by
      rintro rfl
      exact (isInert_of_mem hb).sign (by decide)
    exact if_neg hne
  have hdecoded : (⟨(Utf8.bytes text).toArray⟩ : ByteArray) = text.toUTF8 := rfl
  rw [formText, hplus, percentDecode_percentEncode, hdecoded, Utf8.decodeLossy,
    Utf8.fromUTF8?_toUTF8]
  rfl

theorem formField_tokenQuery (token : String) : formField (tokenQuery token) = ("ID", token) := by
  have hkey : ∀ b ∈ Utf8.bytes "ID", (b ≠ equals : Bool) :=
    List.all_eq_true.mp (by decide)
  have hname : formText (Utf8.bytes "ID") = "ID" := by decide
  have htake : (tokenQuery token).takeWhile (· ≠ equals) = Utf8.bytes "ID" := by
    rw [tokenQuery, List.takeWhile_append_of_pos hkey, List.takeWhile_cons_of_neg (by decide),
      List.append_nil]
  have hdrop : (tokenQuery token).dropWhile (· ≠ equals) =
      equals :: percentEncode (Utf8.bytes token) := by
    rw [tokenQuery, List.dropWhile_append_of_pos hkey, List.dropWhile_cons_of_neg (by decide)]
  rw [formField, htake, hdrop, hname, List.drop_succ_cons, List.drop_zero, formText_percentEncode]

theorem readToken_tokenQuery (token : String) : readToken (tokenQuery token) = .ok token := by
  have hpiece : ampersand ∉ tokenQuery token := by
    intro hmem
    rcases List.mem_append.1 hmem with hkey | hrest
    · exact absurd hkey (by decide)
    · rcases List.mem_cons.1 hrest with he | hencoded
      · cases he
      · exact (isInert_of_mem hencoded).sign (by decide)
  have hkept : [tokenQuery token].filter (· ≠ []) = [tokenQuery token] := by
    have hne : tokenQuery token ≠ [] := by
      intro hnil
      cases (List.append_eq_nil_iff.1 hnil).2
    simp [hne]
  have hfields : formFields (tokenQuery token) = [("ID", token)] := by
    rw [formFields, splitOn_of_not_mem hpiece, hkept, List.map_singleton, formField_tokenQuery]
  unfold readToken
  rw [hfields]
  rfl

/-! ## Targets -/

/-- The encoded form of a text. -/
def encodeText (text : String) : String :=
  String.ofList ((percentEncode (Utf8.bytes text)).map fun b => Char.ofNat b.toNat)

theorem bytes_encodeText (text : String) :
    Utf8.bytes (encodeText text) = percentEncode (Utf8.bytes text) := by
  have hall : ∀ n < 128, String.utf8EncodeChar (Char.ofNat n) = [UInt8.ofNat n] := by
    decide
  have hbyte : ∀ b ∈ percentEncode (Utf8.bytes text),
      String.utf8EncodeChar (Char.ofNat b.toNat) = [b] := by
    intro b hb
    have hascii := hall b.toNat (UInt8.lt_iff_toNat_lt.1 (isInert_of_mem hb).ascii)
    rw [UInt8.ofNat_toNat] at hascii
    exact hascii
  rw [Utf8.bytes_eq_flatMap, encodeText, String.toList_ofList, List.flatMap_map,
    List.flatMap_congr hbyte, List.flatMap_singleton']

/-- The text of a target that names a member. -/
def memberUri (collection name : String) : String :=
  "/1.0/" ++ collection ++ "/" ++ encodeText name

/-- The text of a target that names a state and gives a token. -/
def tokenUri (name token : String) : String :=
  memberUri "state" name ++ "?ID=" ++ encodeText token

theorem bytes_memberUri (collection name : String) :
    Utf8.bytes (memberUri collection name) = memberPath collection name := by
  have hversion : Utf8.bytes "/1.0/" = slash :: (Endpoint.version ++ [slash]) := by decide
  have hslash : Utf8.bytes "/" = [slash] := by decide
  rw [memberUri, Utf8.bytes_append, Utf8.bytes_append, Utf8.bytes_append, hversion, hslash,
    bytes_encodeText, memberPath]
  simp

theorem bytes_tokenUri (name token : String) :
    Utf8.bytes (tokenUri name token) = memberPath "state" name ++ question :: tokenQuery token := by
  have hkey : Utf8.bytes "?ID=" = question :: (Utf8.bytes "ID" ++ [equals]) := by decide
  rw [tokenUri, Utf8.bytes_append, Utf8.bytes_append, bytes_memberUri, hkey, bytes_encodeText,
    tokenQuery]
  simp

theorem not_sign_of_isPathByte {b : UInt8} (h : isPathByte b) : b ≠ hash ∧ b ≠ question := by
  refine ⟨?_, ?_⟩
  · rintro rfl
    exact absurd h (by decide)
  · rintro rfl
    exact absurd h (by decide)

/-- A path of bytes that belong into one is read as it is. -/
theorem readPath_path {path : List UInt8} (hne : path ≠ []) (hpath : ∀ b ∈ path, isPathByte b) :
    readPath path = some ⟨path, []⟩ := by
  have hkept : path.takeWhile (· ≠ hash) = path := by
    refine List.takeWhile_eq_self_iff.2 fun b hb => decide_eq_true ?_
    exact (not_sign_of_isPathByte (hpath b hb)).1
  have hquestion : ∀ b ∈ path, decide (b ≠ question) = true := by
    intro b hb
    exact decide_eq_true (not_sign_of_isPathByte (hpath b hb)).2
  have hrest : path.dropWhile (· ≠ question) = [] := List.dropWhile_eq_nil_iff.2 hquestion
  have hall : path.all isPathByte = true := List.all_eq_true.2 hpath
  unfold readPath
  dsimp only
  rw [hkept, List.takeWhile_eq_self_iff.2 hquestion, hrest, hall, if_neg hne]
  rfl

/-- The query behind a path is read as it is. -/
theorem readPath_query {path query : List UInt8} (hne : path ≠ [])
    (hpath : ∀ b ∈ path, isPathByte b) (hquery : ∀ b ∈ query, isPathByte b) :
    readPath (path ++ question :: query) = some ⟨path, query⟩ := by
  have hkept : (path ++ question :: query).takeWhile (· ≠ hash) = path ++ question :: query := by
    refine List.takeWhile_eq_self_iff.2 fun b hb => decide_eq_true ?_
    rcases List.mem_append.1 hb with hb | hb
    · exact (not_sign_of_isPathByte (hpath b hb)).1
    · rcases List.mem_cons.1 hb with rfl | hb
      · decide
      · exact (not_sign_of_isPathByte (hquery b hb)).1
  have hquestion : ∀ b ∈ path, decide (b ≠ question) = true := by
    intro b hb
    exact decide_eq_true (not_sign_of_isPathByte (hpath b hb)).2
  have htake : (path ++ question :: query).takeWhile (· ≠ question) = path := by
    rw [List.takeWhile_append_of_pos hquestion, List.takeWhile_cons_of_neg (by decide),
      List.append_nil]
  have hdrop : (path ++ question :: query).dropWhile (· ≠ question) = question :: query := by
    rw [List.dropWhile_append_of_pos hquestion, List.dropWhile_cons_of_neg (by decide)]
  have hall : path.all isPathByte = true := List.all_eq_true.2 hpath
  have hallQuery : query.all isQueryByte = true := by
    refine List.all_eq_true.2 fun b hb => ?_
    rw [isQueryByte, hquery b hb]
    rfl
  unfold readPath
  dsimp only
  rw [hkept, htake, hdrop, List.drop_succ_cons, List.drop_zero, hall, hallQuery, if_neg hne]
  rfl

theorem ofText?_of_slash {text : String} {rest : List UInt8} (h : Utf8.bytes text = slash :: rest)
    (hlength : (Utf8.bytes text).length ≤ maxTargetLength) :
    Target.ofText? text = readPath (slash :: rest) := by
  unfold Target.ofText?
  dsimp only
  rw [← Utf8.bytes, if_neg (Nat.not_lt.mpr hlength), h]
  exact if_pos rfl

theorem isPathByte_of_mem_memberPath {collection : String}
    (hcollection : ∀ b ∈ Utf8.bytes collection, isPathByte b) {name : String} :
    ∀ b ∈ memberPath collection name, isPathByte b := by
  have hversion : ∀ b ∈ Endpoint.version, isPathByte b := List.all_eq_true.mp (by decide)
  have hslash : isPathByte slash := by decide
  intro b hb
  simp only [memberPath, List.mem_cons, List.mem_append] at hb
  rcases hb with rfl | hb | rfl | hb | rfl | hb
  · exact hslash
  · exact hversion b hb
  · exact hslash
  · exact hcollection b hb
  · exact hslash
  · exact (isInert_of_mem hb).path

/-- A target that names a member is read as its path. -/
theorem ofText?_memberUri {collection : String}
    (hcollection : ∀ b ∈ Utf8.bytes collection, isPathByte b) {name : String}
    (hlength : (Utf8.bytes (memberUri collection name)).length ≤ maxTargetLength) :
    Target.ofText? (memberUri collection name) = some ⟨memberPath collection name, []⟩ := by
  rw [ofText?_of_slash (bytes_memberUri collection name) hlength]
  exact readPath_path (List.cons_ne_nil _ _) (isPathByte_of_mem_memberPath hcollection)

/-- A target that names a state and gives a token is read as the path and the query. -/
theorem ofText?_tokenUri {name token : String}
    (hlength : (Utf8.bytes (tokenUri name token)).length ≤ maxTargetLength) :
    Target.ofText? (tokenUri name token) = some ⟨memberPath "state" name, tokenQuery token⟩ := by
  have hquery : ∀ b ∈ tokenQuery token, isPathByte b := by
    have hkey : ∀ b ∈ Utf8.bytes "ID", isPathByte b := List.all_eq_true.mp (by decide)
    intro b hb
    rcases List.mem_append.1 hb with hb | hb
    · exact hkey b hb
    · rcases List.mem_cons.1 hb with rfl | hb
      · decide
      · exact (isInert_of_mem hb).path
  rw [ofText?_of_slash (bytes_tokenUri name token) hlength]
  have hcollection : ∀ b ∈ Utf8.bytes "state", isPathByte b := List.all_eq_true.mp (by decide)
  exact readPath_query (List.cons_ne_nil _ _) (isPathByte_of_mem_memberPath hcollection) hquery

end Http

end ControlPlane
