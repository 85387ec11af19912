import ControlPlane.Record.RowForm
import Mathlib.Tactic.NormNum

/-!
# Rows give their records back

A length takes eight bytes, so a row can hold texts and documents of less than `2 ^ 64` bytes. Every
record in the memory of a machine is of that kind (`RecordKind.Fits`), and for such records `decode`
undoes `encode`. The readers of the single fields take a field off the front of a row and leave what
follows it, whatever that is.
-/

namespace ControlPlane

/-- Bytes that are read as text are the UTF-8 form of the text. -/
theorem Utf8.toUTF8_of_decode {bytes : ByteArray} {text : String} (h : decode bytes = .ok text) :
    text.toUTF8 = bytes := by
  unfold decode String.fromUTF8? at h
  split at h
  · next hsome =>
    cases h
    split at hsome
    · cases hsome
      rfl
    · cases hsome
  · cases h

/-- The UTF-8 form of a text is read as the text. -/
theorem Utf8.fromUTF8?_toUTF8 (text : String) : String.fromUTF8? text.toUTF8 = some text := by
  simp [String.fromUTF8?, text.isValidUTF8]
  rfl

namespace RowForm

/-- The least length that does not fit into eight bytes. -/
def lengthLimit : Nat := 2 ^ 64

theorem size_encodeLength (n : Nat) : (encodeLength n).size = 8 := by
  simp [encodeLength, ByteArray.size]

theorem ofBytes_encodeLength {n : Nat} (hn : n < lengthLimit) :
    ofBytes (encodeLength n).data.toList = n := by
  unfold lengthLimit at hn
  simp only [encodeLength, ofBytes, List.range, List.range.loop, List.map_cons, List.map_nil,
    List.foldr_cons, List.foldr_nil, UInt8.toNat_ofNat', Nat.shiftRight_eq_div_pow]
  norm_num
  omega

theorem extract_front {a b : ByteArray} {n : Nat} (hn : a.size = n) : (a ++ b).extract 0 n = a :=
  ByteArray.extract_append_eq_left hn.symm

theorem dropBytes_front {a b : ByteArray} {n : Nat} (hn : a.size = n) : dropBytes (a ++ b) n = b :=
  ByteArray.extract_append_eq_right hn.symm (by rw [ByteArray.size_append])

theorem decodeLength_append {n : Nat} (hn : n < lengthLimit) (rest : ByteArray) :
    decodeLength (encodeLength n ++ rest) = .ok (n, rest) := by
  have hs := size_encodeLength n
  unfold decodeLength
  rw [if_neg (by rw [ByteArray.size_append]; omega), extract_front hs, dropBytes_front hs,
    ofBytes_encodeLength hn]

theorem decodeBytes_append {bytes : ByteArray} (hn : bytes.size < lengthLimit) (rest : ByteArray) :
    decodeBytes (encodeBytes bytes ++ rest) = .ok (bytes, rest) := by
  unfold decodeBytes encodeBytes
  rw [ByteArray.append_assoc, decodeLength_append hn]
  simp only [bind, Except.bind]
  rw [if_neg (by rw [ByteArray.size_append]; omega), extract_front rfl, dropBytes_front rfl]

/-- Text is UTF-8, so it is read back as it was. -/
theorem decode_toUTF8 (text : String) : Utf8.decode text.toUTF8 = .ok text := by
  rw [Utf8.decode, Utf8.fromUTF8?_toUTF8]

theorem decodeText_append {text : String} (hn : text.utf8ByteSize < lengthLimit)
    (rest : ByteArray) : decodeText (encodeText text ++ rest) = .ok (text, rest) := by
  have hs : text.toUTF8.size = text.utf8ByteSize := rfl
  unfold decodeText encodeText encodeBytes
  rw [ByteArray.append_assoc, hs, decodeLength_append hn]
  simp only [bind, Except.bind]
  rw [if_neg (by rw [ByteArray.size_append]; omega), extract_front hs, dropBytes_front hs,
    decode_toUTF8]

theorem decodeBool_append (value : Bool) (rest : ByteArray) :
    decodeBool (encodeBool value ++ rest) = .ok (value, rest) := by
  have hs : (encodeBool value).size = 1 := rfl
  have h0 : (encodeBool value ++ rest)[0]? = some (if value then 1 else 0) := by
    rw [getElem?_pos _ 0 (by rw [ByteArray.size_append]; omega),
      ByteArray.getElem_append_left (by omega)]
    rfl
  unfold decodeBool
  rw [h0, dropBytes_front hs]
  cases value <;> rfl

end RowForm

open RowForm

/-- Whether the fields of a record fit into a row. -/
def RecordKind.Fits : (kind : RecordKind) → kind.Carrier → Prop
  | .state, entry => entry.name.utf8ByteSize < lengthLimit ∧ entry.payload.size < lengthLimit
  | .lock, held => held.name.utf8ByteSize < lengthLimit ∧ held.token.utf8ByteSize < lengthLimit ∧
      held.holder.utf8ByteSize < lengthLimit
  | .gate, switch => switch.key.utf8ByteSize < lengthLimit
  | .config, entry => entry.key.utf8ByteSize < lengthLimit ∧ entry.value.utf8ByteSize < lengthLimit

/-- A record that fits is read back from its row. -/
theorem RecordKind.decode_encode (kind : RecordKind) {record : kind.Carrier}
    (h : kind.Fits record) : kind.decode (kind.encode record) = .ok record := by
  cases kind with
  | state =>
    obtain ⟨hname, hpayload⟩ := h
    have hp := decodeBytes_append hpayload .empty
    rw [ByteArray.append_empty] at hp
    simp only [RecordKind.encode, RecordKind.decode, decodeText_append hname, bind, Except.bind, hp]
  | lock =>
    obtain ⟨hname, htoken, hholder⟩ := h
    have hh := decodeText_append hholder .empty
    rw [ByteArray.append_empty] at hh
    simp only [RecordKind.encode, RecordKind.decode, ByteArray.append_assoc,
      decodeText_append hname, decodeText_append htoken, bind, Except.bind, hh]
  | gate =>
    have he := decodeBool_append record.enabled .empty
    rw [ByteArray.append_empty] at he
    simp only [RecordKind.encode, RecordKind.decode, decodeText_append h, bind, Except.bind, he]
  | config =>
    obtain ⟨hkey, hvalue⟩ := h
    have hv := decodeText_append hvalue .empty
    rw [ByteArray.append_empty] at hv
    simp only [RecordKind.encode, RecordKind.decode, decodeText_append hkey, bind, Except.bind, hv]

/-! ## What is read fits -/

/-- A step that succeeds took a result from what came before it. -/
theorem Except.of_bind {ε α β : Type} {x : Except ε α} {f : α → Except ε β} {b : β}
    (h : x >>= f = .ok b) : ∃ a, x = .ok a ∧ f a = .ok b := by
  cases x with
  | error e => cases h
  | ok a => exact ⟨a, rfl, h⟩

/-- A failure comes from a step or from what comes after it. -/
theorem Except.error_of_bind {ε α β : Type} {x : Except ε α} {f : α → Except ε β} {e : ε}
    (h : x >>= f = .error e) : x = .error e ∨ ∃ a, x = .ok a ∧ f a = .error e := by
  cases x with
  | error e' =>
    cases h
    exact Or.inl rfl
  | ok a => exact Or.inr ⟨a, rfl, h⟩

namespace RowForm

variable {row rest : ByteArray}

theorem ofBytes_lt (bytes : List UInt8) : ofBytes bytes < 256 ^ bytes.length := by
  induction bytes with
  | nil => exact Nat.one_pos
  | cons b bytes ih =>
    have hb : b.toNat < 256 := b.toNat_lt
    have hcons : ofBytes (b :: bytes) = b.toNat + 256 * ofBytes bytes := rfl
    rw [hcons, List.length_cons, Nat.pow_succ]
    omega

theorem lt_of_decodeLength {n : Nat} (h : decodeLength row = .ok (n, rest)) : n < lengthLimit := by
  unfold decodeLength at h
  split at h
  · cases h
  · next hsize =>
    cases h
    have hlength : (row.extract 0 8).data.toList.length = 8 := by
      show (row.extract 0 8).size = 8
      rw [ByteArray.size_extract]
      omega
    have hlt := ofBytes_lt (row.extract 0 8).data.toList
    rw [hlength] at hlt
    exact hlt

theorem size_lt_of_decodeBytes {bytes : ByteArray} (h : decodeBytes row = .ok (bytes, rest)) :
    bytes.size < lengthLimit := by
  obtain ⟨⟨n, row'⟩, hlength, h⟩ := Except.of_bind h
  have hn := lt_of_decodeLength hlength
  dsimp only at h
  split at h
  · cases h
  · cases h
    rw [ByteArray.size_extract]
    omega

theorem size_lt_of_decodeText {text : String} (h : decodeText row = .ok (text, rest)) :
    text.utf8ByteSize < lengthLimit := by
  obtain ⟨⟨n, row'⟩, hlength, h⟩ := Except.of_bind h
  have hn := lt_of_decodeLength hlength
  dsimp only at h
  split at h
  · cases h
  · split at h
    · next hdecode =>
      cases h
      have hbytes := congrArg ByteArray.size (Utf8.toUTF8_of_decode hdecode)
      have hsize : text.toUTF8.size = text.utf8ByteSize := rfl
      rw [hsize, ByteArray.size_extract] at hbytes
      omega
    · cases h

end RowForm

/-- A record that is read from a row fits into a row. -/
theorem RecordKind.fits_of_decode (kind : RecordKind) {row : ByteArray} {record : kind.Carrier}
    (h : kind.decode row = .ok record) : kind.Fits record := by
  cases kind with
  | state =>
    obtain ⟨⟨name, rest⟩, hname, h⟩ := Except.of_bind h
    obtain ⟨⟨payload, rest⟩, hpayload, h⟩ := Except.of_bind h
    cases h
    exact ⟨size_lt_of_decodeText hname, size_lt_of_decodeBytes hpayload⟩
  | lock =>
    obtain ⟨⟨name, rest⟩, hname, h⟩ := Except.of_bind h
    obtain ⟨⟨token, rest⟩, htoken, h⟩ := Except.of_bind h
    obtain ⟨⟨holder, rest⟩, hholder, h⟩ := Except.of_bind h
    cases h
    exact ⟨size_lt_of_decodeText hname, size_lt_of_decodeText htoken,
      size_lt_of_decodeText hholder⟩
  | gate =>
    obtain ⟨⟨key, rest⟩, hkey, h⟩ := Except.of_bind h
    obtain ⟨⟨enabled, rest⟩, henabled, h⟩ := Except.of_bind h
    cases h
    exact size_lt_of_decodeText hkey
  | config =>
    obtain ⟨⟨key, rest⟩, hkey, h⟩ := Except.of_bind h
    obtain ⟨⟨value, rest⟩, hvalue, h⟩ := Except.of_bind h
    cases h
    exact ⟨size_lt_of_decodeText hkey, size_lt_of_decodeText hvalue⟩

end ControlPlane
