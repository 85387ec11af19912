import ControlPlane.Json.Record
import Mathlib.Tactic.SplitIfs

/-!
# The size of records

A byte of JSON adds at most four bytes to the text it belongs to, so the texts of a record are
bounded by the input that the record is read from (`Shape.parse_within`).
-/

namespace ControlPlane

namespace Json

/-! ## Strings -/

theorem size_of_fromUTF8? {bytes : ByteArray} {text : String}
    (h : String.fromUTF8? bytes = some text) : text.utf8ByteSize = bytes.size := by
  unfold String.fromUTF8? at h
  split at h
  · cases h
    rfl
  · cases h

theorem readTextFrom_size {done : ByteArray} {s rest : Input} {text : String}
    (h : readTextFrom done s = .ok (text, rest)) :
    text.utf8ByteSize ≤ done.size + 4 * s.length := by
  fun_induction readTextFrom done s with
  | case1 => cases h
  | case2 done tail text' htext =>
    cases h
    rw [size_of_fromUTF8? htext]
    exact Nat.le_add_right _ _
  | case3 => cases h
  | case4 done tail c rest' hescape _ ih =>
    have hle := ih h
    have hlt := readEscape_length_lt hescape
    have hc : c.toString.toUTF8.size ≤ 4 := by
      have hsize : c.toString.toUTF8.size = c.utf8Size := by simp [List.utf8Encode_singleton]
      rw [hsize]
      exact c.utf8Size_le_four
    rw [ByteArray.size_append] at hle
    rw [List.length_cons]
    omega
  | case5 => cases h
  | case6 => cases h
  | case7 done b tail _ _ _ ih =>
    have hle := ih h
    rw [ByteArray.size_push] at hle
    rw [List.length_cons]
    omega

theorem readText_size {s rest : Input} {text : String} (h : readText s = .ok (text, rest)) :
    text.utf8ByteSize ≤ 4 * s.length := by
  have hle := readTextFrom_size h
  simpa using hle

/-! ## Fields -/

/-- The number of bytes of what a field holds. -/
def FieldType.size : (type : FieldType) → type.Carrier → Nat
  | .text, value => String.utf8ByteSize value
  | .bool, _ => 0

theorem FieldType.read_size {type : FieldType} {s rest : Input} {value : type.Carrier}
    (h : type.read s = .ok (value, rest)) : type.size value ≤ 4 * s.length := by
  have hle := skipBlanks_length_le s
  unfold FieldType.read at h
  split at h
  · cases h
  · next b tail hs =>
    cases type with
    | text =>
      dsimp only at h
      split at h
      · have hsize := readText_size h
        rw [hs, List.length_cons] at hle
        show String.utf8ByteSize value ≤ _
        omega
      · cases h
    | bool => exact Nat.zero_le _

/-- Whether everything that a record holds is of at most `n` bytes. -/
def Values.Within (n : Nat) : (fields : List Field) → Values fields → Prop
  | [], _ => True
  | field :: fields, (value, values) => field.type.size value ≤ n ∧ Values.Within n fields values

/-- Whether everything that has been seen of a record is of at most `n` bytes. -/
def Gathered.Within (n : Nat) : (fields : List Field) → Gathered fields → Prop
  | [], _ => True
  | field :: fields, (seen, others) =>
    (∀ value, seen = some value → field.type.size value ≤ n) ∧ Gathered.Within n fields others

theorem Gathered.none_within (n : Nat) (fields : List Field) :
    Gathered.Within n fields (Gathered.none fields) := by
  induction fields with
  | nil => trivial
  | cons field fields ih => exact ⟨fun value h => (by cases h), ih⟩

theorem Gathered.take_within {n : Nat} {fields : List Field} {got got' : Gathered fields}
    {key : String} {s rest : Input} (hn : 4 * s.length ≤ n) (hgot : Gathered.Within n fields got)
    (h : got.take fields key s = .ok (got', rest)) : Gathered.Within n fields got' := by
  induction fields with
  | nil => trivial
  | cons field fields ih =>
    obtain ⟨seen, others⟩ := got
    obtain ⟨hseen, hothers⟩ := hgot
    unfold Gathered.take at h
    split at h
    · cases seen with
      | some value => cases h
      | none =>
        cases hc : readColon s with
        | error f => rw [hc] at h; cases h
        | ok tail =>
          have hlt := readColon_length_lt hc
          cases hr : field.type.read tail with
          | error f => simp only [bind, Except.bind, hc, hr] at h; cases h
          | ok r =>
            have hsize := FieldType.read_size hr
            simp only [bind, Except.bind, hc, hr] at h
            cases h
            refine ⟨fun value hv => ?_, hothers⟩
            cases hv
            omega
    · cases ht : Gathered.take fields others key s with
      | error f => rw [ht] at h; cases h
      | ok r =>
        rw [ht] at h
        cases h
        exact ⟨hseen, ih hothers ht⟩

theorem Gathered.finish_within {n : Nat} {fields : List Field} {got : Gathered fields}
    {values : Values fields} (hgot : Gathered.Within n fields got)
    (h : got.finish fields = .ok values) : Values.Within n fields values := by
  induction fields with
  | nil => trivial
  | cons field fields ih =>
    obtain ⟨seen, others⟩ := got
    obtain ⟨hseen, hothers⟩ := hgot
    unfold Gathered.finish at h
    cases seen with
    | none => cases h
    | some value =>
      cases hf : Gathered.finish fields others with
      | error name => rw [hf] at h; cases h
      | ok values' =>
        rw [hf] at h
        cases h
        exact ⟨hseen value rfl, ih hothers hf⟩

/-! ## Objects and arrays -/

theorem readMember_within {n : Nat} {fields : List Field} {got got' : Gathered fields}
    {s rest : Input} (hn : 4 * s.length ≤ n) (hgot : Gathered.Within n fields got)
    (h : readMember fields got s = .ok (got', rest)) : Gathered.Within n fields got' := by
  unfold readMember at h
  cases ht : readText s with
  | error f => rw [ht] at h; cases h
  | ok r =>
    have hlt := readText_length_lt ht
    rw [ht] at h
    exact Gathered.take_within (by omega) hgot h

theorem readMembers_within {n : Nat} {fields : List Field} {got got' : Gathered fields}
    {s rest : Input} (hn : 4 * s.length ≤ n) (hgot : Gathered.Within n fields got)
    (h : readMembers fields got s = .ok (got', rest)) : Gathered.Within n fields got' := by
  fun_induction readMembers fields got s with
  | case1 => cases h
  | case2 =>
    cases h
    exact hgot
  | case3 => cases h
  | case4 got s tail tail' got'' mid hmember hs _ hs' ih =>
    have h₁ := skipBlanks_length_le s
    have h₂ := skipBlanks_length_le tail
    have h₃ := readMember_length_lt hmember
    rw [hs, List.length_cons] at h₁
    rw [hs', List.length_cons] at h₂
    exact ih (by omega) (readMember_within (by omega) hgot hmember) h
  | case5 => cases h
  | case6 => cases h
  | case7 => cases h
  | case8 => cases h

theorem readObject_within {n : Nat} {fields : List Field} {s rest : Input} {values : Values fields}
    (hn : 4 * s.length ≤ n) (h : readObject fields s = .ok (values, rest)) :
    Values.Within n fields values := by
  have hle := skipBlanks_length_le s
  unfold readObject at h
  cases hs : skipBlanks s with
  | nil => rw [hs] at h; cases h
  | cons b tail =>
    rw [hs, List.length_cons] at hle
    rw [hs] at h
    dsimp only at h
    split at h
    · simp only [bind, Except.bind] at h
      split at h
      · next hf =>
        cases h
        exact Gathered.finish_within (Gathered.none_within n fields) hf
      · cases h
    · split at h
      · cases hm : readMember fields (Gathered.none fields) tail with
        | error f => rw [hm] at h; cases h
        | ok r =>
          have hlt := readMember_length_lt hm
          have hgot := readMember_within (by omega) (Gathered.none_within n fields) hm
          cases hms : readMembers fields r.1 r.2 with
          | error f => simp only [bind, Except.bind, hm, hms] at h; cases h
          | ok r' =>
            simp only [bind, Except.bind, hm, hms] at h
            split at h
            · next hf =>
              cases h
              exact Gathered.finish_within (readMembers_within (by omega) hgot hms) hf
            · cases h
      · cases h

theorem nextItem_length_le {wanted : String} {count : Nat} {s rest : Input}
    (h : nextItem wanted count s = .ok rest) : rest.length ≤ s.length := by
  have hle := skipBlanks_length_le s
  unfold nextItem at h
  split at h
  · cases h
  · next b tail hs =>
    have hle' := skipBlanks_length_le tail
    rw [hs, List.length_cons] at hle
    split_ifs at h
    · cases h
      rwa [List.length_cons]
    · split at h
      · cases h
      · next c tail' hc =>
        split_ifs at h
        cases h
        rw [hc] at hle'
        omega

/-- The steps of reading an item. -/
theorem of_readItems_cons {wanted : String} {field : Field} {fields : List Field} {count : Nat}
    {s mid : Input} {values : Values (field :: fields)}
    (h : readItems wanted (field :: fields) count s = .ok (values, mid)) :
    ∃ s' s'' value values', nextItem wanted count s = .ok s' ∧
      field.type.read s' = .ok (value, s'') ∧
      readItems wanted fields (count + 1) s'' = .ok (values', mid) ∧ values = (value, values') := by
  unfold readItems at h
  cases hn : nextItem wanted count s with
  | error f => rw [hn] at h; cases h
  | ok s' =>
    rw [hn] at h
    cases hf : field.type.read s' with
    | error f => simp only [bind, Except.bind, hf] at h; cases h
    | ok r =>
      cases hi : readItems wanted fields (count + 1) r.2 with
      | error f => simp only [bind, Except.bind, hf, hi] at h; cases h
      | ok r' =>
        simp only [bind, Except.bind, hf, hi] at h
        cases h
        exact ⟨s', r.2, r.1, r'.1, rfl, hf, hi, rfl⟩

theorem readItems_within {n : Nat} {wanted : String} {fields : List Field} {count : Nat}
    {s rest : Input} {values : Values fields} (hn : 4 * s.length ≤ n)
    (h : readItems wanted fields count s = .ok (values, rest)) :
    Values.Within n fields values := by
  induction fields generalizing count s with
  | nil => trivial
  | cons field fields ih =>
    obtain ⟨s', s'', value, values', hnext, hread, hitems, rfl⟩ := of_readItems_cons h
    have h₁ := nextItem_length_le hnext
    have h₂ := FieldType.read_size hread
    have h₃ := FieldType.read_length_le hread
    exact ⟨by omega, ih (by omega) hitems⟩

/-- What a record holds is at most four times as long as the text it is read from. -/
theorem Shape.parse_within {shape : Shape} {text : Input} {values : Values shape.fields}
    (h : shape.parse text = .ok values) : Values.Within (4 * text.length) shape.fields values := by
  have hread : ∃ rest, shape.read text = .ok (values, rest) := by
    unfold Shape.parse parseWith at h
    cases hr : shape.read text with
    | error f => rw [hr] at h; cases h
    | ok r =>
      rw [hr] at h
      dsimp only at h
      split at h
      · cases h
      · cases h
        exact ⟨r.2, rfl⟩
  obtain ⟨rest, hread⟩ := hread
  have hle := skipBlanks_length_le text
  unfold Shape.read at hread
  split at hread
  · cases hread
  · next b tail hs =>
    rw [hs, List.length_cons] at hle
    split_ifs at hread
    · cases hi : readItems shape.describeList shape.fields 0 tail with
      | error f => rw [hi] at hread; cases hread
      | ok r =>
        cases he : endList r.2 with
        | error f => simp only [bind, Except.bind, hi, he] at hread; cases hread
        | ok rest' =>
          simp only [bind, Except.bind, hi, he] at hread
          cases hread
          exact readItems_within (by omega) hi
    · exact readObject_within (by omega) hread

end Json

end ControlPlane
