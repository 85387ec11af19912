import ControlPlane.Proofs.Json.MemberForm
import ControlPlane.Proofs.Json.PrintedValue
import ControlPlane.Service.LockRequest

/-!
# Which bodies are lock documents

A body is accepted as a lock document if it is a text that holds an object with one string `ID`,
whatever its other members are. An array of one string is accepted as well, with the string as the
token, although it has no `ID`: the members of a record may be given by their places. There are no
other bodies that are accepted.
-/

namespace ControlPlane

namespace LockRequest

/-- The bodies that give a token: objects by their `ID`, and arrays by their only item. -/
def Gives (token : String) (bytes : List UInt8) : Prop :=
  Json.IsObjectWith "ID" token bytes ∨ Json.IsListWith token bytes

/-- What a body that is accepted is like. -/
theorem of_parse {body : ByteArray} {request : LockRequest} (h : parse body = .ok request) :
    request.holder.toUTF8 = body ∧ shape.parse body.data.toList = .ok (request.token, ()) := by
  unfold parse at h
  cases hd : Utf8.decode body with
  | error fault => rw [hd] at h; cases h
  | ok holder =>
    rw [hd] at h
    dsimp only at h
    cases hs : shape.parse body.data.toList with
    | error complaint => rw [hs] at h; cases h
    | ok values =>
      rw [hs] at h
      cases h
      exact ⟨Utf8.toUTF8_of_decode hd, rfl⟩

theorem parse_toUTF8 (holder : String) :
    parse holder.toUTF8 = match shape.parse holder.toUTF8.data.toList with
      | .error complaint => .error (.malformedLock complaint)
      | .ok values => .ok ⟨values.1, holder⟩ := by
  unfold parse
  rw [RowForm.decode_toUTF8]
  cases shape.parse holder.toUTF8.data.toList <;> rfl

theorem gives_of_parse {body : ByteArray} {request : LockRequest} (h : parse body = .ok request) :
    Gives request.token body.data.toList := by
  obtain ⟨rfl, hshape⟩ := of_parse h
  exact Json.form_of_parse (Json.isText_toUTF8 request.holder) hshape

theorem parse_of_gives {holder token : String} (h : Gives token holder.toUTF8.data.toList) :
    parse holder.toUTF8 = .ok ⟨token, holder⟩ := by
  have hshape : shape.parse holder.toUTF8.data.toList = .ok (token, ()) :=
    (Json.Shape.parse_iff (Json.isText_toUTF8 holder)).mpr h
  rw [parse_toUTF8, hshape]

/--
A body is accepted as a lock document with a token just if it is a text and holds an object that has
`ID` once, as a string that spells the token, or an array of one string that spells the token. The
document is then the body as it is. Every other body is refused: one that is not a text for that, and
any other one as malformed.
-/
theorem accepted_bodies (body : ByteArray) :
    (∀ request, parse body = .ok request ↔
      request.holder.toUTF8 = body ∧ Gives request.token body.data.toList) ∧
    ((∀ holder : String, holder.toUTF8 ≠ body) →
      ∃ fault, parse body = .error (.lockNotText fault)) ∧
    ∀ holder : String, holder.toUTF8 = body → (∀ token, ¬ Gives token body.data.toList) →
      ∃ complaint, parse body = .error (.malformedLock complaint) := by
  refine ⟨fun request => ⟨fun h => ⟨(of_parse h).1, gives_of_parse h⟩, ?_⟩, fun hnone => ?_, ?_⟩
  · rintro ⟨rfl, hgives⟩
    exact parse_of_gives hgives
  · unfold parse
    cases hdecode : Utf8.decode body with
    | error fault => exact ⟨fault, rfl⟩
    | ok holder => exact absurd (Utf8.toUTF8_of_decode hdecode) (hnone holder)
  · rintro holder rfl hnone
    cases hparse : parse holder.toUTF8 with
    | ok request => exact absurd (gives_of_parse hparse) (hnone request.token)
    | error fault =>
      rw [parse_toUTF8] at hparse
      split at hparse
      · next complaint _ =>
        cases hparse
        exact ⟨complaint, rfl⟩
      · cases hparse

/-- An object with white space, with its `ID` and the token written by escapes, and with another member. -/
def looseDocument : String :=
  " \x7b \"Who\" : [1, \"\\ud800\"],\n\"\\u0049D\":\"\\u0074\" \x7d "

/-- A document whose `ID` is a number. -/
def numberedDocument : String := "\x7b\"ID\":42\x7d"

/-- The first document is accepted, and the second one is malformed. -/
theorem accepted_bodies_loose :
    Gives "t" looseDocument.toUTF8.data.toList ∧
    ∃ complaint, parse numberedDocument.toUTF8 = .error (.malformedLock complaint) := by
  refine ⟨?_, ?_⟩
  · exact (((accepted_bodies looseDocument.toUTF8).1 ⟨"t", looseDocument⟩).mp (by decide +kernel)).2
  · refine (accepted_bodies numberedDocument.toUTF8).2.2 numberedDocument rfl fun token hgives => ?_
    have hparse : parse numberedDocument.toUTF8 = .ok ⟨token, numberedDocument⟩ :=
      ((accepted_bodies numberedDocument.toUTF8).1 ⟨token, numberedDocument⟩).mpr ⟨rfl, hgives⟩
    have hrefused : (parse numberedDocument.toUTF8).toOption = none := by decide +kernel
    rw [hparse] at hrefused
    cases hrefused

/-- A document that is a list of one string. -/
def listDocument : String := "[\"t\"]"

/-- The list is accepted, with its item as the token, and is no object. -/
theorem list_is_accepted :
    parse listDocument.toUTF8 = .ok ⟨"t", listDocument⟩ ∧
    Json.Value.parse listDocument.toUTF8.data.toList = .ok (.list [.text "t"]) ∧
    ∀ token, ¬ Json.IsObjectWith "ID" token listDocument.toUTF8.data.toList := by
  have hlist : Json.ReadsAs 1 listDocument (.list [.text "t"]) :=
    Json.readsAs_list (.cons (Json.readsAs_text 0 "t") .nil)
  refine ⟨by decide +kernel, hlist.parse (by decide), fun token hobject => ?_⟩
  generalize hbytes : listDocument.toUTF8.data.toList = bytes at hobject
  have hhead : bytes.head? = some Ascii.openBracket := by
    rw [← hbytes]
    decide +kernel
  cases hobject with
  | @spaced before s behind _ hbefore =>
    cases before with
    | nil => cases hhead
    | cons b before =>
      obtain rfl : b = Ascii.openBracket := Option.some.inj hhead
      exact absurd (hbefore _ List.mem_cons_self) (by decide)

end LockRequest

end ControlPlane
