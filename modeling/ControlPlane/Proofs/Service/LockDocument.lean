import ControlPlane.Proofs.Json.Legible
import ControlPlane.Proofs.Service.LockForm

/-!
# The documents of accepted locks

The document of a lock is accepted when its token is found, and read in full only when locks are
listed. The members besides the token are passed over at first, and so a document may have been
accepted that cannot be read: one that has a flaw. `LockRequest.document_of_parse` says that there are
no others.
-/

namespace ControlPlane

namespace Json

theorem IsObjectWith.holds {key text : String} {s : List UInt8} (h : IsObjectWith key text s) :
    ∃ bytes, Holds bytes s := by
  cases h with
  | @spaced before bytes behind _ hbefore hmembers _ hbehind =>
    refine ⟨Ascii.openBrace :: (bytes ++ [Ascii.closeBrace]), ?_⟩
    have hholds := Holds.spaced hbefore (.object hmembers) hbehind
    simpa using hholds

theorem IsListWith.holds {text : String} {s : List UInt8} (h : IsListWith text s) :
    ∃ bytes, Holds bytes s := by
  cases h with
  | @spaced before inner bytes outer behind hbefore hinner hspells houter hbehind =>
    have hitem := Derives.item hinner (.text hspells) houter
    have hholds := Holds.spaced hbefore (.list hitem) hbehind
    exact ⟨_, by simpa using hholds⟩

end Json

/-- Whether the document of a lock has a flaw. -/
def Lock.HasFlaw (kind : Json.FaultKind) (lock : Lock) : Prop :=
  Json.HasFlaw kind lock.holder.toUTF8.data.toList

namespace Lock

variable {lock : Lock}

theorem HasFlaw.kind_mem {kind : Json.FaultKind} (h : lock.HasFlaw kind) :
    kind ∈ Json.unreadableFaults := by
  obtain ⟨_, -, hflawed⟩ := h
  exact hflawed.kind_mem

/-- The document of a lock can be read just if it is JSON without a flaw. -/
theorem document_iff : (∃ document, lock.document = .ok document) ↔
    Json.IsLegible lock.holder.toUTF8.data.toList := by
  rw [← Json.Value.parse_iff (Json.isText_toUTF8 lock.holder)]
  unfold document
  cases Json.Value.parse lock.holder.toUTF8.data.toList with
  | ok value => exact ⟨fun _ => ⟨value, rfl⟩, fun _ => ⟨value, rfl⟩⟩
  | error => exact ⟨nofun, nofun⟩

end Lock

namespace LockRequest

variable {body : ByteArray} {request : LockRequest} {lock : Lock}

/-- A document that is accepted is JSON. -/
theorem holds_of_parse (h : parse body = .ok request) (hlock : lock.holder = request.holder) :
    ∃ bytes, Json.Holds bytes lock.holder.toUTF8.data.toList := by
  rw [hlock, (of_parse h).1]
  rcases gives_of_parse h with hobject | hlist
  · exact hobject.holds
  · exact hlist.holds

/-- The document of a lock that was accepted can be read just if it has no flaw. -/
theorem document_iff_of_parse (h : parse body = .ok request) (hlock : lock.holder = request.holder) :
    (∃ document, lock.document = .ok document) ↔ ∀ kind, ¬ lock.HasFlaw kind := by
  rw [Lock.document_iff]
  exact ⟨fun hlegible => hlegible.flawless, fun hflawless => ⟨holds_of_parse h hlock, hflawless⟩⟩

/-- The document of a lock that was accepted is read, or else what is wrong with it is named. -/
theorem document_of_parse (h : parse body = .ok request) (hlock : lock.holder = request.holder) :
    (∃ document, lock.document = .ok document) ∨ ∃ complaint,
      lock.document = .error (.internal (.document lock.name complaint)) ∧
        lock.HasFlaw complaint.kind := by
  obtain ⟨bytes, hholds⟩ := holds_of_parse h hlock
  unfold Lock.document
  rcases Json.Value.parse_of_holds hholds with ⟨value, hvalue⟩ | ⟨complaint, hcomplaint, hflawed⟩
  · rw [hvalue]
    exact .inl ⟨value, rfl⟩
  · rw [hcomplaint]
    exact .inr ⟨complaint, rfl, bytes, hholds, hflawed⟩

end LockRequest

end ControlPlane
