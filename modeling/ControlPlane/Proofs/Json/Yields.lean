import ControlPlane.Json.Fault

/-!
# What a reader comes to

A reader succeeds or finds a fault. `Yields` says of both what they are like: the result has a
property, and the fault is of some kind. It passes through the steps of a reader (`Yields.bind`,
`Yields.map`), so that a reader is dealt with production by production.
-/

namespace ControlPlane

namespace Json

/-- Whether a reader comes to a result with a property or to a fault of an admitted kind. -/
inductive Yields {α : Type} (admitted : FaultKind → Prop) (P : α → Prop) : Except Fault α → Prop
  /-- The result has the property. -/
  | ok (a : α) (h : P a) : Yields admitted P (.ok a)
  /-- The fault is of an admitted kind. -/
  | error (f : Fault) (h : admitted f.kind) : Yields admitted P (.error f)

namespace Yields

variable {α β : Type} {admitted admitted' : FaultKind → Prop} {P P' : α → Prop} {Q : β → Prop}

theorem behind {kind : FaultKind} {rest : Input} (h : admitted kind) :
    Yields admitted P (.error (.behind kind rest)) :=
  .error _ h

theorem facing {kind : FaultKind} {rest : Input} (h : admitted kind) :
    Yields admitted P (.error (.facing kind rest)) :=
  .error _ h

theorem mono {r : Except Fault α} (h : Yields admitted P r) (hP : ∀ a, P a → P' a) :
    Yields admitted P' r := by
  cases h with
  | ok a h => exact .ok a (hP a h)
  | error f h => exact .error f h

theorem weaken {r : Except Fault α} (h : Yields admitted P r)
    (hadmitted : ∀ kind, admitted kind → admitted' kind) : Yields admitted' P r := by
  cases h with
  | ok a h => exact .ok a h
  | error f h => exact .error f (hadmitted _ h)

theorem bind {r : Except Fault α} {k : α → Except Fault β} (h : Yields admitted P r)
    (hk : ∀ a, P a → Yields admitted Q (k a)) : Yields admitted Q (r >>= k) := by
  cases h with
  | ok a h => exact hk a h
  | error f h => exact .error f h

theorem map {r : Except Fault α} {g : α → β} (h : Yields admitted P r) (hg : ∀ a, P a → Q (g a)) :
    Yields admitted Q (r.map g) := by
  cases h with
  | ok a h => exact .ok (g a) (hg a h)
  | error f h => exact .error f h

end Yields

end Json

end ControlPlane
