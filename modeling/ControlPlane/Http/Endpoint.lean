import ControlPlane.Access
import ControlPlane.Http.Target

/-!
# Endpoints

An endpoint is what a path names: a collection, or a member of one by the last segment of the path.
Paths are compared byte for byte and before decoding, so a member's segment may hold an encoded slash.
Each endpoint belongs to a group and answers some methods.
-/

namespace ControlPlane

namespace Http

open Ascii

/-- What a path names. A member carries its segment, still encoded. -/
inductive Endpoint where
  /-- All states. -/
  | states
  /-- A state. -/
  | state (segment : List UInt8)
  /-- All locks. -/
  | locks
  /-- A lock. -/
  | lock (segment : List UInt8)
  /-- A lock that is to be given back. -/
  | unlock (segment : List UInt8)
  /-- All gates. -/
  | gates
  /-- A gate. -/
  | gate (segment : List UInt8)
  /-- A configuration value. -/
  | config (segment : List UInt8)
deriving DecidableEq, Repr

namespace Endpoint

/-- The first segment of every path. -/
def version : List UInt8 := "1.0".toUTF8.data.toList

/-- Whether a segment is a given word. -/
def isWord (segment : List UInt8) (word : String) : Bool := segment = word.toUTF8.data.toList

/-- The collection with a name. -/
def ofCollection? (segment : List UInt8) : Option Endpoint :=
  if isWord segment "state" then some .states
  else if isWord segment "lock" then some .locks
  else if isWord segment "feature-gates" then some .gates
  else none

/-- The member of a named collection. -/
def ofMember? (collection segment : List UInt8) : Option Endpoint :=
  if isWord collection "state" then some (.state segment)
  else if isWord collection "lock" then some (.lock segment)
  else if isWord collection "unlock" then some (.unlock segment)
  else if isWord collection "feature-gates" then some (.gate segment)
  else if isWord collection "config" then some (.config segment)
  else none

/-- The endpoint that a path names. -/
def ofPath? (path : List UInt8) : Option Endpoint :=
  match splitOn slash path with
  | [[], first, collection] => if first = version then ofCollection? collection else none
  | [[], first, collection, segment] =>
    if first = version ∧ segment ≠ [] then ofMember? collection segment else none
  | _ => none

/-- The group of an endpoint. -/
def group : Endpoint → EndpointGroup
  | .states | .state _ | .locks | .lock _ | .unlock _ => .documents
  | .gates | .gate _ | .config _ => .cluster

/-- The methods that an endpoint answers. -/
def methods : Endpoint → List Method
  | .states | .locks => [.get, .head]
  | .state _ | .gate _ | .config _ => [.get, .head, .put, .delete]
  | .lock _ => [.get, .head, .put]
  | .unlock _ => [.put]
  | .gates => [.get, .head, .post]

end Endpoint

end Http

end ControlPlane
