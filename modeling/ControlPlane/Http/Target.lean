import ControlPlane.Http.Percent

/-!
# Request targets and methods

A request names a method and a target. The target is a path with an optional query, the same behind a
scheme and an authority, or an asterisk. What stands behind a number sign is dropped. A target that
breaks the grammar never becomes a request, and neither does a method that is no token.
-/

namespace ControlPlane

namespace Http

open Ascii

/-- The target of a request. -/
structure Target where
  /-- The path, still encoded. -/
  path : List UInt8
  /-- The query, still encoded; empty if there is none. -/
  query : List UInt8
deriving DecidableEq, Repr

/-! ## Paths and queries -/

/-- The bytes of a path: all but controls, the space, angle brackets, the backquote and the signs that
end a path. -/
def isPathByte (b : UInt8) : Bool :=
  0x20 < b && !([hash, 0x3C, 0x3E, question, 0x60] : List UInt8).contains b

/-- The bytes of a query. -/
def isQueryByte (b : UInt8) : Bool := isPathByte b || b = question

/-- Reads a path with an optional query. An empty path is the root. -/
def readPath (s : List UInt8) : Option Target :=
  let kept := s.takeWhile (· ≠ hash)
  let path := kept.takeWhile (· ≠ question)
  let query := (kept.dropWhile (· ≠ question)).drop 1
  if path.all isPathByte && query.all isQueryByte then
    some ⟨if path = [] then [slash] else path, query⟩
  else none

/-! ## Schemes and authorities -/

/-- The bytes of a scheme. -/
def isSchemeByte (b : UInt8) : Bool :=
  isLetter b || isDigit b || ([plus, minus, dot] : List UInt8).contains b

/-- The bytes of an authority besides letters, digits, the percent sign and those that end it. -/
def authoritySigns : List UInt8 := "!$&'()*+,-.:;=@[]_~".toUTF8.data.toList

/-- The bytes of an authority. -/
def isAuthorityByte (b : UInt8) : Bool :=
  isLetter b || isDigit b || b = percent || authoritySigns.contains b

/-- Whether a byte ends an authority. -/
def endsAuthority (b : UInt8) : Bool := b = slash || b = question || b = hash

/-- Whether what follows the user and the bracketed host of an authority is well formed: at most one
colon, and nothing percent-encoded. -/
def isPlainHost (host : List UInt8) : Bool := host.count colon ≤ 1 && !host.contains percent

/-- The part of an authority behind the user. -/
def behindUser (authority : List UInt8) : List UInt8 :=
  (authority.reverse.takeWhile (· ≠ 0x40)).reverse

/-- Whether an authority is well formed: after the user, a host in brackets or a plain one, and
possibly a colon with a number. -/
def isAuthority (authority : List UInt8) : Bool :=
  let host := behindUser authority
  let brackets := (authority.count openBracket, authority.count closeBracket)
  authority.all isAuthorityByte && host ≠ [] &&
    match brackets with
    | (0, 0) => isPlainHost host
    | (1, 1) =>
      !(host.takeWhile (· ≠ openBracket)).contains percent &&
        isPlainHost ((host.dropWhile (· ≠ closeBracket)).drop 1) && host.contains closeBracket
    | _ => false

/-- Reads the target behind a scheme and its colon. -/
def readAuthority : List UInt8 → Option Target
  | a :: b :: rest =>
    let authority := rest.takeWhile (!endsAuthority ·)
    if a = slash ∧ b = slash ∧ isAuthority authority then readPath (rest.drop authority.length)
    else none
  | _ => none

/-- The greatest length of a target. -/
def maxTargetLength : Nat := 65534

/-- Reads a target. -/
def Target.ofText? (text : String) : Option Target :=
  let s := text.toUTF8.data.toList
  if maxTargetLength < s.length then none
  else match s with
    | [] => none
    | b :: rest =>
      if b = slash then readPath s
      else if b = asterisk ∧ rest = [] then some ⟨s, []⟩
      else match s.dropWhile isSchemeByte with
        | c :: rest => if c = colon then readAuthority rest else none
        | [] => none

/-! ## Methods -/

/-- The method of a request. -/
inductive Method where
  /-- Reads. -/
  | get
  /-- Reads all but the body. -/
  | head
  /-- Writes. -/
  | put
  /-- Adds. -/
  | post
  /-- Removes. -/
  | delete
  /-- Anything else. -/
  | other (name : String)
deriving DecidableEq, Repr

/-- The name of a method. -/
def Method.name : Method → String
  | .get => "GET"
  | .head => "HEAD"
  | .put => "PUT"
  | .post => "POST"
  | .delete => "DELETE"
  | .other name => name

/-- The bytes of a token. -/
def isTokenByte (b : UInt8) : Bool :=
  isLetter b || isDigit b || ("!#$%&'*+-.^_\x60|~".toUTF8.data.toList).contains b

/-- Reads a method. -/
def Method.ofText? (text : String) : Option Method :=
  let s := text.toUTF8.data.toList
  if s = [] || !s.all isTokenByte then none
  else match ([.get, .head, .put, .post, .delete] : List Method).find? (·.name = text) with
    | some method => some method
    | none => some (.other text)

end Http

end ControlPlane
