/-!
# Text without terminal controls

A terminal takes some characters as orders and shows nothing for them: control characters other than
white space, and sequences that an escape character begins. Messages are shown without them. Characters
outside ASCII are always shown, and whatever is shown ends the sequence before it.
-/

namespace ControlPlane

namespace Terminal

/-- Where a scan stands with respect to a sequence of controls. -/
inductive State where
  /-- Outside every sequence. -/
  | ground
  /-- Behind the escape character. -/
  | escape
  /-- Behind an escape character and intermediate ones. -/
  | escapeIntermediate
  /-- In a control sequence, before any parameter. -/
  | controlEntry
  /-- In the parameters of a control sequence. -/
  | controlParameters
  /-- Behind the parameters of a control sequence. -/
  | controlIntermediate
  /-- In a control sequence that means nothing. -/
  | controlIgnored
  /-- In a string of the operating system. -/
  | systemString
  /-- In any other string. -/
  | otherString
deriving DecidableEq, Repr

/-- Whether the code of a character lies between two others. -/
def within (c : Char) (low high : Nat) : Bool := low ≤ c.toNat && c.toNat ≤ high

/-- Whether a control character is white space. -/
def isBlankControl (c : Char) : Bool := c = '\t' || c = '\n' || c = '\x0C' || c = '\r'

/-- Whether a character ends any sequence or begins a new one. -/
def interrupt? (c : Char) : Option State :=
  if c = '\x1B' then some .escape
  else if c = '\x18' || c = '\x1A' then some .ground
  else none

/-- The state behind a printable ASCII character that a sequence swallows. -/
def swallow (c : Char) : State → State
  | .ground => .ground
  | .escape =>
    if within c 0x20 0x2F then .escapeIntermediate
    else if c = '[' then .controlEntry
    else if c = ']' then .systemString
    else if c = 'P' || c = 'X' || c = '^' || c = '_' then .otherString
    else .ground
  | .escapeIntermediate => if within c 0x20 0x2F then .escapeIntermediate else .ground
  | .controlEntry =>
    if within c 0x40 0x7E then .ground
    else if within c 0x20 0x2F then .controlIntermediate
    else .controlParameters
  | .controlParameters =>
    if within c 0x40 0x7E then .ground
    else if within c 0x20 0x2F then .controlIntermediate
    else if within c 0x3C 0x3F then .controlIgnored
    else .controlParameters
  | .controlIntermediate =>
    if within c 0x40 0x7E then .ground
    else if within c 0x20 0x2F then .controlIntermediate
    else .controlIgnored
  | .controlIgnored => if within c 0x40 0x7E then .ground else .controlIgnored
  | .systemString => .systemString
  | .otherString => .otherString

/-- Whether a state is inside a string, where white space is swallowed too. -/
def State.isString (state : State) : Bool := state = .systemString || state = .otherString

/-- What is shown of the characters behind a state. -/
def shown : State → List Char → List Char
  | _, [] => []
  | state, c :: rest =>
    match interrupt? c with
    | some state => shown state rest
    | none =>
      if 0x80 ≤ c.toNat then c :: shown .ground rest
      else if c.toNat < 0x20 then
        if isBlankControl c && !state.isString then c :: shown .ground rest
        else if state = .systemString && c = '\x07' then shown .ground rest
        else shown state rest
      else if c = '\x7F' then shown state rest
      else if state = .ground then c :: shown .ground rest
      else shown (swallow c state) rest

end Terminal

/-- A text without terminal controls. -/
def withoutControls (text : String) : String := String.ofList (Terminal.shown .ground text.toList)

end ControlPlane
