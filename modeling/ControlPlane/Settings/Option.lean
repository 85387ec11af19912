import ControlPlane.Net.AddressText
import ControlPlane.Settings.Basic

/-!
# Options and flags

An option takes a value, from the command line or from a variable of the environment; a flag takes none.
Most values have a form of their own, and a text that does not have it is refused with the reason.
-/

namespace ControlPlane

/-- An option. -/
inductive Opt where
  /-- The state directory. -/
  | stateDir
  /-- The name of the member. -/
  | name
  /-- The address of the interface over HTTP. -/
  | bind
  /-- The control socket. -/
  | socket
  /-- Other members. -/
  | peer
  /-- The role. -/
  | role
  /-- How the cluster is deployed. -/
  | deploymentType
  /-- The period of the synchronizer. -/
  | syncInterval
  /-- The time between cycles that write. -/
  | syncDebounce
  /-- The time after which a call is given up. -/
  | callTimeout
  /-- The configuration command. -/
  | command
deriving DecidableEq, Repr

/-- A flag. -/
inductive Flag where
  /-- Debugging messages. -/
  | debug
  /-- Messages of other parts. -/
  | verbose
  /-- Asks for help. -/
  | help
  /-- Asks for the version. -/
  | version
deriving DecidableEq, Repr

namespace Opt

/-- All options, in the order in which the environment is read. -/
def all : List Opt :=
  [.stateDir, .name, .bind, .socket, .peer, .role, .deploymentType, .syncInterval, .syncDebounce,
    .callTimeout, .command]

/-- The name on the command line. -/
def long : Opt → String
  | .stateDir => "state-dir"
  | .name => "name"
  | .bind => "bind"
  | .socket => "socket"
  | .peer => "peer"
  | .role => "role"
  | .deploymentType => "deployment-type"
  | .syncInterval => "sync-interval-secs"
  | .syncDebounce => "sync-debounce-ms"
  | .callTimeout => "mirror-timeout-secs"
  | .command => "mirror-command"

/-- The variable of the environment. -/
def envName : Opt → String
  | .stateDir => "CLUSTERD_STATE_DIR"
  | .name => "CLUSTERD_NAME"
  | .bind => "CLUSTERD_BIND_ADDR"
  | .socket => "CLUSTERD_SOCKET"
  | .peer => "CLUSTERD_PEERS"
  | .role => "CLUSTERD_ROLE"
  | .deploymentType => "CLUSTERD_DEPLOYMENT_TYPE"
  | .syncInterval => "CLUSTERD_SYNC_INTERVAL_SECS"
  | .syncDebounce => "CLUSTERD_SYNC_DEBOUNCE_MS"
  | .callTimeout => "CLUSTERD_MIRROR_TIMEOUT_SECS"
  | .command => "CLUSTERD_MIRROR_COMMAND"

/-- The word that stands for the value. -/
def placeholder : Opt → String
  | .stateDir => "STATE_DIR"
  | .name => "NAME"
  | .bind => "BIND"
  | .socket => "SOCKET"
  | .peer => "PEERS"
  | .role => "ROLE"
  | .deploymentType => "DEPLOYMENT_TYPE"
  | .syncInterval => "SYNC_INTERVAL_SECS"
  | .syncDebounce => "SYNC_DEBOUNCE_MS"
  | .callTimeout => "MIRROR_TIMEOUT_SECS"
  | .command => "MIRROR_COMMAND"

/-- How messages call an option. -/
def describe (option : Opt) : String := s!"--{option.long} <{option.placeholder}>"

/-- Whether an option may be given more than once. -/
def repeats (option : Opt) : Bool := option = .peer

end Opt

namespace Flag

/-- All flags. -/
def all : List Flag := [.debug, .verbose, .help, .version]

/-- The name on the command line. -/
def long : Flag → String
  | .debug => "debug"
  | .verbose => "verbose"
  | .help => "help"
  | .version => "version"

/-- The letter on the command line. -/
def short : Flag → Char
  | .debug => 'd'
  | .verbose => 'v'
  | .help => 'h'
  | .version => 'V'

/-- How messages call a flag. -/
def describe (flag : Flag) : String := "--" ++ flag.long

end Flag

/-! ## Values -/

/-- Why a text is no value of an option. -/
inductive ValueFault where
  /-- It is empty where it must not be. -/
  | missing
  /-- It is none of the words allowed. -/
  | unknownWord
  /-- It is no address of a connection. -/
  | badSocketAddress
  /-- It is no Internet address. -/
  | badIpAddress
  /-- It is no number, being empty. -/
  | emptyNumber
  /-- It is no number, having something other than digits. -/
  | badDigit
  /-- It is a number too large for 64 bits. -/
  | numberTooLarge
deriving DecidableEq, Repr

/-- The reason that messages give. -/
def ValueFault.reason : ValueFault → Option String
  | .missing | .unknownWord => none
  | .badSocketAddress => some "invalid socket address syntax"
  | .badIpAddress => some "invalid IP address syntax"
  | .emptyNumber => some "cannot parse integer from empty string"
  | .badDigit => some "invalid digit found in string"
  | .numberTooLarge => some "number too large to fit in target type"

namespace OptionValue

/-- Reads digits into a number of 64 bits. The first digit at which something is wrong decides. -/
def readDigits (value : Nat) : List Char → Except ValueFault Nat
  | [] => .ok value
  | c :: rest =>
    if !c.isDigit then .error .badDigit
    else
      let value := value * 10 + (c.toNat - '0'.toNat)
      if 0x10000000000000000 ≤ value then .error .numberTooLarge else readDigits value rest

/-- Reads a number, which may have a plus sign. -/
def readNumber (text : String) : Except ValueFault Nat :=
  match text.toList with
  | [] => .error .emptyNumber
  | ['+'] => .error .badDigit
  | '+' :: digits => readDigits 0 digits
  | digits => readDigits 0 digits

/-- Reads a path. -/
def readPath (text : String) : Except ValueFault String :=
  if text = "" then .error .missing else .ok text

/-- Reads the word for a role. -/
def readRole (text : String) : Except ValueFault Role :=
  match Role.all.find? (·.word = text) with
  | some role => .ok role
  | none => .error (if text = "" then .missing else .unknownWord)

/-- Reads an address of a connection. -/
def readSocketAddress (text : String) : Except ValueFault Net.SocketAddress :=
  match Net.SocketAddress.ofText? text with
  | some address => .ok address
  | none => .error .badSocketAddress

/-- Reads an Internet address. -/
def readIpAddress (text : String) : Except ValueFault Net.IpAddress :=
  match Net.IpAddress.ofText? text with
  | some address => .ok address
  | none => .error .badIpAddress

end OptionValue

end ControlPlane
