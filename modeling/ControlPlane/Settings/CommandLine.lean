import ControlPlane.Settings.Option
import ControlPlane.Text.Terminal

/-!
# The command line

Arguments are read from left to right, and the first thing that is wrong ends the reading. An option
takes its value from behind an equals sign, or from the next argument if that does not begin with a
minus sign; its value is looked at when the next option or flag begins. Then the variables of the
environment give the options that are still open, in the order of `Opt.all`; the variable of an option
that was given is not even looked at.

Behind two minus signs alone nothing is an option any more, and since there is nothing else to give,
any argument there is one too many.
-/

namespace ControlPlane

/-- Why arguments are refused, or that they ask to be told something. -/
inductive UsageError where
  /-- There is no such argument. -/
  | unexpectedArgument (text : String)
  /-- A flag was given a value. -/
  | unexpectedValue (flag : Flag) (text : String)
  /-- An option has no value. -/
  | valueRequired (option : Opt)
  /-- An option has a wrong value. -/
  | wrongValue (option : Opt) (text : String) (fault : ValueFault)
  /-- An option was given twice. -/
  | optionRepeated (option : Opt)
  /-- A flag was given twice. -/
  | flagRepeated (flag : Flag)
  /-- Help was asked for. -/
  | helpWanted
  /-- The version was asked for. -/
  | versionWanted
deriving DecidableEq, Repr

/-- What the program is. -/
def programSummary : String := "Cluster control-plane daemon: remote state, locks and feature gates"

/-- The name of the program and its version. -/
def programVersion : String := "clusterd 0.1.0"

/-- The wording of an error. -/
def UsageError.message : UsageError → String
  | .unexpectedArgument text => s!"error: unexpected argument '{withoutControls text}' found"
  | .unexpectedValue flag text =>
    let value := withoutControls text
    s!"error: unexpected value '{value}' for '{flag.describe}' found; no more were expected"
  | .valueRequired option =>
    s!"error: a value is required for '{option.describe}' but none was supplied"
  | .wrongValue option text fault =>
    let wrong := s!"error: invalid value '{withoutControls text}' for '{option.describe}'"
    match fault.reason with
    | some reason => s!"{wrong}: {reason}"
    | none => wrong
  | .optionRepeated option =>
    s!"error: the argument '{option.describe}' cannot be used multiple times"
  | .flagRepeated flag => s!"error: the argument '{flag.describe}' cannot be used multiple times"
  | .helpWanted => programSummary
  | .versionWanted => programVersion

/-- What has been given so far. -/
structure Given where
  /-- The settings, standard ones where nothing was given. -/
  settings : Settings
  /-- The options given. -/
  options : List Opt
  /-- The flags given. -/
  flags : List Flag
deriving DecidableEq, Repr

namespace Given

/-- Nothing. -/
def nothing : Given := ⟨.standard, [], []⟩

/-- The settings after an option is given a value. -/
def assign (settings : Settings) (option : Opt) (text : String) : Except UsageError Settings :=
  let wrong {α : Type} (text : String) : Except ValueFault α → Except UsageError α
    | .ok value => .ok value
    | .error .missing => .error (.valueRequired option)
    | .error fault => .error (.wrongValue option text fault)
  match option with
  | .stateDir => do .ok { settings with stateDir := ← wrong text (OptionValue.readPath text) }
  | .name => .ok { settings with name := some text }
  | .bind => do .ok { settings with bind := ← wrong text (OptionValue.readSocketAddress text) }
  | .socket => do .ok { settings with socket := some (← wrong text (OptionValue.readPath text)) }
  | .peer => do
    let peers ← (text.splitOn ",").mapM fun part => wrong part (OptionValue.readIpAddress part)
    .ok { settings with peers := settings.peers ++ peers }
  | .role => do .ok { settings with role := ← wrong text (OptionValue.readRole text) }
  | .deploymentType => .ok { settings with deploymentType := some text }
  | .syncInterval => do .ok { settings with syncInterval := ← wrong text (OptionValue.readNumber text) }
  | .syncDebounce => do .ok { settings with syncDebounce := ← wrong text (OptionValue.readNumber text) }
  | .callTimeout => do .ok { settings with callTimeout := ← wrong text (OptionValue.readNumber text) }
  | .command => .ok { settings with command := text }

/-- Gives an option a value. That it was given before is noticed before the value is looked at. -/
def take (given : Given) (option : Opt) (text : String) : Except UsageError Given := do
  if given.options.contains option && !option.repeats then throw (.optionRepeated option)
  let settings ← assign given.settings option text
  .ok { given with settings := settings, options := option :: given.options }

/-- Raises a flag. -/
def raise (given : Given) (flag : Flag) : Except UsageError Given := do
  if given.flags.contains flag then throw (.flagRepeated flag)
  let given := { given with flags := flag :: given.flags }
  let settings := given.settings
  match flag with
  | .debug => .ok { given with settings := { settings with debug := true } }
  | .verbose => .ok { given with settings := { settings with verbose := true } }
  | .help => .error .helpWanted
  | .version => .error .versionWanted

end Given

/-! ## Arguments -/

/-- An option whose value has not been looked at. -/
inductive Pending where
  /-- There is none. -/
  | none
  /-- An option that waits for its value. -/
  | waiting (option : Opt)
  /-- An option with its value. -/
  | holding (option : Opt) (text : String)
deriving DecidableEq, Repr

/-- How far arguments have been read. -/
structure Reading where
  /-- What has been given. -/
  given : Given
  /-- The option whose value has not been looked at. -/
  pending : Pending
  /-- Whether nothing is an option any more. -/
  closed : Bool
deriving DecidableEq, Repr

namespace Reading

/-- Looks at the value that has not been looked at. -/
def settle (reading : Reading) : Except UsageError Given :=
  match reading.pending with
  | .none => .ok reading.given
  | .waiting option => .error (.valueRequired option)
  | .holding option text => reading.given.take option text

/-- Goes on with nothing pending. -/
def resume (given : Given) : Reading := ⟨given, .none, false⟩

/-- Reads a flag. -/
def readFlag (reading : Reading) (flag : Flag) : Except UsageError Reading := do
  .ok (resume (← (← reading.settle).raise flag))

/-- Reads an argument that begins with two minus signs. -/
def readLong (reading : Reading) (text : List Char) : Except UsageError Reading := do
  let name := String.ofList (text.takeWhile (· ≠ '='))
  let attached :=
    match text.dropWhile (· ≠ '=') with
    | [] => Option.none
    | _ :: value => some (String.ofList value)
  match Opt.all.find? (·.long = name), Flag.all.find? (·.long = name), attached with
  | some option, _, some value => .ok (resume (← (← reading.settle).take option value))
  | some option, _, none => .ok { resume (← reading.settle) with pending := .waiting option }
  | none, some flag, some value => .error (.unexpectedValue flag value)
  | none, some flag, none => reading.readFlag flag
  | none, none, _ => .error (.unexpectedArgument ("--" ++ name))

/-- Reads letters behind one minus sign. -/
def readLetters (reading : Reading) : List Char → Except UsageError Reading
  | [] => .ok reading
  | c :: rest =>
    match Flag.all.find? (·.short = c) with
    | some flag => do (← reading.readFlag flag).readLetters rest
    | none => .error (.unexpectedArgument (String.ofList ['-', c]))

/-- Reads an argument that is no option. -/
def readPlain (reading : Reading) (text : String) : Except UsageError Reading :=
  match reading.closed, reading.pending with
  | false, .waiting option => .ok { reading with pending := .holding option text }
  | _, _ => .error (.unexpectedArgument text)

/-- Reads an argument. -/
def readArgument (reading : Reading) (text : String) : Except UsageError Reading :=
  if reading.closed then reading.readPlain text
  else match text.toList with
    | ['-', '-'] => .ok { reading with closed := true }
    | '-' :: '-' :: rest => reading.readLong rest
    | ['-'] => reading.readPlain text
    | '-' :: rest => reading.readLetters rest
    | _ => reading.readPlain text

end Reading

/-- Gives an option what its variable of the environment says, unless it was given already. -/
def Given.takeVariable (environment : String → Option String) (given : Given) (option : Opt) :
    Except UsageError Given :=
  if given.options.contains option then .ok given
  else match environment option.envName with
    | some text => given.take option text
    | none => .ok given

/-- The settings that arguments and the environment give. -/
def Settings.ofArguments (arguments : List String) (environment : String → Option String) :
    Except UsageError Settings := do
  let reading ← arguments.foldlM Reading.readArgument (Reading.resume .nothing)
  let given ← reading.settle
  .ok (← Opt.all.foldlM (Given.takeVariable environment) given).settings

end ControlPlane
