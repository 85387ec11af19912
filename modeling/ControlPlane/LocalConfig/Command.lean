import ControlPlane.LocalConfig.Snapshot

/-!
# The configuration command

The local configuration is changed by running a program. It is told to set a key by one argument that
joins key and value with an equals sign, and to unset a key by the key. A reader of the assignment that
splits it at the first equals sign gets the key back as long as the key has none.
-/

namespace ControlPlane

namespace LocalConfig

/-- What the program is asked to do. -/
inductive Order where
  /-- Gives a key a value. -/
  | set (key value : String)
  /-- Removes a key. -/
  | unset (key : String)
deriving DecidableEq, Repr

/-- The arguments of an order. -/
def Order.arguments : Order → List String
  | .set key value => ["set", key ++ "=" ++ value]
  | .unset key => ["unset", key]

/-- The order that carries out a call. -/
def Call.order : Call → Order
  | .set key enabled => .set key (localValue enabled)
  | .unset key => .unset key

/-- The command line of an order, for messages. -/
def Order.commandLine (program : String) (order : Order) : String :=
  program ++ " " ++ " ".intercalate order.arguments

/-- How it goes when a program is run. -/
inductive RunResult where
  /-- It could not be started. -/
  | notStarted (reason : String)
  /-- It ended with a status, having complained. -/
  | exited (status : Nat) (complaint : String)
deriving DecidableEq, Repr

/-- Why an order was not carried out. -/
inductive OrderError where
  /-- The program could not be started. -/
  | notStarted (commandLine reason : String)
  /-- The program failed. -/
  | failed (commandLine : String) (status : Nat) (complaint : String)
deriving DecidableEq, Repr

/-- The wording of an error. -/
def OrderError.message : OrderError → String
  | .notStarted commandLine reason => s!"failed to run {commandLine}: {reason}"
  | .failed commandLine status complaint =>
    s!"{commandLine} exited with exit status: {status}: {complaint}"

/-- Carries out an order. Text with a NUL cannot be handed to a program, so none is run then. -/
def Order.carryOut (program : String) (order : Order) (run : String → List String → RunResult) :
    Except OrderError Unit :=
  let commandLine := order.commandLine program
  if (program :: order.arguments).any (·.toList.contains '\x00') then
    .error (.notStarted commandLine "nul byte found in provided data")
  else match run program order.arguments with
    | .notStarted reason => .error (.notStarted commandLine reason)
    | .exited 0 _ => .ok ()
    | .exited status complaint => .error (.failed commandLine status complaint)

end LocalConfig

end ControlPlane
