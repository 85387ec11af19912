import ControlPlane.Daemon
import ControlPlane.Settings.CommandLine

/-!
# The program

Reads the settings, starts a daemon over an empty store and answers requests from standard input as from
the control socket: a line holds a method, a target and possibly a body, divided by spaces. The answer is
the status and the body. The end of the input stops the daemon.
-/

namespace ControlPlane

namespace Program

/-- The variables of the environment that the options name. -/
def environment : IO (List (String × String)) :=
  Opt.all.filterMapM fun option => do
    pure ((← IO.getEnv option.envName).map fun value => (option.envName, value))

/-- The request in a line. -/
def readRequest (line : String) : Option Http.Request := do
  let words := (line.trimAscii.toString).splitOn " "
  let method ← Http.Method.ofText? (← words[0]?)
  let target ← Http.Target.ofText? (← words[1]?)
  some ⟨method, target, (" ".intercalate (words.drop 2)).toUTF8, some .socket, none⟩

/-- Answers lines until the input ends. -/
partial def answerLines (input : IO.FS.Stream) (daemon : Daemon) : IO Unit := do
  let line ← input.getLine
  if line.isEmpty then return
  match readRequest line with
  | none =>
    IO.println "400"
    answerLines input daemon
  | some request =>
    let (response, daemon) := daemon.answer request
    IO.println s!"{response.status} {Utf8.decodeLossy response.body}"
    answerLines input daemon

/-- Starts a daemon and lets it answer. -/
def run (settings : Settings) : IO UInt32 := do
  match (Daemon.boot settings [] .empty).1 with
  | .error e =>
    IO.eprintln e.message
    return 1
  | .ok daemon =>
    let (entered, daemon) := daemon.enterCluster
    match entered with
    | .error e =>
      IO.eprintln e.message
      return 1
    | .ok () =>
      answerLines (← IO.getStdin) daemon
      return 0

end Program

end ControlPlane

open ControlPlane in
/-- Reads the settings and runs the program. -/
def main (arguments : List String) : IO UInt32 := do
  let environment ← Program.environment
  match Settings.ofArguments arguments (environment.lookup ·) with
  | .error .helpWanted =>
    IO.println UsageError.helpWanted.message
    return 0
  | .error .versionWanted =>
    IO.println UsageError.versionWanted.message
    return 0
  | .error e =>
    IO.eprintln e.message
    return 2
  | .ok settings => Program.run settings
