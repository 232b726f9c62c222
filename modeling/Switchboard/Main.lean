import Switchboard.Hub.Startup
import Switchboard.Json.Printer
/-!
# The command line

Called with the path of a configuration, or with nothing, the program sets up a hub and shows the
configuration that is in effect. If something is refused, it says so on the error output and ends
with status 1.
-/

namespace Switchboard

/-- The variables of the given names that are set. -/
def readEnvironment (names : List String) : IO Environment :=
  names.filterMapM fun name => return (← IO.getEnv name).map fun value => (name, value)

/-- Reads the configuration in a file. -/
def readConfig (path : String) : IO (Except ConfigError Config) := do
  match ← (IO.FS.readFile path).toBaseIO with
  | .error _ => return .error .unreadable
  | .ok text =>
    let names := ((Document.ofYaml? text).map Environment.asked).getD []
    return Config.read (← readEnvironment names) text

/-- Reports a refusal. -/
def refuse (message : String) : IO UInt32 := do
  (← IO.getStderr).putStrLn message
  return 1

end Switchboard

open Switchboard in
/-- Sets up a hub for the configuration in the file that is named, or for the standard one. -/
def main (args : List String) : IO UInt32 := do
  let loaded ← match args with
    | path :: _ => readConfig path
    | [] => pure (.ok Config.standard)
  match loaded with
  | .error e => refuse e.message
  | .ok config =>
    match Hub.ofConfig config with
    | .error e => refuse (e.message ++ ": " ++ e.cause)
    | .ok _ =>
      (← IO.getStdout).putStrLn config.toJson.text
      return 0
