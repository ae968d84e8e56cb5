import Cosigning.CommandLine
import Cosigning.Secp256k1.Point

/-!
# The program

Reads the file of settings and the environment, and prints what the command line
yields.
-/

namespace Cosigning

/-- The reason that the operating system gives for a failure, with its number; a failure that is not
the system's is about bytes that are no text. -/
def systemReason : IO.Error -> String
  | .noFileOrDirectory _ code reason
  | .permissionDenied _ code reason
  | .inappropriateType _ code reason
  | .invalidArgument _ code reason
  | .resourceExhausted _ code reason
  | .noSuchThing _ code reason
  | .resourceBusy code reason
  | .hardwareFault code reason
  | .otherError code reason => reason ++ " (os error " ++ toString code ++ ")"
  | .userError _ => "stream did not contain valid UTF-8"
  | failure => toString failure

def readFileText (path : String) : IO (Except String String) := do
  try
    let handle <- IO.FS.Handle.mk path .read
    return .ok (<- handle.readToEnd)
  catch failure =>
    return .error (systemReason failure)

def readOverrides : IO Overrides := do
  let names :=
    ["TAPQUORUM_LOG_LEVEL", "TAPQUORUM_NETWORK", "TAPQUORUM_THRESHOLD", "TAPQUORUM_STRATEGY"]
  let values <- names.mapM (fun name => do return (name, <- IO.getEnv name))
  return CommandLine.overridesOf (fun name => (values.lookup name).join)

def runProgram (arguments : List String) : IO CommandLine.Outcome := do
  let overrides <- readOverrides
  match CommandLine.request arguments with
  | .ok (.work options) =>
      let file <- readFileText options.settingsPath
      return CommandLine.run Secp256k1.Point arguments (fun _ => file) overrides
  | _ =>
      return CommandLine.run Secp256k1.Point arguments (fun _ => .error "") overrides

end Cosigning

def main (arguments : List String) : IO UInt32 := do
  let outcome <- Cosigning.runProgram arguments
  for line in outcome.output do
    IO.println line
  match outcome.failure with
  | none => pure ()
  | some failure =>
      for line in failure.report do
        IO.eprintln line
  return outcome.exitCode.toUInt32
