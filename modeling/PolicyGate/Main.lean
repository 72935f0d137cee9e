import PolicyGate.CommandLine.Run
import PolicyGate.Subject.Fresh
import PolicyGate.Time.Epoch
import Std.Time.DateTime.Timestamp

/-!
The program: it looks at the files that its arguments and its configuration name, carries out the
command line on what it has seen and prints the result.
-/

namespace PolicyGate

open CommandLine

def lookAt (path : String) : IO (Option FileNode) := do
  try
    return some (.octets (← IO.FS.readBinFile path).toList)
  catch
    | .noFileOrDirectory .. => return none
    | _ => return some .folder

/-- What is there at each of some paths. -/
def lookAtAll (paths : List String) : IO (List (String × FileNode)) := do
  let found ← paths.mapM fun path => do return (← lookAt path).map (path, ·)
  return found.filterMap id

/-- The variables of the process. -/
def readEnvironment : IO (List (String × String)) := do
  let octets ← IO.FS.readBinFile "/proc/self/environ"
  let entries := ((String.fromUTF8? octets).getD "").splitOn "\x00"
  return entries.filterMap (Text.splitOnce '=')

/-- The time now. -/
def readClock : IO Timestamp := do
  let now ← Std.Time.Timestamp.now
  return .ofEpoch now.val.second.val now.val.nano.val.toNat

/-- The program as it was built. -/
def build : BuildInfo := ⟨"0.1.0", "unknown", "unknown"⟩

/-- What the program sees that is called with some arguments. -/
def readHost (arguments : List String) : IO Host := do
  let environment ← readEnvironment
  match Invocation.parse arguments with
  | .error _ => return ⟨environment, .empty⟩
  | .ok invocation =>
    let named ← lookAtAll invocation.files
    let host : Host := ⟨environment, .ofAnswers named⟩
    match AppConfig.load host invocation.config with
    | .error _ => return host
    | .ok loaded =>
      let configured ← lookAtAll (filesOfConfig environment loaded.config)
      return ⟨environment, .ofAnswers (named ++ configured)⟩

end PolicyGate

open PolicyGate PolicyGate.CommandLine

/-- Carries out the command line. -/
def main (arguments : List String) : IO UInt32 := do
  let host ← readHost arguments
  let token := Token.ofOctets (← IO.getRandomBytes 16).toList
  let ending := Session.execute ⟨host, build, ← readClock, token⟩ arguments
  IO.print ending.output
  if let some e := ending.failure then IO.eprintln ("Error: " ++ e.message)
  if ending.exitCode = 2 then IO.eprint programSpec.helpText
  return ending.exitCode.toUInt32
