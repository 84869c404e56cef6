import RequestRunner.CommandLine.Program
import RequestRunner.Generator.Draw
import RequestRunner.Network.Gateway
import RequestRunner.Yaml.Reader
import Std.Time.DateTime.Timestamp

/-!
# The executable

Runs the program on the system's own files, streams and clock. Requests go to a gateway: the
environment variable `REQUEST_GATEWAY` names a pair of pipes, with the endings `.requests` and
`.replies`, that another process serves. Without one, no request is answered.
-/

set_option autoImplicit false

namespace RequestRunner.Main

/-- What went wrong with a file, as far as the program tells it apart. -/
def fileError (path : String) : IO.Error → FileError
  | .noFileOrDirectory _ _ _ => .absent .access path
  | .inappropriateType _ _ _ => .notDirectory .access path
  | e => .other (toString e)

/-- Attempts something with a file. -/
def attempted {α : Type} (path : String) (x : IO α) : IO (Except FileError α) := do
  try
    let a ← x
    return .ok a
  catch e => return .error (fileError path e)

/-- The files of the system. -/
def disk : Disk IO where
  read path := attempted path (IO.FS.readFile path)
  write path text := attempted path (IO.FS.writeFile path text)
  makeDirectories path := attempted path (IO.FS.createDirAll path)

/-- Sends a request through the gateway at a path. -/
def through (path : String) (outgoing : Network.Outgoing) : IO Network.Reply := do
  IO.FS.writeFile (path ++ ".requests") (outgoing.toJson.compact ++ "\n")
  let answer ← IO.FS.readFile (path ++ ".replies")
  return .ofLine answer

/-- Sends a request through the gateway that the environment names. -/
def network (outgoing : Network.Outgoing) : IO Network.Reply := do
  match ← IO.getEnv "REQUEST_GATEWAY" with
  | none => return .failure "No gateway to the network" none
  | some path =>
    try through path outgoing
    catch e => return .failure (toString e) none

/-- Writes to a stream. -/
def write (w : Writing) : IO Unit := do
  let stream ← match w.stream with
    | .out => IO.getStdout
    | .err => IO.getStderr
  stream.putStr w.text
  stream.flush

/-- The system that the program runs on. -/
def system : IO (CommandLine.System IO) := do
  let now ← Std.Time.Timestamp.now
  let seed ← IO.rand 1 (Nat.pow 2 62)
  return ⟨disk, Yaml.read, network, write, now.toMillisecondsSinceUnixEpoch.val, .seeded seed⟩

end RequestRunner.Main

/-- Runs the program with the arguments of the process. -/
def main (arguments : List String) : IO UInt32 := do
  let system ← RequestRunner.Main.system
  let code ← RequestRunner.CommandLine.program system
    (RequestRunner.javaScript RequestRunner.Script.defaultLimit) arguments
  return code.toUInt32
