import RequestRunner.CommandLine.Argument
import RequestRunner.CommandLine.Command
import RequestRunner.Network.Exchange
import RequestRunner.Run.Session
import RequestRunner.Run.Source

/-!
# The system around a command

What a command needs of the system it runs on, and how it writes to its log: entries below the
threshold are dropped, all others become lines on one of the two streams.

Main statement: without verbose logging details are not written (`log_debug_quiet`).
-/

set_option autoImplicit false

namespace RequestRunner.CommandLine

/-- The system that a command runs on. -/
structure System (m : Type → Type) where
  /-- The files. -/
  disk : Disk m
  /-- How YAML is read. -/
  yaml : YamlReader
  /-- The network. -/
  network : Network.Outgoing → m Network.Reply
  /-- Writes to one of the streams. -/
  write : Writing → m Unit
  /-- The clock, in milliseconds since the epoch. It is read once for a whole command. -/
  now : Int
  /-- The source of random values. -/
  entropy : Entropy

namespace System

variable {m : Type → Type} [Monad m]

/-- The threshold of the log. -/
def threshold (verbose : Bool) : Nat :=
  if verbose then LogEntry.debugThreshold else LogEntry.defaultThreshold

/-- Adds an entry to the log. -/
def log (system : System m) (verbose : Bool) (entry : LogEntry) : m Unit :=
  Session.each system.write (entry.shown (threshold verbose))

/-- **Without verbose logging details are not written.** -/
theorem log_debug_quiet (system : System m) (message : String) :
    system.log false (.debug message) = pure () := rfl

end System

/-- The complaint about a fault. -/
def complaint (fault : Fault) : LogEntry :=
  match fault with
  | .testsFailed failures => .error ("❌ " ++ toString failures.length ++ " test(s) failed")
  | fault => .error ("❌ " ++ fault.message)

end RequestRunner.CommandLine
