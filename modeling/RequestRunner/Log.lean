import RequestRunner.Output.Printer

/-!
# Log lines

Log entries have a level, and a log shows those of at least its threshold. Reports of success and the
output of scripts are always shown. Warnings and errors go to the error stream, everything else to
the standard stream.
-/

set_option autoImplicit false

namespace RequestRunner

/-- An entry of the log. -/
inductive LogEntry where
  | debug (message : String)
  | info (message : String)
  | warn (message : String)
  | error (message : String)
  /-- A success, shown at every threshold. -/
  | success (message : String)
  /-- Output of a script, shown at every threshold and without a mark. -/
  | script (message : String)
  deriving DecidableEq, Repr

namespace LogEntry

/-- The threshold of details for troubleshooting. -/
def debugThreshold : Nat := 0

/-- The threshold at the start: warnings and errors. -/
def defaultThreshold : Nat := 2

/-- The greatest threshold at which an entry is shown; none hides it otherwise. -/
def level? : LogEntry → Option Nat
  | debug _ => some 0
  | info _ => some 1
  | warn _ => some 2
  | error _ => some 3
  | success _ => none
  | script _ => none

/-- The entry is shown at a threshold. -/
def isShown (threshold : Nat) (entry : LogEntry) : Bool :=
  entry.level?.all fun level => threshold ≤ level

/-- The line of an entry and the stream it goes to. -/
def writing : LogEntry → Writing
  | debug message => ⟨.out, "[DEBUG] " ++ message ++ "\n"⟩
  | info message => ⟨.out, "[INFO] " ++ message ++ "\n"⟩
  | warn message => ⟨.err, "[WARN] " ++ message ++ "\n"⟩
  | error message => ⟨.err, "[ERROR] " ++ message ++ "\n"⟩
  | success message => ⟨.out, "[SUCCESS] " ++ message ++ "\n"⟩
  | script message => ⟨.out, message ++ "\n"⟩

/-- What is written of an entry at a threshold. -/
def shown (threshold : Nat) (entry : LogEntry) : List Writing :=
  if entry.isShown threshold then [entry.writing] else []

end LogEntry

end RequestRunner
