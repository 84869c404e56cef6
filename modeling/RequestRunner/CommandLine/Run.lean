import RequestRunner.CommandLine.System

/-!
# Running files

Running files reads all of them, then the environment, then the options of the output and the
network, and only then starts a session. The exit code is that of the output, or one if the run
failed.

Main statement: without files nothing is run (`attempt_nil`).
-/

set_option autoImplicit false

namespace RequestRunner.CommandLine

variable {m : Type → Type} [Monad m] {C : Type}

namespace RunOptions

/-- What a session needs of the outside, from the system and the options. -/
def outside (options : RunOptions) (system : System m) (settings : Network.Settings) :
    Outside m where
  write := system.write
  log := system.log options.verbose
  send := Network.exchange settings system.network (system.log options.verbose)
  save := options.environment.save system.disk (system.log options.verbose)

/-- Runs files of which there is at least one, for the exit code. -/
def attemptFiles (options : RunOptions) (system : System m) (language : Language C)
    (files : List String) : Attempt m Nat := do
  let log := system.log options.verbose
  let arguments := files.map FileArgument.ofText
  let sources ← Source.loadAll system.disk (arguments.map fun a => (a.path, a.wanted))
  let known ← options.environment.load system.yaml system.disk log
  let kind ← EnvironmentFiles.allowed
    (PrinterKind.ofOptions options.kind options.requestFormat options.responseFormat)
  let timeout ← EnvironmentFiles.allowed (readTimeout options.timeout)
  log (.debug ("Running " ++ String.intercalate ", " files ++ " with environment \"" ++
    options.environment.name ++ "\""))
  let session ← EnvironmentFiles.allowed
    (Session.start language known kind system.now system.entropy)
  let crew := Session.crew language (options.outside system ⟨timeout, options.insecure⟩)
    (Source.allItems sources)
  let (result, session) ← (Run.execute crew).run.run session
  match result with
  | .ok _ => pure session.printer.exitCode
  | .error fault => throw fault

/-- Runs files, for the exit code. -/
def attempt (options : RunOptions) (system : System m) (language : Language C) :
    List String → Attempt m Nat
  | [] => throw (.configuration .noFiles)
  | files => options.attemptFiles system language files

/-- The details of a fault, for the log. Failed tests have none. -/
def details : Fault → List LogEntry
  | .testsFailed _ => []
  | fault => [.debug (fault.kind ++ ": " ++ fault.message)]

/-- Runs files and complains if that fails, for the exit code. -/
def perform (options : RunOptions) (system : System m) (language : Language C)
    (files : List String) : m Nat := do
  match ← (options.attempt system language files).run with
  | .ok code => pure code
  | .error fault => do
    let log := system.log options.verbose
    log (complaint fault)
    Session.each log (details fault)
    pure 1

/-- **Without files nothing is run.** -/
theorem attempt_nil (options : RunOptions) (system : System m)
    (language : Language C) :
    options.attempt system language [] = throw (.configuration .noFiles) := rfl

end RunOptions

end RequestRunner.CommandLine
