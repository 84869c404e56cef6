import RequestRunner.CommandLine.Suggestion
import RequestRunner.Environment.Provider
import RequestRunner.Output.Printer

/-!
# Commands

What a command line asks for: to run files, which is also meant when no command is named, to validate
them, or to be told the version or the usage. `Command.ofArguments` reads it.

Main statement: arguments that are no options and name no command are files to run with every option
at its default (`ofArguments_files`).
-/

set_option autoImplicit false

namespace RequestRunner.CommandLine

/-- The version of the program. -/
def version : String := "0.1.0"

/-- How files are run. -/
structure RunOptions where
  /-- Where the variables come from and go to. -/
  environment : EnvironmentFiles
  /-- The format of requests, as typed. -/
  requestFormat : String
  /-- The format of responses, as typed. -/
  responseFormat : String
  /-- The kind of output. -/
  kind : String
  /-- Certificates are not verified. -/
  insecure : Bool
  /-- The time limit of a request, as typed. -/
  timeout : String
  /-- Details are logged. -/
  verbose : Bool

/-- How files are validated. -/
structure ValidateOptions where
  /-- The requests are shown with their placeholders filled. -/
  preview : Bool
  /-- Where the variables for that come from. -/
  environment : EnvironmentFiles
  /-- The format of shown requests, as typed. -/
  requestFormat : String
  /-- Details are logged. -/
  verbose : Bool

/-- What a command line asks for. -/
inductive Command where
  /-- To run files. -/
  | run (files : List String) (options : RunOptions)
  /-- To validate files. -/
  | validate (files : List String) (options : ValidateOptions)
  /-- To be told the version. -/
  | version
  /-- To be told the usage. -/
  | usage

namespace Command

/-- The options that every command line knows. -/
def globalOptions : List OptionSpec := [⟨some 'V', "version", none⟩]

/-- The options of a run. -/
def runOptions : List OptionSpec :=
  [⟨some 'n', "env-file", some "path"⟩, ⟨some 'p', "snapshot", some "path"⟩,
    ⟨some 'e', "env", some "name"⟩, ⟨none, "request-format", some "format"⟩,
    ⟨none, "response-format", some "format"⟩, ⟨none, "format", some "kind"⟩,
    ⟨some 'k', "insecure", none⟩, ⟨none, "timeout", some "ms"⟩, ⟨some 'v', "verbose", none⟩]

/-- The options of a validation. -/
def validateOptions : List OptionSpec :=
  [⟨none, "preview", none⟩, ⟨some 'n', "env-file", some "path"⟩,
    ⟨some 'p', "snapshot", some "path"⟩, ⟨some 'e', "env", some "name"⟩,
    ⟨none, "request-format", some "format"⟩, ⟨some 'v', "verbose", none⟩]

/-- The name of the usage option, which is read behind all others. -/
def usageName : String := "help"

/-- The argument asks for the usage. -/
def asksUsage (argument : String) : Bool := argument == "-h" || argument == "--" ++ usageName

/-- The environment that options select. -/
def environmentOf (r : Reading) : EnvironmentFiles :=
  ⟨(r.value? "env").getD "dev", (r.value? "env-file").getD "http-client.env.json",
    (r.value? "snapshot").getD ".snapshot.json"⟩

/-- The options of a run, at their defaults where they are not set. -/
def runOptionsOf (r : Reading) : RunOptions where
  environment := environmentOf r
  requestFormat := (r.value? "request-format").getD defaultRequestFormat
  responseFormat := (r.value? "response-format").getD defaultResponseFormat
  kind := (r.value? "format").getD "standard"
  insecure := r.isSet "insecure"
  timeout := (r.value? "timeout").getD "30000"
  verbose := r.isSet "verbose"

/-- The format of shown requests when none is asked for. -/
def defaultPreviewFormat : String := "%N\\n%R\\n%H\\n%B\\n\\n"

/-- The options of a validation, at their defaults where they are not set. -/
def validateOptionsOf (r : Reading) : ValidateOptions where
  preview := r.isSet "preview"
  environment := environmentOf r
  requestFormat := (r.value? "request-format").getD defaultPreviewFormat
  verbose := r.isSet "verbose"

/-- The complaint about an unknown option of a command. -/
def unknownOption (known : List OptionSpec) (argument : String) : OptionError :=
  .unknown argument
    (suggestion argument ((known ++ globalOptions).map (·.long) ++ [usageName]))

/-- Reads the options of a command behind the operands that came before them. -/
def ofReading (known : List OptionSpec) (make : List String → Reading → Command)
    (operands unread : List String) : Except OptionError Command := do
  let r ← readOptions known unread
  match r.unknown with
  | [] => pure (make (operands ++ r.operands) r)
  | argument :: rest =>
    if (argument :: rest).any asksUsage then pure usage
    else throw (unknownOption known argument)

/-- A run of the files that are named. -/
def runOf (operands unread : List String) : Except OptionError Command :=
  ofReading runOptions (fun files r => run files (runOptionsOf r)) operands unread

/-- A validation of the files that are named. -/
def validateOf (operands unread : List String) : Except OptionError Command :=
  ofReading validateOptions (fun files r => validate files (validateOptionsOf r)) operands unread

/-- Reads a command line. The version is told wherever it is asked for, and a command is one only
before every option. -/
def ofArguments (arguments : List String) : Except OptionError Command := do
  let r ← readOptions globalOptions arguments
  if r.isSet "version" then pure version
  else
    match r.operands with
    | "run" :: files => runOf files r.unknown
    | "validate" :: files => validateOf files r.unknown
    | "help" :: _ => pure usage
    | files => if r.unknown.any asksUsage then pure usage else runOf files r.unknown

/-- **Arguments that are no options and name no command are files to run.** -/
theorem ofArguments_files (files : List String)
    (h : ∀ a ∈ files, a.toList.head? ≠ some '-')
    (hc : ∀ a ∈ files, a ≠ "run" ∧ a ≠ "validate" ∧ a ≠ "help") :
    ofArguments files = .ok (run files (runOptionsOf ⟨[], [], []⟩)) := by
  have hrun : runOf files [] = .ok (run files (runOptionsOf ⟨[], [], []⟩)) := by
    simp only [runOf, ofReading]
    rw [readOptions_operands runOptions [] (by simp)]
    simp [bind, Except.bind, pure, Except.pure]
  unfold ofArguments
  rw [readOptions_operands globalOptions files h]
  simp only [bind, Except.bind, Reading.isSet, List.any_nil, Bool.false_eq_true, if_false]
  split
  · exact absurd rfl (hc "run" List.mem_cons_self).1
  · exact absurd rfl (hc "validate" List.mem_cons_self).2.1
  · exact absurd rfl (hc "help" List.mem_cons_self).2.2
  · exact hrun

end Command

end RequestRunner.CommandLine
