import RequestRunner.CommandLine.System
import RequestRunner.Generator.Static

/-!
# Validating files

Validating files reads each of them and lists its requests. A file that cannot be read is complained
about and counted, and the next one is read; a file without the requests that are asked for ends the
validation. With a preview the requests are shown as they would be sent, with the variables of the
environment and without running any script.
-/

set_option autoImplicit false

namespace RequestRunner.CommandLine

variable {m : Type → Type} [Monad m]

/-- What fills the placeholders of shown requests. -/
structure PreviewSource where
  /-- The variables. -/
  known : Fields Datum
  /-- The clock. -/
  now : Int

/-- The request as it is shown, and the source of random values behind it. -/
def PreviewSource.request (source : PreviewSource) (template : RequestTemplate)
    (entropy : Entropy) : Except Fault Request × Entropy :=
  (template.resolve (resolveStatic source.now source.known)).run.run entropy

/-- The line that lists a request. -/
def listing (item : RunItem) : Writing :=
  let number := String.ofList (Text.padStart 2 (toString (item.index + 1)).toList)
  let request := item.part.request
  ⟨.out, "  " ++ number ++ ". " ++ item.sectionName ++ "  " ++ request.method.name ++ " " ++
    request.target.text ++ "\n"⟩

namespace ValidateOptions

/-- Shows a request. -/
def showRequest (system : System m) (source : PreviewSource) (printer : Printer) (entropy : Entropy)
    (item : RunItem) : Attempt m Entropy := do
  match source.request item.part.request entropy with
  | (.error fault, _) => throw fault
  | (.ok request, entropy) =>
    ExceptT.lift (Session.each system.write (printer.request request item.name))
    pure entropy

/-- Shows requests in order. -/
def showAll (system : System m) (source : PreviewSource) (printer : Printer) :
    Entropy → List RunItem → Attempt m Entropy
  | entropy, [] => pure entropy
  | entropy, item :: rest => do
    let entropy ← showRequest system source printer entropy item
    showAll system source printer entropy rest

/-- Lists the requests of a file, or shows them. -/
def present (options : ValidateOptions) (system : System m) (source : Option PreviewSource)
    (printer : Printer) (entropy : Entropy) (file : Source) : Attempt m Entropy := do
  match file.items with
  | .error fault => throw fault
  | .ok items =>
    system.log options.verbose
      (.success ("✅ " ++ file.file ++ ": " ++ toString items.length ++ " request(s)"))
    match source with
    | none =>
      ExceptT.lift (Session.each system.write (items.map listing))
      pure entropy
    | some source => showAll system source printer entropy items

/-- Validates files in order; the number of those that cannot be read is counted. -/
def validateAll (options : ValidateOptions) (system : System m) (source : Option PreviewSource)
    (printer : Printer) : Nat → Entropy → List FileArgument → Attempt m Nat
  | failed, _, [] => pure failed
  | failed, entropy, argument :: rest => do
    match ← ExceptT.lift (Source.load system.disk argument.path argument.wanted).run with
    | .error fault =>
      system.log options.verbose (complaint fault)
      validateAll options system source printer (failed + 1) entropy rest
    | .ok file =>
      let entropy ← options.present system source printer entropy file
      validateAll options system source printer failed entropy rest

/-- What the placeholders of shown requests are filled from, if they are to be shown. -/
def previewSource (options : ValidateOptions) (system : System m) :
    Attempt m (Option PreviewSource) := do
  if options.preview then
    let known ← options.environment.load system.yaml system.disk
      (system.log options.verbose)
    pure (some ⟨known.map fun (name, value) => (name, .ofJson value), system.now⟩)
  else pure none

/-- Validates files, for the number of those that cannot be read. -/
def attempt (options : ValidateOptions) (system : System m) (files : List String) :
    Attempt m Nat := do
  let source ← options.previewSource system
  let format ← EnvironmentFiles.allowed (Format.read (Format.unescape options.requestFormat))
  options.validateAll system source (Printer.new (.formatted format [])) 0 system.entropy
    (files.map FileArgument.ofText)

/-- Validates files and complains about what is wrong, for the exit code. -/
def perform (options : ValidateOptions) (system : System m) (files : List String) : m Nat := do
  let log := system.log options.verbose
  match ← (options.attempt system files).run with
  | .error fault =>
    log (complaint fault)
    pure 1
  | .ok 0 => pure 0
  | .ok failed =>
    log (.error (toString failed ++ " of " ++ toString files.length ++ " file(s) failed to parse"))
    pure 1

end ValidateOptions

end RequestRunner.CommandLine
