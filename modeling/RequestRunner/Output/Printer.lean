import RequestRunner.Output.Format
import RequestRunner.Output.Table

/-!
# Printing a run

A printer is told of every request, every response and, at the end, of all test results. A formatted
printer writes each message by its format and lists the failed tests on the error stream; a table
printer keeps silent and writes one table at the end. `exitCode` tells whether a test failed.
-/

set_option autoImplicit false

namespace RequestRunner

/-- The result of one request. -/
structure RequestResult where
  /-- The file of the request. -/
  file : String
  /-- The name of its section. -/
  request : String
  /-- What its tests said. -/
  report : Report
  deriving DecidableEq

/-- The two streams that text is written to. -/
inductive Stream where
  | out
  | err
  deriving DecidableEq, Repr

/-- One piece of text on its way to a stream. -/
structure Writing where
  /-- Where the text goes. -/
  stream : Stream
  /-- The text. -/
  text : String
  deriving DecidableEq, Repr

/-- How a run is printed. -/
inductive PrinterKind where
  /-- Messages by their formats. -/
  | formatted (request response : Format)
  /-- One table of test results. -/
  | table
  deriving DecidableEq

/-- A printer: how it prints, and whether a failed test was seen. -/
structure Printer where
  /-- How a run is printed. -/
  kind : PrinterKind
  /-- A failed test was seen. -/
  failed : Bool
  deriving DecidableEq

namespace Printer

/-- A printer at the start of a run. -/
def new (kind : PrinterKind) : Printer := ⟨kind, false⟩

/-- The exit code that the seen tests ask for. -/
def exitCode (p : Printer) : Nat := if p.failed then 1 else 0

/-- What is written of a request. -/
def request (p : Printer) (request : Request) (name : String) : List Writing :=
  match p.kind with
  | .formatted format _ => (format.renderRequest request name).map (Writing.mk .out)
  | .table => []

/-- What is written of a response, and the printer that has seen its tests. -/
def response (p : Printer) (response : Response) (report : Report) : Printer × List Writing :=
  match p.kind with
  | .formatted _ format =>
    ({ p with failed := p.failed || !report.failed.isEmpty },
      (format.renderResponse response report).map (Writing.mk .out))
  | .table => (p, [])

/-- The failed tests of a run with the file and the request they belong to. -/
def failures (results : List RequestResult) : List (RequestResult × String × String) :=
  results.flatMap fun result => result.report.failed.map fun failure => (result, failure)

/-- The line that lists a failed test. -/
def failureLine (index : Nat) (result : RequestResult) (test reason : String) : String :=
  s!"{index}. Test `{test}` in `[{result.file} / {result.request}]` FAILED with {reason}\n"

/-- The lines that list failed tests, numbered from a first number on. -/
def failureLines : Nat → List (RequestResult × String × String) → List String
  | _, [] => []
  | n, (result, test, reason) :: rest =>
    failureLine n result test reason :: failureLines (n + 1) rest

/-- The column titles of the table. -/
def tableHeader : Table.Row := ["File", "Request", "Test", "Result"]

/-- The rows of a result: one for each test, or one that says there is none. -/
def tableRows (result : RequestResult) : List Table.Row :=
  if result.report.isEmpty then [[result.file, result.request, "NO TESTS FOUND", ""]]
  else
    result.report.all.map fun (test, outcome) =>
      [result.file, result.request, test,
        match outcome with
        | .success => "PASSED"
        | .failure _ => "FAILED"]

/-- The number of results with a failed test. -/
def failedRequests (results : List RequestResult) : Nat :=
  (results.filter fun result => !result.report.failed.isEmpty).length

/-- The line under the table. -/
def tableSummary (results : List RequestResult) : String :=
  s!"{results.length} requests completed, {failedRequests results} have failed tests\n"

/-- What is written of all results at the end, and the printer that has seen them. -/
def tests (p : Printer) (results : List RequestResult) : Printer × List Writing :=
  match p.kind with
  | .formatted _ _ =>
    if p.failed then
      (p, (("RUN FAILED\n") :: failureLines 1 (failures results)).map (Writing.mk .err))
    else (p, [])
  | .table =>
    ({ p with failed := p.failed || failedRequests results != 0 },
      [⟨.out, Table.render tableHeader (results.flatMap tableRows)⟩, ⟨.out, tableSummary results⟩])

end Printer

/-- The format of requests when none is asked for. -/
def defaultRequestFormat : String := "%N\\n%R\\n\\n"

/-- The format of responses when none is asked for. -/
def defaultResponseFormat : String := "%R\\n%H\\n%B\\n\\n%T\\n"

/-- The way of printing that command-line options ask for. -/
def PrinterKind.ofOptions (kind requestFormat responseFormat : String) :
    Except Misconfiguration PrinterKind :=
  match kind with
  | "standard" => do
    let request ← Format.read (Format.unescape requestFormat)
    let response ← Format.read (Format.unescape responseFormat)
    pure (.formatted request response)
  | "ci" => .ok .table
  | kind => .error (.unknownOutput kind)

end RequestRunner
