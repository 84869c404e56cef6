import RequestRunner.Json.Printer
import RequestRunner.Json.Reader
import RequestRunner.Network.Client

/-!
# Gateways

A gateway is another process that carries out exchanges: it takes each outgoing request as one line
of JSON and answers with one line, either a response or the reason why there is none. This module
writes the lines for the gateway and reads its answers.
-/

set_option autoImplicit false

namespace RequestRunner.Network

/-- The request as a line for the gateway. -/
def Outgoing.toJson (o : Outgoing) : Json :=
  .object [("method", .text o.method.name), ("url", .text o.url),
    ("headers", .object (o.headers.map fun (name, value) => (name, .text value))),
    ("data", (o.data.map Json.text).getD .null), ("timeout", .number o.settings.timeout),
    ("insecure", .bool o.settings.insecure)]

/-- The text in a field. -/
def textField? (name : String) (fields : Fields Json) : Option String :=
  match Fields.get? name fields with
  | some (.text s) => some s
  | _ => none

/-- The reply that fields describe. -/
def Reply.ofFields (fields : Fields Json) : Reply :=
  match textField? "failure" fields, Fields.get? "status" fields with
  | some message, _ => .failure message (textField? "code" fields)
  | none, some (.number status) =>
    let headers := ((Fields.get? "headers" fields).bind Json.fields?).getD []
    .response status ((textField? "statusText" fields).getD "")
      (headers.map fun (name, value) => (name, .ofJson value))
      (((Fields.get? "data" fields).map Datum.ofJson).getD .undefined)
  | none, _ => .failure "The gateway's answer has no status" none

/-- The reply in a line from the gateway. -/
def Reply.ofLine (line : String) : Reply :=
  match Json.readObject? line with
  | some fields => ofFields fields
  | none => .failure "The gateway's answer is malformed" none

end RequestRunner.Network
