import RequestRunner.Document.Basic
import RequestRunner.Decimal.Notation

/-!
# Messages

A request ready to be sent and the response that arrives for it. Headers are pairs in order, and an
absent body is not an empty one. `RequestTemplate.resolve` makes a request out of a template:
target, headers and body are filled in this order, and blanks are removed from the target, so that it
may be written on several lines.
-/

set_option autoImplicit false

namespace RequestRunner

/-- A header of a message: its name and its value. -/
abbrev HeaderField := String × String

/-- A request without placeholders. -/
structure Request where
  /-- The method. -/
  method : Method
  /-- The target. -/
  target : String
  /-- The headers in order. -/
  headers : List HeaderField
  /-- The body, if there is one. -/
  body : Option String
  deriving DecidableEq, Repr

/-- A response. -/
structure Response where
  /-- The protocol version. -/
  version : String
  /-- The status code. -/
  status : Float
  /-- The reason given with the status. -/
  statusText : String
  /-- The headers in order. -/
  headers : List HeaderField
  /-- The body, if there is one. -/
  body : Option String
  deriving DecidableEq

/-- The first line of a request. -/
def Request.firstLine (r : Request) : String := r.method.name ++ " " ++ r.target

/-- The first line of a response. -/
def Response.firstLine (r : Response) : String :=
  r.version ++ " " ++ Decimal.text r.status ++ " " ++ r.statusText

/-- A header with its value filled. -/
def Header.resolve {m : Type → Type} [Monad m] (answer : String → m String) (header : Header) :
    m HeaderField := do
  let value ← header.value.fill answer
  pure (header.name, value)

/-- Fills the headers in order. -/
def resolveHeaders {m : Type → Type} [Monad m] (answer : String → m String) :
    List Header → m (List HeaderField)
  | [] => pure []
  | header :: rest => do
    let first ← header.resolve answer
    let more ← resolveHeaders answer rest
    pure (first :: more)

/-- Fills the body, if there is one. -/
def resolveBody {m : Type → Type} [Monad m] (answer : String → m String) :
    Option Template → m (Option String)
  | none => pure none
  | some body => do
    let text ← body.fill answer
    pure (some text)

/-- The target filled and freed of blanks. -/
def RequestTemplate.resolveTarget {m : Type → Type} [Monad m] (answer : String → m String)
    (request : RequestTemplate) : m String := do
  let target ← request.target.fill answer
  pure (Text.stripString target)

/-- The request with every placeholder filled: target, headers, body. -/
def RequestTemplate.resolve {m : Type → Type} [Monad m] (answer : String → m String)
    (request : RequestTemplate) : m Request := do
  let target ← request.resolveTarget answer
  let headers ← resolveHeaders answer request.headers
  let body ← resolveBody answer request.body
  pure ⟨request.method, target, headers, body⟩

end RequestRunner
