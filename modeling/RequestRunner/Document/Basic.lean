import RequestRunner.Document.Template

/-!
# Request documents

A document is a file of request sections. A section may be named, declares request variables, holds
one request, and may have a handler script before the request is sent and one for its response.
Every part keeps the selection it was read from.
-/

set_option autoImplicit false

namespace RequestRunner

/-- The request methods. -/
inductive Method where
  | get
  | post
  | delete
  | put
  | patch
  | options
  deriving DecidableEq, Repr

namespace Method

/-- The written name. -/
def name : Method → String
  | get => "GET"
  | post => "POST"
  | delete => "DELETE"
  | put => "PUT"
  | patch => "PATCH"
  | options => "OPTIONS"

/-- Every method. -/
def all : List Method := [get, post, delete, put, patch, options]

/-- The method of a written name. -/
def ofName? (s : String) : Option Method := all.find? fun m => m.name == s

/-- A written name is read back. -/
theorem ofName?_name (m : Method) : ofName? m.name = some m := by cases m <;> decide

end Method

/-- A header line. -/
structure Header where
  /-- The field name as written. -/
  name : String
  /-- The trimmed value. -/
  value : Template
  /-- The header without its indentation, up to the end of its line. -/
  selection : Selection
  deriving DecidableEq, Repr

/-- A handler script. -/
structure Handler where
  /-- The trimmed script text. -/
  script : String
  /-- From the marker to behind the closing delimiter. -/
  selection : Selection
  deriving DecidableEq, Repr

/-- A request as written, placeholders left in place. -/
structure RequestTemplate where
  /-- The method. -/
  method : Method
  /-- Where the method is written; a method that is not written has the empty selection. -/
  methodSelection : Selection
  /-- The target, with its line breaks. -/
  target : Template
  /-- The headers in order. -/
  headers : List Header
  /-- The body, if there is one. -/
  body : Option Template
  /-- From the request line to the end of the body. -/
  selection : Selection
  deriving DecidableEq, Repr

/-- A request variable: its name and its value. -/
abbrev Declaration := String × Template

/-- One section: a request and the scripts around it. -/
structure RequestSection where
  /-- The name given on the separator. -/
  name : Option String
  /-- The declared request variables in order. -/
  declarations : List Declaration
  /-- The script that runs before the request is sent. -/
  preHandler : Option Handler
  /-- The request. -/
  request : RequestTemplate
  /-- The script that handles the response. -/
  handler : Option Handler
  /-- The whole section. -/
  selection : Selection
  deriving DecidableEq, Repr

/-- A parsed file. -/
structure Document where
  /-- The name of the file. -/
  filename : String
  /-- Its sections in order; separators without a request leave none. -/
  sections : List RequestSection
  deriving DecidableEq, Repr

end RequestRunner
