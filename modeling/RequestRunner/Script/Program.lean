/-!
# Programs

The tree of a script: expressions, functions and statements. It covers a part of the scripting
language. Accessors, classes, patterns, spreads, templates, regular expressions, generators, loops
other than `while` and the statements that catch what was raised are left out: a script that has any
of them is malformed here.
-/

set_option autoImplicit false

namespace RequestRunner.Script

/-- Operators between two values. -/
inductive Operator where
  | add
  | subtract
  | multiply
  | divide
  | remainder
  | less
  | greater
  | equal
  | unequal
  deriving DecidableEq, Repr

/-- The sign of an operator. -/
def Operator.sign : Operator → String
  | add => "+"
  | subtract => "-"
  | multiply => "*"
  | divide => "/"
  | remainder => "%"
  | less => "<"
  | greater => ">"
  | equal => "==="
  | unequal => "!=="

/-- Operators that may leave their second operand alone. -/
inductive Choice where
  /-- The second value when the first is true. -/
  | both
  /-- The second value when the first is not true. -/
  | either
  /-- The second value when the first is absent. -/
  | otherwise
  deriving DecidableEq, Repr

/-- The sign of a choice. -/
def Choice.sign : Choice → String
  | both => "&&"
  | either => "||"
  | otherwise => "??"

/-- Operators on one value. -/
inductive UnaryOperator where
  | negate
  | not
  | kindOf
  deriving DecidableEq, Repr

/-- The sign of an operator on one value, with the blank that a word needs. -/
def UnaryOperator.sign : UnaryOperator → String
  | negate => "-"
  | not => "!"
  | kindOf => "typeof "

/-- How a variable is declared. -/
inductive DeclarationKind where
  /-- Throughout the function or script. -/
  | var
  /-- In its block. -/
  | let_
  /-- In its block, and never assigned again. -/
  | const
  deriving DecidableEq, Repr

mutual

/-- An expression. -/
inductive Expr where
  | null
  | bool (b : Bool)
  | number (x : Float)
  | text (s : String)
  | name (x : String)
  | self
  | array (items : List Expr)
  | object (fields : List (String × Expr))
  | function (name : Option String) (body : Function)
  | call (callee : Expr) (arguments : List Expr)
  | construct (callee : Expr) (arguments : List Expr)
  | member (object : Expr) (name : String)
  | index (object : Expr) (key : Expr)
  | assign (target : Expr) (value : Expr)
  | binary (operator : Operator) (first second : Expr)
  | choose (operator : Choice) (first second : Expr)
  | unary (operator : UnaryOperator) (operand : Expr)
  | conditional (condition yes no : Expr)

/-- A function as written. -/
inductive Function where
  /-- Its parameters, its statements, whether it takes over the surrounding object, whether a call
  promises its result, and its text. -/
  | mk (parameters : List String) (body : List Statement) (isArrow isAsync : Bool) (source : String)

/-- A statement. -/
inductive Statement where
  | expression (e : Expr)
  | declare (kind : DeclarationKind) (name : String) (value : Option Expr)
  | block (body : List Statement)
  | ifElse (condition : Expr) (yes : Statement) (no : Option Statement)
  | while_ (condition : Expr) (body : Statement)
  | throw (e : Expr)
  | return_ (e : Option Expr)
  | nothing

end

/-- A whole script. -/
abbrev Program := List Statement

mutual

/-- The names that a statement declares throughout its function. -/
def Statement.varNames : Statement → List String
  | .declare .var name _ => [name]
  | .block body => varNamesOf body
  | .ifElse _ yes none => yes.varNames
  | .ifElse _ yes (some no) => yes.varNames ++ no.varNames
  | .while_ _ body => body.varNames
  | _ => []

/-- The names that statements declare throughout their function. -/
def varNamesOf : List Statement → List String
  | [] => []
  | s :: rest => s.varNames ++ varNamesOf rest

end

/-- The names that statements declare in their own block, and whether each may be assigned. -/
def lexicalNames : List Statement → List (String × Bool)
  | [] => []
  | .declare .let_ name _ :: rest => (name, true) :: lexicalNames rest
  | .declare .const name _ :: rest => (name, false) :: lexicalNames rest
  | _ :: rest => lexicalNames rest

/-- No name is declared twice in a block, and none both in the block and throughout the function. -/
def declarationsAgree (body : List Statement) : Bool :=
  let names := (lexicalNames body).map (·.1)
  names.eraseDups.length == names.length && !(varNamesOf body).any fun x => names.contains x

end RequestRunner.Script
