import RequestRunner.Script.Program
import RequestRunner.Script.Token
import RequestRunner.Decimal.Notation

/-!
# Reading scripts

`Program.read?` reads a whole script. A script that is not written by the rules, or that declares a
name twice, is none. Statements end with a semicolon, before a closing brace, at the end, or where a
line ends.

Every reader takes the tokens that are left and hands on the rest, with fuel computed from the number
of tokens.
-/

set_option autoImplicit false

namespace RequestRunner.Script

/-- A reader's result: what was read and the tokens left. -/
abbrev Parsed (α : Type) := Option (α × List Token)

namespace Reader

/-- The words that are no names. -/
def reserved : List String :=
  ["break", "case", "catch", "class", "const", "continue", "debugger", "default", "delete", "do",
    "else", "enum", "export", "extends", "false", "finally", "for", "function", "if", "import",
    "in", "instanceof", "new", "null", "return", "super", "switch", "this", "throw", "true", "try",
    "typeof", "var", "void", "while", "with"]

/-- The token is the given sign. -/
def isSign (s : String) (t : Token) : Bool := t.kind == .sign s

/-- The token is the given word. -/
def isWord (s : String) (t : Token) : Bool := t.kind == .name s

/-- The tokens behind an expected sign. -/
def expect (s : String) : List Token → Option (List Token)
  | t :: rest => if isSign s t then some rest else none
  | [] => none

/-- The next token is the given sign. -/
def atSign (s : String) : List Token → Bool
  | t :: _ => isSign s t
  | [] => false

/-- A name that is no reserved word. -/
def identifier? : List Token → Parsed String
  | ⟨.name s, _, _, _⟩ :: rest => if reserved.contains s then none else some (s, rest)
  | _ => none

/-- The end of a statement. -/
def endStatement : List Token → Option (List Token)
  | [] => some []
  | t :: rest =>
    if isSign ";" t then some rest
    else if isSign "\x7d" t || t.afterBreak then some (t :: rest)
    else none

/-- Names up to a closing parenthesis. -/
def names? : List Token → Parsed (List String)
  | t :: rest =>
    if isSign ")" t then some ([], rest)
    else
      match t.kind with
      | .name s =>
        if reserved.contains s then none
        else
          match rest with
          | u :: more =>
            if isSign ")" u then some ([s], more)
            else if isSign "," u then (names? more).map fun (ns, after) => (s :: ns, after)
            else none
          | [] => none
      | _ => none
  | [] => none

/-- The parameters of an arrow function and the tokens behind its arrow. -/
def arrowHead? (tokens : List Token) : Parsed (List String) :=
  let head := match tokens with
    | t :: rest =>
      if isSign "(" t then names? rest else (identifier? tokens).map fun (x, after) => ([x], after)
    | [] => none
  match head with
  | some (parameters, t :: rest) =>
    if isSign "=>" t && !t.afterBreak then some (parameters, rest) else none
  | _ => none

/-- The operator of a sign with its rank; operators of a higher rank bind closer. -/
def operator? (t : Token) : Option (Operator × Nat) :=
  match t.kind with
  | .sign "===" => some (.equal, 1)
  | .sign "!==" => some (.unequal, 1)
  | .sign "<" => some (.less, 2)
  | .sign ">" => some (.greater, 2)
  | .sign "+" => some (.add, 3)
  | .sign "-" => some (.subtract, 3)
  | .sign "*" => some (.multiply, 4)
  | .sign "/" => some (.divide, 4)
  | .sign "%" => some (.remainder, 4)
  | _ => none

/-- The expression can be assigned to. -/
def isTarget : Expr → Bool
  | .name _ => true
  | .member _ _ => true
  | .index _ _ => true
  | _ => false

/-- The part of a source between two places. -/
def slice (source : List Char) (start stop : Nat) : String :=
  String.ofList ((source.drop start).take (stop - start))

/-- Where the tokens that are left begin in a source, that is, where the last one read ended: the
last token of the difference ends it. -/
def stopBefore (all left : List Token) : Nat :=
  match (all.take (all.length - left.length)).getLast? with
  | some t => t.stop
  | none => 0

/-- The text of a number used as a field name. -/
def fieldName? (t : Token) : Option String :=
  match t.kind with
  | .name s => some s
  | .text s => some s
  | .number x => some (Decimal.text x)
  | .sign _ => none

mutual

/-- An expression without a comma outside. -/
def expression? (source : List Char) : Nat → List Token → Parsed Expr
  | 0, _ => none
  | n + 1, tokens =>
    match tokens with
    | t :: rest =>
      -- the word may also be an ordinary name
      let isAsync := isWord "async" t && (match rest with
        | u :: _ => !u.afterBreak
        | [] => false)
      match (if isAsync then arrowHead? rest else none) with
      | some (parameters, body) => arrowBody? source n tokens parameters true body
      | none =>
        match arrowHead? tokens with
        | some (parameters, body) => arrowBody? source n tokens parameters false body
        | none => assignment? source n tokens
    | [] => none

/-- The body of an arrow function: a block, or one expression that it returns. -/
def arrowBody? (source : List Char) : Nat → List Token → List String → Bool → List Token →
    Parsed Expr
  | 0, _, _, _, _ => none
  | n + 1, all, parameters, isAsync, tokens =>
    let start := match all with
      | t :: _ => t.start
      | [] => 0
    let made (body : List Statement) (left : List Token) : Expr :=
      .function none (.mk parameters body true isAsync (slice source start (stopBefore all left)))
    if atSign "\x7b" tokens then
      match block? source n tokens with
      | some (body, left) =>
        if declarationsAgree body then some (made body left, left) else none
      | none => none
    else
      match expression? source n tokens with
      | some (e, left) => some (made [.return_ (some e)] left, left)
      | none => none

/-- An expression that may assign or choose. -/
def assignment? (source : List Char) : Nat → List Token → Parsed Expr
  | 0, _ => none
  | n + 1, tokens =>
    match conditional? source n tokens with
    | none => none
    | some (target, left) =>
      match expect "=" left with
      | none => some (target, left)
      | some more =>
        if isTarget target then
          (expression? source n more).map fun (value, after) => (.assign target value, after)
        else none

/-- A choice between two expressions by a condition. -/
def conditional? (source : List Char) : Nat → List Token → Parsed Expr
  | 0, _ => none
  | n + 1, tokens =>
    match otherwise? source n tokens with
    | none => none
    | some (condition, left) =>
      match expect "?" left with
      | none => some (condition, left)
      | some more =>
        match expression? source n more with
        | none => none
        | some (yes, left) =>
          match expect ":" left with
          | none => none
          | some more =>
            (expression? source n more).map fun (no, after) =>
              (.conditional condition yes no, after)

/-- Expressions joined by the operator for absent values, or by the operators for truth values; the
two kinds do not mix without parentheses. -/
def otherwise? (source : List Char) : Nat → List Token → Parsed Expr
  | 0, _ => none
  | n + 1, tokens =>
    match binary? source n 1 tokens with
    | none => none
    | some (first, left) =>
      if atSign "??" left then
        match otherwiseRest? source n first left with
        | some (e, left) => if atSign "||" left || atSign "&&" left then none else some (e, left)
        | none => none
      else
        match both? source n first left with
        | none => none
        | some (first, left) =>
          match either? source n first left with
          | some (e, left) => if atSign "??" left then none else some (e, left)
          | none => none

/-- Further operands of the operator for absent values. -/
def otherwiseRest? (source : List Char) : Nat → Expr → List Token → Parsed Expr
  | 0, _, _ => none
  | n + 1, first, tokens =>
    match expect "??" tokens with
    | none => some (first, tokens)
    | some more =>
      match binary? source n 1 more with
      | none => none
      | some (second, left) => otherwiseRest? source n (.choose .otherwise first second) left

/-- Further operands of the operator that needs both truths. -/
def both? (source : List Char) : Nat → Expr → List Token → Parsed Expr
  | 0, _, _ => none
  | n + 1, first, tokens =>
    match expect "&&" tokens with
    | none => some (first, tokens)
    | some more =>
      match binary? source n 1 more with
      | none => none
      | some (second, left) => both? source n (.choose .both first second) left

/-- Further operands of the operator that needs one truth. -/
def either? (source : List Char) : Nat → Expr → List Token → Parsed Expr
  | 0, _, _ => none
  | n + 1, first, tokens =>
    match expect "||" tokens with
    | none => some (first, tokens)
    | some more =>
      match binary? source n 1 more with
      | none => none
      | some (second, left) =>
        match both? source n second left with
        | none => none
        | some (second, left) => either? source n (.choose .either first second) left

/-- Operands joined by operators of at least a rank. -/
def binary? (source : List Char) : Nat → Nat → List Token → Parsed Expr
  | 0, _, _ => none
  | n + 1, rank, tokens =>
    match unary? source n tokens with
    | none => none
    | some (first, left) => binaryRest? source n rank first left

/-- Further operands joined by operators of at least a rank. -/
def binaryRest? (source : List Char) : Nat → Nat → Expr → List Token → Parsed Expr
  | 0, _, _, _ => none
  | n + 1, rank, first, tokens =>
    match tokens with
    | [] => some (first, [])
    | t :: rest =>
      match operator? t with
      | none => some (first, tokens)
      | some (op, opRank) =>
        if opRank < rank then some (first, tokens)
        else
          match binary? source n (opRank + 1) rest with
          | none => none
          | some (second, left) => binaryRest? source n rank (.binary op first second) left

/-- An operand with the operators before it. -/
def unary? (source : List Char) : Nat → List Token → Parsed Expr
  | 0, _ => none
  | n + 1, tokens =>
    match tokens with
    | [] => none
    | t :: rest =>
      let applied (op : UnaryOperator) : Parsed Expr :=
        (unary? source n rest).map fun (e, after) => (.unary op e, after)
      match t.kind with
      | .sign "-" => applied .negate
      | .sign "!" => applied .not
      | .name "typeof" => applied .kindOf
      | _ =>
        match operand? source n tokens with
        | none => none
        | some (e, left) => suffixes? source n e left

/-- What can stand before calls and member accesses: a construction with its arguments, or a plain
operand. -/
def operand? (source : List Char) : Nat → List Token → Parsed Expr
  | 0, _ => none
  | n + 1, tokens =>
    match tokens with
    | [] => none
    | t :: rest =>
      if isWord "new" t then
        match operand? source n rest with
        | none => none
        | some (callee, left) =>
          match members? source n callee left with
          | none => none
          | some (callee, left) =>
            match expect "(" left with
            | none => some (.construct callee [], left)
            | some more =>
              (items? source n ")" more).map fun (arguments, after) =>
                (.construct callee arguments, after)
      else primary? source n tokens

/-- Member accesses behind an operand. -/
def members? (source : List Char) : Nat → Expr → List Token → Parsed Expr
  | 0, _, _ => none
  | n + 1, e, tokens =>
    match tokens with
    | [] => some (e, [])
    | t :: rest =>
      match t.kind with
      | .sign "." =>
        match rest with
        | ⟨.name s, _, _, _⟩ :: more => members? source n (.member e s) more
        | _ => none
      | .sign "[" =>
        match expression? source n rest with
        | none => none
        | some (key, left) =>
          match expect "]" left with
          | none => none
          | some more => members? source n (.index e key) more
      | _ => some (e, tokens)

/-- Calls and member accesses behind an operand. -/
def suffixes? (source : List Char) : Nat → Expr → List Token → Parsed Expr
  | 0, _, _ => none
  | n + 1, e, tokens =>
    match members? source n e tokens with
    | none => none
    | some (e, left) =>
      match expect "(" left with
      | none => some (e, left)
      | some more =>
        match items? source n ")" more with
        | none => none
        | some (arguments, after) => suffixes? source n (.call e arguments) after

/-- Expressions separated by commas up to a closing sign; a comma may stand before it. -/
def items? (source : List Char) : Nat → String → List Token → Parsed (List Expr)
  | 0, _, _ => none
  | n + 1, closing, tokens =>
    match expect closing tokens with
    | some rest => some ([], rest)
    | none =>
      match expression? source n tokens with
      | none => none
      | some (e, left) =>
        match expect closing left with
        | some rest => some ([e], rest)
        | none =>
          match expect "," left with
          | none => none
          | some more =>
            (items? source n closing more).map fun (es, after) => (e :: es, after)

/-- The fields of an object up to its closing brace. -/
def fields? (source : List Char) : Nat → List Token → Parsed (List (String × Expr))
  | 0, _ => none
  | n + 1, tokens =>
    match tokens with
    | [] => none
    | t :: rest =>
      if isSign "\x7d" t then some ([], rest)
      else
        match fieldName? t with
        | none => none
        | some name =>
          let value := match expect ":" rest with
            | some more => expression? source n more
            | none => (identifier? tokens).map fun (x, after) => (.name x, after)
          match value with
          | none => none
          | some (e, left) =>
            match expect "\x7d" left with
            | some after => some ([(name, e)], after)
            | none =>
              match expect "," left with
              | none => none
              | some more =>
                (fields? source n more).map fun (fs, after) => ((name, e) :: fs, after)

/-- A function behind its keyword. -/
def function? (source : List Char) : Nat → Bool → List Token → List Token → Parsed Expr
  | 0, _, _, _ => none
  | n + 1, isAsync, all, tokens =>
    let (name, behind) := match identifier? tokens with
      | some (name, rest) => (some name, rest)
      | none => (none, tokens)
    match expect "(" behind with
    | none => none
    | some more =>
      match names? more with
      | none => none
      | some (parameters, left) =>
        match block? source n left with
        | none => none
        | some (body, left) =>
          let start := match all with
            | t :: _ => t.start
            | [] => 0
          if declarationsAgree body then
            some (.function name
              (.mk parameters body false isAsync (slice source start (stopBefore all left))), left)
          else none

/-- An operand that stands for itself. -/
def primary? (source : List Char) : Nat → List Token → Parsed Expr
  | 0, _ => none
  | n + 1, tokens =>
    match tokens with
    | [] => none
    | t :: rest =>
      match t.kind with
      | .number x => some (.number x, rest)
      | .text s => some (.text s, rest)
      | .sign "(" =>
        match expression? source n rest with
        | none => none
        | some (e, left) => (expect ")" left).map fun after => (e, after)
      | .sign "[" => (items? source n "]" rest).map fun (es, after) => (.array es, after)
      | .sign "\x7b" => (fields? source n rest).map fun (fs, after) => (.object fs, after)
      | .sign _ => none
      | .name "null" => some (.null, rest)
      | .name "true" => some (.bool true, rest)
      | .name "false" => some (.bool false, rest)
      | .name "this" => some (.self, rest)
      | .name "function" => function? source n false tokens rest
      | .name s =>
        match (if s = "async" then rest else []) with
        | u :: more =>
          if isWord "function" u && !u.afterBreak then function? source n true tokens more
          else some (.name s, rest)
        | [] => if reserved.contains s then none else some (.name s, rest)

/-- Statements between braces. -/
def block? (source : List Char) : Nat → List Token → Parsed (List Statement)
  | 0, _ => none
  | n + 1, tokens =>
    match expect "\x7b" tokens with
    | none => none
    | some rest => blockRest? source n rest

/-- Statements up to a closing brace. -/
def blockRest? (source : List Char) : Nat → List Token → Parsed (List Statement)
  | 0, _ => none
  | n + 1, tokens =>
    match expect "\x7d" tokens with
    | some rest => some ([], rest)
    | none =>
      match statement? source n tokens with
      | none => none
      | some (s, left) => (blockRest? source n left).map fun (ss, after) => (s :: ss, after)

/-- A declaration behind its keyword. A constant needs a value. -/
def declaration? (source : List Char) : Nat → DeclarationKind → List Token → Parsed Statement
  | 0, _, _ => none
  | n + 1, kind, tokens =>
    match identifier? tokens with
    | none => none
    | some (name, left) =>
      match expect "=" left with
      | some more =>
        match expression? source n more with
        | none => none
        | some (value, left) =>
          (endStatement left).map fun after => (.declare kind name (some value), after)
      | none =>
        if kind == .const then none
        else (endStatement left).map fun after => (.declare kind name none, after)

/-- An expression as a statement. -/
def plain? (source : List Char) : Nat → List Token → Parsed Statement
  | 0, _ => none
  | n + 1, tokens =>
    match expression? source n tokens with
    | none => none
    | some (e, left) => (endStatement left).map fun after => (.expression e, after)

/-- A condition in parentheses. -/
def condition? (source : List Char) : Nat → List Token → Parsed Expr
  | 0, _ => none
  | n + 1, tokens =>
    match expect "(" tokens with
    | none => none
    | some more =>
      match expression? source n more with
      | none => none
      | some (e, left) => (expect ")" left).map fun after => (e, after)

/-- A statement. -/
def statement? (source : List Char) : Nat → List Token → Parsed Statement
  | 0, _ => none
  | n + 1, tokens =>
    match tokens with
    | [] => none
    | t :: rest =>
      match t.kind with
      | .sign ";" => some (.nothing, rest)
      | .sign "\x7b" =>
        match block? source n tokens with
        | some (body, left) => if declarationsAgree body then some (.block body, left) else none
        | none => none
      | .name "var" => declaration? source n .var rest
      | .name "const" => declaration? source n .const rest
      | .name "let" =>
        match declaration? source n .let_ rest with
        | some parsed => some parsed
        | none => plain? source n tokens
      | .name "if" =>
        match condition? source n rest with
        | none => none
        | some (condition, left) =>
          match statement? source n left with
          | none => none
          | some (yes, left) =>
            match left with
            | u :: more =>
              if isWord "else" u then
                (statement? source n more).map fun (no, after) =>
                  (.ifElse condition yes (some no), after)
              else some (.ifElse condition yes none, left)
            | [] => some (.ifElse condition yes none, left)
      | .name "while" =>
        match condition? source n rest with
        | none => none
        | some (condition, left) =>
          (statement? source n left).map fun (body, after) => (.while_ condition body, after)
      | .name "throw" =>
        match rest with
        | u :: _ =>
          if u.afterBreak then none
          else
            match expression? source n rest with
            | none => none
            | some (e, left) => (endStatement left).map fun after => (.throw e, after)
        | [] => none
      | .name "return" =>
        match rest with
        | u :: _ =>
          if u.afterBreak || isSign ";" u || isSign "\x7d" u then
            (endStatement rest).map fun after => (.return_ none, after)
          else
            match expression? source n rest with
            | none => none
            | some (e, left) => (endStatement left).map fun after => (.return_ (some e), after)
        | [] => some (.return_ none, [])
      | .name "function" => none
      | _ => plain? source n tokens

end

/-- The statements of a whole script. -/
def statements? (source : List Char) : Nat → List Token → Option (List Statement)
  | 0, _ => none
  | _ + 1, [] => some []
  | n + 1, tokens =>
    match statement? source (40 * tokens.length + 40) tokens with
    | none => none
    | some (s, left) => (statements? source n left).map fun ss => s :: ss

end Reader

mutual

/-- The statement returns outside any function. -/
def Statement.returnsOutside : Statement → Bool
  | .return_ _ => true
  | .block body => returnsOutsideAny body
  | .ifElse _ yes none => yes.returnsOutside
  | .ifElse _ yes (some no) => yes.returnsOutside || no.returnsOutside
  | .while_ _ body => body.returnsOutside
  | _ => false

/-- One of the statements returns outside any function. -/
def returnsOutsideAny : List Statement → Bool
  | [] => false
  | s :: rest => s.returnsOutside || returnsOutsideAny rest

end

/-- Reads a script. -/
def Program.read? (source : String) : Option Program :=
  let chars := source.toList
  match Token.scan? chars with
  | none => none
  | some tokens =>
    match Reader.statements? chars (tokens.length + 1) tokens with
    | none => none
    | some program =>
      if declarationsAgree program && !returnsOutsideAny program then some program else none

end RequestRunner.Script
