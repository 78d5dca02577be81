import Polyscript.Layout.Draft
import Polyscript.Spelling.Name
import Polyscript.Spelling.Text

/-!
# Expressions

How the target languages spell the forms of expressions, given the drafts of their
parts. Structured objects, maps and lists are in `Polyscript.Spelling.Container`.
-/

namespace Polyscript

open Model (Scope Stream Literal UnaryOp BinaryOp Expr)

/-- The draft of a lambda's body: an expression, or statements on lines of their own. -/
inductive BodyDraft where
  | expr (body : Draft)
  | lines (body : Draft)

/-- The body as text alone. -/
def BodyDraft.plain : BodyDraft → Draft
  | .expr body => body
  | .lines body => body

/-- The body with every part of it on lines of its own. -/
def BodyDraft.asLines : BodyDraft → Draft
  | .expr body => body ++ "\n"
  | .lines body => body

namespace Target

/-- Statements between braces. -/
def braces (lines : Draft) : Draft := "\x7b\n" ++ lines.indented ++ "\x7d"

/-- A literal. -/
def literal (t : Target) : Literal → String
  | .null => match t with
    | .ruby => "nil"
    | _ => "null"
  | .string value => t.quote value
  | .boolean value => if value then "true" else "false"
  | .int spelling => spelling
  | .long spelling => match t with
    | .groovy | .kotlin => spelling ++ "L"
    | _ => spelling
  | .char value => t.quote (String.singleton value)
  | .float spelling => match t with
    | .groovy | .kotlin => spelling ++ "f"
    | _ => spelling
  | .double spelling => match t with
    | .groovy => spelling ++ "d"
    | _ => spelling

/-- A template: texts stand for themselves, other parts between `opening` and a brace. -/
def template (t : Target) (opening : String) (parts : List (Option String × Draft)) : Draft :=
  let part : Option String × Draft → Draft
    | (some text, _) => t.escape text
    | (none, d) => opening ++ d ++ "\x7d"
  "\"" ++ Draft.concat (parts.map part) ++ "\""

/-- A concatenation, given for each part its draft and its text if it is a literal. -/
def concatenation (t : Target) (parts : List (Option String × Draft)) : Draft :=
  match t with
  | .javascript => Draft.joined " + " (parts.map Prod.snd)
  | .ruby => t.template "#\x7b" parts
  | .groovy | .kotlin => t.template "$\x7b" parts

/-- `this`. -/
def this : Target → String
  | .ruby => "self"
  | _ => "this"

/-- An expression in parentheses. -/
def parenthesized (inner : Draft) : Draft := "(" ++ inner ++ ")"

/-- A binary operation. -/
def binary (t : Target) (op : BinaryOp) (lhs rhs : Draft) : Draft :=
  lhs ++ " " ++ t.operator op ++ " " ++ rhs

/-- Whether an expression asks an asynchronous result for success or failure, which
JavaScript spells as a comparison. -/
def isAsyncCheck (e : Expr) : Bool :=
  match e.untyped with
  | .asyncCall _ _ .succeeded | .asyncCall _ _ .failed => true
  | _ => false

/-- A unary operation. Ruby has no steps by one, save as statements. JavaScript keeps
the comparison that a check of an asynchronous result becomes in parentheses. -/
def unary (t : Target) (isStatement isCheck : Bool) (op : UnaryOp) (operand : Draft) : Draft :=
  match t with
  | .ruby =>
    if op.isStep then
      if isStatement then
        operand ++ (match op with
          | .postIncrement | .preIncrement => " += 1"
          | _ => " -= 1")
      else .fail (.stepInExpression op)
    else op.symbol ++ operand
  | .javascript =>
    if op.isPostfix then operand ++ op.symbol
    else op.symbol ++ (if isCheck then parenthesized operand else operand)
  | _ => if op.isPostfix then operand ++ op.symbol else op.symbol ++ operand

/-- A conditional expression. -/
def conditional (t : Target) (cond yes no : Draft) : Draft :=
  match t with
  | .kotlin => "if (" ++ cond ++ ") " ++ yes ++ " else " ++ no
  | _ => cond ++ " ? " ++ yes ++ " : " ++ no

/-- An assignment. -/
def assignment (target value : Draft) : Draft := target ++ " = " ++ value

/-- A field of a value. -/
def fieldAccess (t : Target) (receiver : Draft) (name : String) : Draft :=
  receiver ++ "." ++ t.identifier name

/-- Arguments. -/
def arguments (args : List Draft) : Draft := Draft.joined ", " args

/-- What stands before the name of a member: nothing for one of `this`. -/
def qualifier (isThis : Bool) (receiver : Draft) : Draft :=
  if isThis then .empty else receiver ++ "."

/-- A call. -/
def invocation (t : Target) (isThis : Bool) (receiver : Draft) (method : String)
    (args : List Draft) : Draft :=
  qualifier isThis receiver ++ t.methodName method ++ "(" ++ arguments args ++ ")"

/-- A construction. -/
def construction (t : Target) (c : ClassType) (args : List Draft) : Draft :=
  match t with
  | .ruby => c.simpleName ++ ".new(" ++ arguments args ++ ")"
  | .kotlin => t.typeName c ++ "(" ++ arguments args ++ ")"
  | _ => "new " ++ t.typeName c ++ "(" ++ arguments args ++ ")"

/-- The construction of a throwable. -/
def throwable (t : Target) (c : ClassType) (reason : Option Draft) : Draft :=
  match t with
  | .javascript => "new Error(" ++ reason.getD .empty ++ ")"
  | _ => t.construction c reason.toList

/-- A test whether a value is of a class. JavaScript has no classes for enums. -/
def instanceTest (t : Target) (e : Draft) (c : ClassType) : Draft :=
  match t with
  | .javascript =>
    if c.kind = .enum then .fail (.instanceOfEnum c.name)
    else e ++ " instanceof " ++ c.simpleName
  | .groovy => e ++ " instanceof " ++ t.typeName c
  | .ruby => e ++ ".is_a?(" ++ c.simpleName ++ ")"
  | .kotlin => e ++ " is " ++ t.typeName c

/-- The body of an arrow function. -/
def arrowBody : BodyDraft → Draft
  | .expr body => body
  | .lines body => braces body

/-- The rest of a closure after its parameters. -/
def closureBody : BodyDraft → Draft
  | .expr body => " " ++ body ++ " \x7d"
  | .lines body => "\n" ++ body.indented ++ "\x7d"

/-- A closure of Groovy. -/
def groovyClosure (params : List String) (body : BodyDraft) : Draft :=
  "\x7b" ++ (if params.isEmpty then Draft.empty
    else " " ++ identifiers .groovy params ++ " ->") ++ closureBody body

/-- A lambda. -/
def lambda (t : Target) (params : List String) (body : BodyDraft) : Draft :=
  match t with
  | .javascript => "(" ++ t.identifiers params ++ ") => " ++ arrowBody body
  | .groovy => groovyClosure params body
  | .ruby =>
    "lambda \x7b" ++ (if params.isEmpty then Draft.empty
      else " |" ++ t.identifiers params ++ "|") ++ closureBody body
  | .kotlin =>
    "\x7b" ++ (if params.isEmpty then Draft.text "\n"
      else " " ++ t.identifiers params ++ " ->\n") ++ body.asLines.indented ++ "\x7d"

/-- A reference to a method with the given number of parameters. -/
def methodReference (t : Target) (isThis : Bool) (receiver : Draft) (method : String)
    (arity : Nat) : Draft :=
  let params := ", ".intercalate (referenceParams arity)
  match t with
  | .javascript =>
    "(" ++ params ++ ") => " ++ qualifier isThis receiver ++ t.methodName method ++
      "(" ++ params ++ ")"
  | .groovy => receiver ++ ".&" ++ t.methodName method
  | .ruby => qualifier isThis receiver ++ "method(:" ++ t.methodName method ++ ")"
  | .kotlin =>
    "\x7b " ++ (if 1 < arity then params ++ " -> " else "") ++ qualifier isThis receiver ++
      t.methodName method ++ "(" ++ params ++ ") \x7d"

/-- A constant of an enum. -/
def enumConstant (t : Target) (c : ClassType) (constant : String) : String :=
  match t with
  | .javascript => t.quote constant
  | .ruby => ":" ++ constant
  | _ => c.simpleName ++ "." ++ constant

/-- Printing a value on the console. -/
def consolePrint (t : Target) (stream : Stream) (arg : Draft) : Draft :=
  match t, stream with
  | .javascript, .out => "console.log(" ++ arg ++ ")"
  | .javascript, .err => "console.error(" ++ arg ++ ")"
  | .ruby, .out => "puts " ++ arg
  | .ruby, .err => "STDERR.puts " ++ arg
  | _, .out => "println(" ++ arg ++ ")"
  | _, .err => "System.err.println(" ++ arg ++ ")"

end Target

end Polyscript
