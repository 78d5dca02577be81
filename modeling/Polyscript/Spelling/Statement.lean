import Polyscript.Spelling.Expression
import Polyscript.Text.Blank

/-!
# Statements and declarations

How the target languages spell statements and declarations, given the drafts of
their parts. The body of a construct is given as lines without their braces.
-/

namespace Polyscript.Target

open Model (Scope)

/-- What ends a statement. -/
def terminator : Target → String
  | .javascript => ";"
  | _ => ""

/-- What begins a line comment. -/
def commentSign : Target → String
  | .ruby => "#"
  | _ => "//"

/-- A line comment. -/
def comment (t : Target) (text : String) : String :=
  if text.isEmpty then t.commentSign else t.commentSign ++ " " ++ text

/-- A line of a fragment: a blank line or a comment on a line of its own; anything
else is left out. -/
def fragmentLine (t : Target) (line : List Char) : Draft :=
  match Text.trim line with
  | [] => "\n"
  | '/' :: '/' :: text => t.comment (String.ofList (Text.trim text)) ++ "\n"
  | _ => .empty

/-- A fragment. -/
def fragment (t : Target) (fragment : String) : Draft :=
  .concat ((Text.lines fragment.toList).map t.fragmentLine)

/-- A block that stands as a statement. -/
def nestedBlock (t : Target) (lines : Draft) : Draft :=
  match t with
  | .javascript => braces lines
  | .groovy => "if (true) " ++ braces lines
  | .ruby => "begin\n" ++ lines.indented ++ "end"
  | .kotlin => "run " ++ braces lines

/-- A return. -/
def returnValue (value : Option Draft) : Draft :=
  match value with
  | none => "return"
  | some value => "return " ++ value

/-- The declaration of a variable or field. -/
def varDecl (t : Target) (scope : Scope) (type : TypeInfo) (name : String)
    (init : Option Draft) : Draft :=
  match t with
  | .javascript =>
    "let " ++ t.identifier name ++ (match init with
      | some init => " = " ++ init
      | none => .empty)
  | .groovy =>
    (if scope = .field then "" else "def ") ++ t.identifier name ++ (match init with
      | some init => " = " ++ init
      | none => if scope = .field then Draft.text " = null" else .empty)
  | .ruby => t.variableName name scope ++ " = " ++ init.getD (t.literal .null)
  | .kotlin =>
    "var " ++ t.identifier name ++ (match init with
      | some init => " = " ++ init
      | none => Draft.text (": " ++ kotlinType type ++ "? = null"))

/-- A chain of conditions with the statements they guard. -/
def conditionals (t : Target) (branches : List (Draft × Draft)) (otherwise : Option Draft) :
    Draft :=
  match t with
  | .ruby =>
    let branch (word : String) : Draft × Draft → Draft
      | (cond, body) => word ++ cond ++ "\n" ++ body.indented
    let first := (branches.take 1).map (branch "if ")
    let further := (branches.drop 1).map (branch "elsif ")
    let last := match otherwise with
      | some body => "else\n" ++ body.indented
      | none => .empty
    Draft.concat (first ++ further) ++ last ++ "end"
  | _ =>
    let branch : Draft × Draft → Draft
      | (cond, body) => "if (" ++ cond ++ ") " ++ braces body
    let last := match otherwise with
      | some body => " else " ++ braces body
      | none => .empty
    Draft.joined " else " (branches.map branch) ++ last

/-- A statement whose throwables are caught. -/
def tryCatch (t : Target) (body : Draft) (param : String) (handler : Draft) : Draft :=
  match t with
  | .ruby =>
    "begin\n" ++ body.indented ++ "rescue => " ++ t.identifier param ++ "\n" ++
      handler.indented ++ "end"
  | .kotlin =>
    "try " ++ braces body ++ " catch(" ++ t.identifier param ++ ": Exception) " ++ braces handler
  | _ => "try " ++ braces body ++ " catch (" ++ t.identifier param ++ ") " ++ braces handler

/-- A throw. -/
def throw (t : Target) (c : ClassType) (reason : Option Draft) : Draft :=
  match t with
  | .ruby => match reason with
    | some reason => "raise " ++ reason
    | none => "raise"
  | _ => "throw " ++ t.throwable c reason

/-- A loop with an initial statement, a condition and an update. -/
def loop (t : Target) (init cond update body : Draft) : Draft :=
  match t with
  | .ruby =>
    init ++ "\nwhile " ++ cond ++ "\n" ++ (body ++ update ++ "\n").indented ++ "end"
  | .kotlin =>
    "run " ++ braces (init ++ "\nwhile (" ++ cond ++ ") " ++ braces (body ++ update ++ "\n") ++
      "\n")
  | _ => "for (" ++ init ++ "; " ++ cond ++ "; " ++ update ++ ") " ++ braces body

/-- A loop over the integers from `start` to before `stop`. -/
def sequenceFor (t : Target) (id : String) (start stop body : Draft) : Draft :=
  let id := t.identifier id
  match t with
  | .javascript =>
    "for (let " ++ id ++ " = " ++ start ++ "; " ++ id ++ " < " ++ stop ++ "; " ++ id ++ "++) " ++
      braces body
  | .groovy => "for (" ++ id ++ " in " ++ start ++ "..<" ++ stop ++ ") " ++ braces body
  | .ruby =>
    "(" ++ start ++ "..." ++ stop ++ ").each do |" ++ id ++ "|\n" ++ body.indented ++ "end"
  | .kotlin => "for (" ++ id ++ " in " ++ start ++ " until " ++ stop ++ ") " ++ braces body

/-- A loop over the elements of a collection. -/
def forEach (t : Target) (element : String) (iterable body : Draft) : Draft :=
  let element := t.identifier element
  match t with
  | .javascript => "for (let " ++ element ++ " of " ++ iterable ++ ") " ++ braces body
  | .ruby => iterable ++ ".each do |" ++ element ++ "|\n" ++ body.indented ++ "end"
  | .groovy | .kotlin => "for (" ++ element ++ " in " ++ iterable ++ ") " ++ braces body

/-- The declaration of a method. -/
def method (t : Target) (signature : Signature) (params : List String) (body : Draft) : Draft :=
  let name := t.methodName signature.name
  match t with
  | .javascript => "function " ++ name ++ "(" ++ t.identifiers params ++ ") " ++ braces body
  | .groovy => "def " ++ name ++ "(" ++ t.identifiers params ++ ") " ++ braces body
  | .ruby => "def " ++ name ++ "(" ++ t.identifiers params ++ ")\n" ++ body.indented ++ "end"
  | .kotlin =>
    let typed := (params.zip signature.params).map fun (name, type) =>
      t.identifier name ++ ": " ++ kotlinType type
    let result := if signature.ret.isVoid then "" else ": " ++ kotlinType signature.ret
    "fun " ++ name ++ "(" ++ ", ".intercalate typed ++ ")" ++ result ++ " " ++ braces body

end Polyscript.Target
