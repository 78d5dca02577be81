import Polyscript.Model.Basic
import Polyscript.Target
import Polyscript.Text.LetterCase

/-!
# Names

How the target languages spell the names of variables, methods, classes and types.
A name that is a reserved word of the language is changed: Kotlin puts it between
backquotes, the others add an underscore.
-/

namespace Polyscript.Target

open Model (Scope BinaryOp AsyncOp ClassRef)

/-- The words that cannot be used as names. -/
def reserved : Target → List String
  | .javascript =>
    ["arguments", "await", "delete", "eval", "export", "function", "in", "let", "typeof", "var",
      "with", "yield"]
  | .groovy => ["as", "def", "in", "it", "trait", "var"]
  | .ruby =>
    ["BEGIN", "END", "alias", "and", "begin", "break", "case", "class", "def", "defined?", "do",
      "else", "elsif", "end", "ensure", "false", "for", "if", "in", "module", "next", "nil", "not",
      "or", "redo", "rescue", "retry", "return", "self", "super", "then", "true", "undef", "unless",
      "until", "when", "while", "yield"]
  | .kotlin =>
    ["as", "class", "fun", "in", "interface", "is", "object", "typealias", "val", "var", "when"]

/-- The spelling of a name. -/
def identifier (t : Target) (name : String) : String :=
  if t.reserved.contains name then
    match t with
    | .kotlin => "`" ++ name ++ "`"
    | _ => name ++ "_"
  else name

/-- The spelling of names separated by commas. -/
def identifiers (t : Target) (names : List String) : String :=
  ", ".intercalate (names.map t.identifier)

/-- The spelling of a method's name. Ruby separates its words by underscores. -/
def methodName (t : Target) (name : String) : String :=
  match t with
  | .ruby => t.identifier (Text.snakeCase name)
  | _ => t.identifier name

/-- The spelling of a variable. Ruby marks fields and globals. -/
def variableName (t : Target) (name : String) (scope : Scope) : String :=
  match t, scope with
  | .ruby, .field => "@" ++ t.identifier name
  | .ruby, .global => "$" ++ t.identifier name
  | _, _ => t.identifier name

/-- The spelling of a binary operator. JavaScript compares strictly, and Kotlin has
words for the operations on bits. -/
def operator (t : Target) (op : BinaryOp) : String :=
  match t, op with
  | .javascript, .equal => "==="
  | .javascript, .notEqual => "!=="
  | .kotlin, .bitAnd => "and"
  | .kotlin, .bitOr => "or"
  | .kotlin, .bitXor => "xor"
  | _, op => op.symbol

/-- The name of a class where a value is constructed or tested. -/
def typeName (t : Target) (c : ClassType) : String :=
  match t, c.kind with
  | .kotlin, .api | .kotlin, .dataObject | .kotlin, .enum => c.simpleName
  | _, _ => c.displayName

/-- The name of a class used as an expression. -/
def className (t : Target) : ClassRef → String
  | .console => "System"
  | .arrays => "Arrays"
  | .jsonObject => "JsonObject"
  | .jsonArray => "JsonArray"
  | .map => "HashMap"
  | .list => "ArrayList"
  | .api type | .dataObject type | .enum type => type.simpleName
  | .throwable type | .plain type => t.typeName type

/-- The names of a callback's parameters. JavaScript passes a result and an error. -/
def handlerParams (t : Target) (name : String) : List String :=
  match t with
  | .javascript => [name, name ++ "_err"]
  | _ => [name]

/-- What is asked of an asynchronous result. -/
def asyncCall (t : Target) (name : String) (op : AsyncOp) : String :=
  match t, op with
  | .javascript, .succeeded => name ++ "_err == null"
  | .javascript, .failed => name ++ "_err != null"
  | .javascript, .cause => name ++ "_err"
  | .javascript, .result => name
  | .ruby, .succeeded => name ++ ".succeeded?"
  | .ruby, .failed => name ++ ".failed?"
  | .ruby, .cause => name ++ ".cause"
  | .ruby, .result => name ++ ".result"
  | _, op => name ++ "." ++ op.method ++ "()"

/-- The parameters of a function that stands for a method reference. -/
def referenceParams (count : Nat) : List String :=
  if count = 1 then ["it"] else (List.range count).map fun i => s!"p{i}"

/-- The name of a primitive type in Kotlin. -/
def kotlinPrimitive : Primitive → String
  | .boolean => "Boolean"
  | .byte => "Byte"
  | .short => "Short"
  | .int => "Int"
  | .long => "Long"
  | .char => "Char"
  | .float => "Float"
  | .double => "Double"

/-- The name of a class in a Kotlin type. -/
def kotlinClass (c : ClassType) : String :=
  match c.kind with
  | .map => "MutableMap"
  | .list => "MutableList"
  | .api | .dataObject | .enum | .jsonObject | .jsonArray | .asyncResult => c.simpleName
  | _ => if c.name = "java.lang.Object" then "Any" else c.displayName

mutual

/-- A type in Kotlin, the one target language whose programs state types. -/
def kotlinType : TypeInfo → String
  | .primitive kind => kotlinPrimitive kind
  | .boxed kind => kotlinPrimitive kind
  | .string => "String"
  | .void => "Unit"
  | .cls c => kotlinClass c
  | .parameterized raw args =>
    kotlinClass raw ++ "<" ++ ", ".intercalate (kotlinTypes args) ++ ">"
  | .array component => "Array<" ++ kotlinType component ++ ">"
  | .variable name => name

/-- The types of a list in Kotlin. -/
def kotlinTypes : List TypeInfo → List String
  | [] => []
  | type :: rest => kotlinType type :: kotlinTypes rest

end

end Polyscript.Target
