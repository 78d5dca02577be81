import Polyscript.Json.Value
import Polyscript.Types.Descriptor

/-!
# Type descriptors as JSON

A descriptor is written as its form with the content of the form, in the way source
types are; a class keeps the kind that it has been given.
-/

namespace Polyscript

open Json (record tagged text)

/-- The word for a kind of type. -/
def ClassKind.tag : ClassKind → String
  | .primitive => "primitive"
  | .boxedPrimitive => "boxed_primitive"
  | .string => "string"
  | .void => "void"
  | .enum => "enum"
  | .api => "api"
  | .jsonObject => "json_object"
  | .jsonArray => "json_array"
  | .dataObject => "data_object"
  | .throwable => "throwable"
  | .asyncResult => "async_result"
  | .map => "map"
  | .list => "list"
  | .array => "array"
  | .typeVariable => "type_variable"
  | .other => "other"

/-- A class with its kind. -/
def ClassType.toJson (c : ClassType) : Json :=
  record [("name", text c.name), ("kind", text c.kind.tag)]

mutual

/-- A type descriptor. -/
def TypeInfo.toJson : TypeInfo → Json
  | .primitive kind => tagged "primitive" (text kind.keyword)
  | .boxed kind => tagged "boxed" (text kind.keyword)
  | .string => text "string"
  | .void => text "void"
  | .cls type => tagged "class" type.toJson
  | .parameterized raw args =>
    tagged "parameterized" (record
      [("raw", raw.toJson), ("args", .array (TypeInfo.listToJson args))])
  | .array component => tagged "array" component.toJson
  | .variable name => tagged "variable" (text name)

/-- The type descriptors of a list. -/
def TypeInfo.listToJson : List TypeInfo → List Json
  | [] => []
  | type :: rest => type.toJson :: TypeInfo.listToJson rest

end

/-- A type descriptor that may be missing. -/
def TypeInfo.optionToJson : Option TypeInfo → Json
  | none => .null
  | some type => type.toJson

/-- A signature. -/
def Signature.toJson (signature : Signature) : Json :=
  record [("name", text signature.name),
    ("params", .array (TypeInfo.listToJson signature.params)),
    ("varargs", .bool signature.varargs), ("ret", signature.ret.toJson)]

end Polyscript
