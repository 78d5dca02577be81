import Polyscript.Model.Basic
import Polyscript.Types.Encode

/-!
# Models as JSON

A node is written as an object whose only member is named for the form of the node,
or as the name alone if the form has no content; a structure is the object of all
its fields. A class that is none of the special ones is written as a class of `java`,
the source language.
-/

namespace Polyscript.Model

open Json (record tagged text)

/-- The word for a scope. -/
def Scope.tag : Scope → String
  | .variable => "variable"
  | .parameter => "parameter"
  | .field => "field"
  | .global => "global"

/-- The word for a unary operator. -/
def UnaryOp.tag : UnaryOp → String
  | .postIncrement => "post_increment"
  | .postDecrement => "post_decrement"
  | .preIncrement => "pre_increment"
  | .preDecrement => "pre_decrement"
  | .not => "not"
  | .minus => "minus"
  | .plus => "plus"

/-- The word for a stream. -/
def Stream.tag : Stream → String
  | .out => "out"
  | .err => "err"

/-- A literal. -/
def Literal.toJson : Literal → Json
  | .null => text "null"
  | .string value => tagged "string" (text value)
  | .boolean value => tagged "boolean" (.bool value)
  | .int spelling => tagged "int" (text spelling)
  | .long spelling => tagged "long" (text spelling)
  | .char value => tagged "char" (text (String.singleton value))
  | .float spelling => tagged "float" (text spelling)
  | .double spelling => tagged "double" (text spelling)

/-- A class named in an expression. -/
def ClassRef.toJson : ClassRef → Json
  | .console => text "console"
  | .arrays => text "arrays"
  | .throwable type => tagged "throwable" type.toJson
  | .api type => tagged "api" type.toJson
  | .jsonObject => text "json_object"
  | .jsonArray => text "json_array"
  | .dataObject type => tagged "data_object" type.toJson
  | .enum type => tagged "enum" type.toJson
  | .map => text "map"
  | .list => text "list"
  | .plain type => tagged "java" type.toJson

/-- A kind of value. -/
def ValueKind.toJson : ValueKind → Json
  | .jsonObject => text "json_object"
  | .jsonArray => text "json_array"
  | .dataObject type => tagged "data_object" type.toJson
  | .map => text "map"
  | .list => text "list"

mutual

/-- An expression. -/
def Expr.toJson : Expr → Json
  | .identifier name scope =>
    tagged "identifier" (record [("name", text name), ("scope", text scope.tag)])
  | .this => text "this"
  | .literal value => tagged "literal" value.toJson
  | .concat parts => tagged "concat" (.array (Expr.listToJson parts))
  | .parenthesized inner => tagged "parenthesized" inner.toJson
  | .binary op lhs rhs =>
    tagged "binary" (record [("op", text op.symbol), ("lhs", lhs.toJson), ("rhs", rhs.toJson)])
  | .unary op operand =>
    tagged "unary" (record [("op", text op.tag), ("operand", operand.toJson)])
  | .conditional cond yes no =>
    tagged "conditional" (record
      [("cond", cond.toJson), ("then", yes.toJson), ("otherwise", no.toJson)])
  | .assign target value =>
    tagged "assign" (record [("target", target.toJson), ("value", value.toJson)])
  | .field receiver name =>
    tagged "field" (record [("receiver", receiver.toJson), ("name", text name)])
  | .invocation receiver site =>
    tagged "invocation" (record [("receiver", receiver.toJson), ("site", site.toJson)])
  | .construct cls args =>
    tagged "new" (record [("class", cls.toJson), ("args", .array (Expr.listToJson args))])
  | .instanceOf expr cls =>
    tagged "instance_of" (record [("expr", expr.toJson), ("class", cls.toJson)])
  | .lambda lambda => tagged "lambda" lambda.toJson
  | .asyncHandler handler => tagged "async_handler" handler.toJson
  | .methodReference receiver method =>
    tagged "method_reference" (record [("receiver", receiver.toJson), ("method", method.toJson)])
  | .cls cls => tagged "class" cls.toJson
  | .jsonObject members => tagged "json_object_literal" (.array (Member.listToJson members))
  | .jsonArray values => tagged "json_array_literal" (.array (Expr.listToJson values))
  | .dataObject type members =>
    tagged "data_object_literal" (record
      [("ty", type.toJson), ("members", .array (Member.listToJson members))])
  | .list values => tagged "list_literal" (.array (Expr.listToJson values))
  | .newMap => text "new_map"
  | .newList => text "new_list"
  | .throwable type reason =>
    tagged "throwable" (record [("ty", type.toJson), ("reason", Expr.optionToJson reason)])
  | .enumConstant type constant =>
    tagged "enum_constant" (record [("ty", type.toJson), ("constant", text constant)])
  | .console stream => tagged "console" (text stream.tag)
  | .consolePrint stream arg =>
    tagged "console_print" (record [("stream", text stream.tag), ("arg", arg.toJson)])
  | .asyncResult name resultType =>
    tagged "async_result" (record [("name", text name), ("result_type", resultType.toJson)])
  | .asyncCall name resultType op =>
    tagged "async_result_call" (record
      [("name", text name), ("result_type", resultType.toJson), ("op", text op.method)])
  | .typed value kind =>
    tagged "typed" (record [("value", value.toJson), ("kind", kind.toJson)])
  | .access access => tagged "access" access.toJson

/-- The expressions of a list. -/
def Expr.listToJson : List Expr → List Json
  | [] => []
  | expr :: rest => expr.toJson :: Expr.listToJson rest

/-- An expression that may be missing. -/
def Expr.optionToJson : Option Expr → Json
  | none => .null
  | some expr => expr.toJson

/-- A call site. -/
def CallSite.toJson : CallSite → Json
  | ⟨receiverType, method, returnType, args, argTypes⟩ =>
    record [("receiver_type", receiverType.toJson), ("method", method.toJson),
      ("return_type", returnType.toJson), ("args", .array (Expr.listToJson args)),
      ("arg_types", .array (argTypes.map TypeInfo.optionToJson))]

/-- A member of an object literal. -/
def Member.toJson : Member → Json
  | .single name value => tagged "single" (record [("name", text name), ("value", value.toJson)])
  | .sequence name values =>
    tagged "sequence" (record
      [("name", text name), ("values", .array (Expr.listToJson values))])

/-- The members of an object literal. -/
def Member.listToJson : List Member → List Json
  | [] => []
  | member :: rest => member.toJson :: Member.listToJson rest

/-- An access. -/
def Access.toJson : Access → Json
  | .jsonObjectGet object key =>
    tagged "json_object_get" (record [("object", object.toJson), ("key", key.toJson)])
  | .jsonObjectPut object key value =>
    tagged "json_object_put" (record
      [("object", object.toJson), ("key", key.toJson), ("value", value.toJson)])
  | .jsonObjectEncode object => tagged "json_object_encode" object.toJson
  | .jsonArrayGet array index =>
    tagged "json_array_get" (record [("array", array.toJson), ("index", index.toJson)])
  | .jsonArrayAdd array value =>
    tagged "json_array_add" (record [("array", array.toJson), ("value", value.toJson)])
  | .jsonArraySize array => tagged "json_array_size" array.toJson
  | .jsonArrayEncode array => tagged "json_array_encode" array.toJson
  | .dataObjectGet object name =>
    tagged "data_object_get" (record [("object", object.toJson), ("name", text name)])
  | .dataObjectSet object name value =>
    tagged "data_object_set" (record
      [("object", object.toJson), ("name", text name), ("value", value.toJson)])
  | .mapGet map key => tagged "map_get" (record [("map", map.toJson), ("key", key.toJson)])
  | .mapPut map key value =>
    tagged "map_put" (record [("map", map.toJson), ("key", key.toJson), ("value", value.toJson)])
  | .mapForEach map keyName valueName body =>
    tagged "map_for_each" (record
      [("map", map.toJson), ("key_name", text keyName), ("value_name", text valueName),
        ("body", body.toJson)])
  | .listGet list index =>
    tagged "list_get" (record [("list", list.toJson), ("index", index.toJson)])
  | .listAdd list value =>
    tagged "list_add" (record [("list", list.toJson), ("value", value.toJson)])
  | .listSize list => tagged "list_size" list.toJson

/-- The body of a lambda. -/
def LambdaBody.toJson : LambdaBody → Json
  | .expr body => tagged "expr" body.toJson
  | .block body => tagged "block" body.toJson

/-- A lambda. -/
def Lambda.toJson : Lambda → Json
  | ⟨paramNames, paramTypes, body⟩ =>
    record [("param_names", .array (paramNames.map text)),
      ("param_types", .array (TypeInfo.listToJson paramTypes)), ("body", body.toJson)]

/-- A callback for an asynchronous result. Whether its branches are kept apart is
written too, for those who only want to know that. -/
def AsyncHandler.toJson : AsyncHandler → Json
  | ⟨name, paramType, resultType, body, succeeded, failed⟩ =>
    record [("name", text name), ("param_type", paramType.toJson),
      ("result_type", resultType.toJson), ("body", body.toJson),
      ("succeeded", Stmt.optionToJson succeeded), ("failed", Stmt.optionToJson failed),
      ("is_split", .bool (succeeded.isSome || failed.isSome))]

/-- A block. -/
def Block.toJson : Block → Json
  | ⟨stmts, fragments⟩ =>
    record [("stmts", .array (Stmt.listToJson stmts)), ("fragments", .array (fragments.map text))]

/-- Branches. -/
def Branch.listToJson : List Branch → List Json
  | [] => []
  | ⟨cond, body⟩ :: rest =>
    record [("cond", cond.toJson), ("body", body.toJson)] :: Branch.listToJson rest

/-- A statement. -/
def Stmt.toJson : Stmt → Json
  | .return value => tagged "return" (Expr.optionToJson value)
  | .assign target value =>
    tagged "assign" (record [("target", target.toJson), ("value", value.toJson)])
  | .varDecl scope type name init =>
    tagged "var_decl" (record
      [("scope", text scope.tag), ("ty", type.toJson), ("name", text name),
        ("init", Expr.optionToJson init)])
  | .conditionals branches otherwise =>
    tagged "conditionals" (record
      [("branches", .array (Branch.listToJson branches)),
        ("otherwise", Stmt.optionToJson otherwise)])
  | .tryCatch body catchParam catchBody =>
    tagged "try_catch" (record
      [("body", body.toJson), ("catch_param", text catchParam),
        ("catch_body", catchBody.toJson)])
  | .throw type reason =>
    tagged "throw" (record [("ty", type.toJson), ("reason", Expr.optionToJson reason)])
  | .block block => tagged "block" block.toJson
  | .loop init cond update body =>
    tagged "for" (record
      [("init", init.toJson), ("cond", cond.toJson), ("update", update.toJson),
        ("body", body.toJson)])
  | .sequenceFor id start stop body =>
    tagged "sequence_for" (record
      [("id", text id), ("from", start.toJson), ("to", stop.toJson), ("body", body.toJson)])
  | .forEach element elementType iterable body =>
    tagged "for_each" (record
      [("element", text element), ("element_type", elementType.toJson),
        ("iterable", iterable.toJson), ("body", body.toJson)])
  | .expr expr => tagged "expr" expr.toJson

/-- The statements of a list. -/
def Stmt.listToJson : List Stmt → List Json
  | [] => []
  | stmt :: rest => stmt.toJson :: Stmt.listToJson rest

/-- A statement that may be missing. -/
def Stmt.optionToJson : Option Stmt → Json
  | none => .null
  | some stmt => stmt.toJson

end

/-- A field. -/
def Field.toJson (field : Field) : Json :=
  record [("name", text field.name), ("ty", field.type.toJson),
    ("init", Expr.optionToJson field.init)]

/-- A method. -/
def Method.toJson (method : Method) : Json :=
  record [("signature", method.signature.toJson),
    ("param_names", .array (method.paramNames.map text)), ("body", method.body.toJson)]

/-- A program. -/
def Unit.toJson (unit : Unit) : Json :=
  record [("name", text unit.name), ("fields", .array (unit.fields.map Field.toJson)),
    ("methods", .array (unit.methods.map Method.toJson)), ("entry", unit.entry.toJson)]

end Polyscript.Model
