import Polyscript.Model.Encode
import Polyscript.Types.Decode

/-!
# Reading models

A model is read back from what `toJson` writes. Fragments of a block are kept if they
are as many as the block takes, and what a callback says about its branches is found
out anew. The reading functions take the room for further levels, as those of
programs do.
-/

namespace Polyscript.Model

open Json (string? bool? nullable? record? oneOf? texts?)

/-- A scope. -/
def Scope.ofJson? : Nat → Json → Option Scope :=
  oneOf? (Scope.all.map fun scope => (scope.tag, scope))

/-- A binary operator. -/
def BinaryOp.ofJson? : Nat → Json → Option BinaryOp :=
  oneOf? (BinaryOp.all.map fun op => (op.symbol, op))

/-- A unary operator. -/
def UnaryOp.ofJson? : Nat → Json → Option UnaryOp :=
  oneOf? (UnaryOp.all.map fun op => (op.tag, op))

/-- A stream. -/
def Stream.ofJson? : Nat → Json → Option Stream :=
  oneOf? (Stream.all.map fun stream => (stream.tag, stream))

/-- A question to an asynchronous result. -/
def AsyncOp.ofJson? : Nat → Json → Option AsyncOp :=
  oneOf? (AsyncOp.all.map fun op => (op.method, op))

/-- A literal. -/
def Literal.ofJson? (room : Nat) (value : Json) : Option Literal := do
  match ← value.choice? with
  | ("null", none) => some .null
  | (tag, some body) =>
    if room = 0 then none
    else match tag with
      | "string" => return .string (← body.string?)
      | "boolean" => return .boolean (← body.bool?)
      | "int" => return .int (← body.string?)
      | "long" => return .long (← body.string?)
      | "char" => return .char (← body.char?)
      | "float" => return .float (← body.string?)
      | "double" => return .double (← body.string?)
      | _ => none
  | _ => none

/-- A class named in an expression. -/
def ClassRef.ofJson? (room : Nat) (value : Json) : Option ClassRef := do
  match ← value.choice?, room with
  | ("console", none), _ => some .console
  | ("arrays", none), _ => some .arrays
  | ("json_object", none), _ => some .jsonObject
  | ("json_array", none), _ => some .jsonArray
  | ("map", none), _ => some .map
  | ("list", none), _ => some .list
  | (tag, some body), room + 1 =>
    match tag with
    | "throwable" => return .throwable (← ClassType.ofJson? room body)
    | "api" => return .api (← ClassType.ofJson? room body)
    | "data_object" => return .dataObject (← ClassType.ofJson? room body)
    | "enum" => return .enum (← ClassType.ofJson? room body)
    | "java" => return .plain (← ClassType.ofJson? room body)
    | _ => none
  | _, _ => none

/-- A kind of value. -/
def ValueKind.ofJson? (room : Nat) (value : Json) : Option ValueKind := do
  match ← value.choice?, room with
  | ("json_object", none), _ => some .jsonObject
  | ("json_array", none), _ => some .jsonArray
  | ("map", none), _ => some .map
  | ("list", none), _ => some .list
  | ("data_object", some body), room + 1 => return .dataObject (← ClassType.ofJson? room body)
  | _, _ => none

mutual

/-- An expression: a name, or the object whose only member holds the parts of its
form. -/
def Expr.ofJson? (room : Nat) (value : Json) : Option Expr := do
  match ← value.choice?, room with
  | ("this", none), _ => some .this
  | ("new_map", none), _ => some .newMap
  | ("new_list", none), _ => some .newList
  | ("literal", some body), room + 1 => return .literal (← Literal.ofJson? room body)
  | ("concat", some body), room + 1 => return .concat (← Expr.listOfJson? room body)
  | ("parenthesized", some body), room + 1 => return .parenthesized (← Expr.ofJson? room body)
  | ("lambda", some body), room + 1 => return .lambda (← Lambda.ofJson? room body)
  | ("async_handler", some body), room + 1 =>
    return .asyncHandler (← AsyncHandler.ofJson? room body)
  | ("class", some body), room + 1 => return .cls (← ClassRef.ofJson? room body)
  | ("json_object_literal", some body), room + 1 =>
    return .jsonObject (← Member.listOfJson? room body)
  | ("json_array_literal", some body), room + 1 => return .jsonArray (← Expr.listOfJson? room body)
  | ("list_literal", some body), room + 1 => return .list (← Expr.listOfJson? room body)
  | ("console", some body), room + 1 => return .console (← Stream.ofJson? room body)
  | ("access", some body), room + 1 => return .access (← Access.ofJson? room body)
  | (tag, some body), room + 2 =>
    match tag with
    | "identifier" =>
      let r ← record? ["name", "scope"] body
      return .identifier (← r.required "name" string?) (← r.required "scope" (Scope.ofJson? room))
    | "binary" =>
      let r ← record? ["op", "lhs", "rhs"] body
      return .binary (← r.required "op" (BinaryOp.ofJson? room))
        (← r.required "lhs" (Expr.ofJson? room)) (← r.required "rhs" (Expr.ofJson? room))
    | "unary" =>
      let r ← record? ["op", "operand"] body
      return .unary (← r.required "op" (UnaryOp.ofJson? room))
        (← r.required "operand" (Expr.ofJson? room))
    | "conditional" =>
      let r ← record? ["cond", "then", "otherwise"] body
      return .conditional (← r.required "cond" (Expr.ofJson? room))
        (← r.required "then" (Expr.ofJson? room)) (← r.required "otherwise" (Expr.ofJson? room))
    | "assign" =>
      let r ← record? ["target", "value"] body
      return .assign (← r.required "target" (Expr.ofJson? room))
        (← r.required "value" (Expr.ofJson? room))
    | "field" =>
      let r ← record? ["receiver", "name"] body
      return .field (← r.required "receiver" (Expr.ofJson? room)) (← r.required "name" string?)
    | "invocation" =>
      let r ← record? ["receiver", "site"] body
      return .invocation (← r.required "receiver" (Expr.ofJson? room))
        (← r.required "site" (CallSite.ofJson? room))
    | "new" =>
      let r ← record? ["class", "args"] body
      return .construct (← r.required "class" (ClassType.ofJson? room))
        (← r.required "args" (Expr.listOfJson? room))
    | "instance_of" =>
      let r ← record? ["expr", "class"] body
      return .instanceOf (← r.required "expr" (Expr.ofJson? room))
        (← r.required "class" (ClassType.ofJson? room))
    | "method_reference" =>
      let r ← record? ["receiver", "method"] body
      return .methodReference (← r.required "receiver" (Expr.ofJson? room))
        (← r.required "method" (Signature.ofJson? room))
    | "data_object_literal" =>
      let r ← record? ["ty", "members"] body
      return .dataObject (← r.required "ty" (ClassType.ofJson? room))
        (← r.required "members" (Member.listOfJson? room))
    | "throwable" =>
      let r ← record? ["ty", "reason"] body
      return .throwable (← r.required "ty" (ClassType.ofJson? room))
        (← r.required "reason" (nullable? (Expr.ofJson? room)))
    | "enum_constant" =>
      let r ← record? ["ty", "constant"] body
      return .enumConstant (← r.required "ty" (ClassType.ofJson? room))
        (← r.required "constant" string?)
    | "console_print" =>
      let r ← record? ["stream", "arg"] body
      return .consolePrint (← r.required "stream" (Stream.ofJson? room))
        (← r.required "arg" (Expr.ofJson? room))
    | "async_result" =>
      let r ← record? ["name", "result_type"] body
      return .asyncResult (← r.required "name" string?)
        (← r.required "result_type" (TypeInfo.ofJson? room))
    | "async_result_call" =>
      let r ← record? ["name", "result_type", "op"] body
      return .asyncCall (← r.required "name" string?)
        (← r.required "result_type" (TypeInfo.ofJson? room))
        (← r.required "op" (AsyncOp.ofJson? room))
    | "typed" =>
      let r ← record? ["value", "kind"] body
      return .typed (← r.required "value" (Expr.ofJson? room))
        (← r.required "kind" (ValueKind.ofJson? room))
    | _ => none
  | _, _ => none

/-- The expressions of an array. -/
def Expr.listOfJson? (room : Nat) (value : Json) : Option (List Expr) :=
  match room with
  | 0 => none
  | room + 1 => do (← value.items?).mapM (Expr.ofJson? room)

/-- A call site. -/
def CallSite.ofJson? (room : Nat) (value : Json) : Option CallSite :=
  match room with
  | 0 => none
  | room + 1 => do
    let r ← record? ["receiver_type", "method", "return_type", "args", "arg_types"] value
    return {
      receiverType := ← r.required "receiver_type" (TypeInfo.ofJson? room)
      method := ← r.required "method" (Signature.ofJson? room)
      returnType := ← r.required "return_type" (TypeInfo.ofJson? room)
      args := ← r.required "args" (Expr.listOfJson? room)
      argTypes := ← r.required "arg_types" (Source.listOfJson? TypeInfo.optionOfJson? room) }

/-- A member of an object literal. -/
def Member.ofJson? (room : Nat) (value : Json) : Option Member :=
  match room with
  | room + 2 => do
    match ← value.choice? with
    | ("single", some body) =>
      let r ← record? ["name", "value"] body
      return .single (← r.required "name" string?) (← r.required "value" (Expr.ofJson? room))
    | ("sequence", some body) =>
      let r ← record? ["name", "values"] body
      return .sequence (← r.required "name" string?)
        (← r.required "values" (Expr.listOfJson? room))
    | _ => none
  | _ => none

/-- The members of an object literal. -/
def Member.listOfJson? (room : Nat) (value : Json) : Option (List Member) :=
  match room with
  | 0 => none
  | room + 1 => do (← value.items?).mapM (Member.ofJson? room)

/-- An access. -/
def Access.ofJson? (room : Nat) (value : Json) : Option Access := do
  match ← value.choice?, room with
  | ("json_object_encode", some body), room + 1 =>
    return .jsonObjectEncode (← Expr.ofJson? room body)
  | ("json_array_size", some body), room + 1 => return .jsonArraySize (← Expr.ofJson? room body)
  | ("json_array_encode", some body), room + 1 =>
    return .jsonArrayEncode (← Expr.ofJson? room body)
  | ("list_size", some body), room + 1 => return .listSize (← Expr.ofJson? room body)
  | (tag, some body), room + 2 =>
    match tag with
    | "json_object_get" =>
      let r ← record? ["object", "key"] body
      return .jsonObjectGet (← r.required "object" (Expr.ofJson? room))
        (← r.required "key" (Expr.ofJson? room))
    | "json_object_put" =>
      let r ← record? ["object", "key", "value"] body
      return .jsonObjectPut (← r.required "object" (Expr.ofJson? room))
        (← r.required "key" (Expr.ofJson? room)) (← r.required "value" (Expr.ofJson? room))
    | "json_array_get" =>
      let r ← record? ["array", "index"] body
      return .jsonArrayGet (← r.required "array" (Expr.ofJson? room))
        (← r.required "index" (Expr.ofJson? room))
    | "json_array_add" =>
      let r ← record? ["array", "value"] body
      return .jsonArrayAdd (← r.required "array" (Expr.ofJson? room))
        (← r.required "value" (Expr.ofJson? room))
    | "data_object_get" =>
      let r ← record? ["object", "name"] body
      return .dataObjectGet (← r.required "object" (Expr.ofJson? room))
        (← r.required "name" string?)
    | "data_object_set" =>
      let r ← record? ["object", "name", "value"] body
      return .dataObjectSet (← r.required "object" (Expr.ofJson? room))
        (← r.required "name" string?) (← r.required "value" (Expr.ofJson? room))
    | "map_get" =>
      let r ← record? ["map", "key"] body
      return .mapGet (← r.required "map" (Expr.ofJson? room))
        (← r.required "key" (Expr.ofJson? room))
    | "map_put" =>
      let r ← record? ["map", "key", "value"] body
      return .mapPut (← r.required "map" (Expr.ofJson? room))
        (← r.required "key" (Expr.ofJson? room)) (← r.required "value" (Expr.ofJson? room))
    | "map_for_each" =>
      let r ← record? ["map", "key_name", "value_name", "body"] body
      return .mapForEach (← r.required "map" (Expr.ofJson? room))
        (← r.required "key_name" string?) (← r.required "value_name" string?)
        (← r.required "body" (LambdaBody.ofJson? room))
    | "list_get" =>
      let r ← record? ["list", "index"] body
      return .listGet (← r.required "list" (Expr.ofJson? room))
        (← r.required "index" (Expr.ofJson? room))
    | "list_add" =>
      let r ← record? ["list", "value"] body
      return .listAdd (← r.required "list" (Expr.ofJson? room))
        (← r.required "value" (Expr.ofJson? room))
    | _ => none
  | _, _ => none

/-- The body of a lambda. -/
def LambdaBody.ofJson? (room : Nat) (value : Json) : Option LambdaBody :=
  match room with
  | 0 => none
  | room + 1 => do
    match ← value.choice? with
    | ("expr", some body) => return .expr (← Expr.ofJson? room body)
    | ("block", some body) => return .block (← Block.ofJson? room body)
    | _ => none

/-- A lambda. -/
def Lambda.ofJson? (room : Nat) (value : Json) : Option Lambda :=
  match room with
  | 0 => none
  | room + 1 => do
    let r ← record? ["param_names", "param_types", "body"] value
    return ⟨← r.required "param_names" (texts? room),
      ← r.required "param_types" (TypeInfo.listOfJson? room),
      ← r.required "body" (LambdaBody.ofJson? room)⟩

/-- A callback for an asynchronous result. -/
def AsyncHandler.ofJson? (room : Nat) (value : Json) : Option AsyncHandler :=
  match room with
  | 0 => none
  | room + 1 => do
    let r ← record? ["name", "param_type", "result_type", "body", "succeeded", "failed"] value
    return {
      name := ← r.required "name" string?
      paramType := ← r.required "param_type" (TypeInfo.ofJson? room)
      resultType := ← r.required "result_type" (TypeInfo.ofJson? room)
      body := ← r.required "body" (LambdaBody.ofJson? room)
      succeeded := ← r.required "succeeded" (nullable? (Stmt.ofJson? room))
      failed := ← r.required "failed" (nullable? (Stmt.ofJson? room)) }

/-- A block. -/
def Block.ofJson? (room : Nat) (value : Json) : Option Block :=
  match room with
  | 0 => none
  | room + 1 => do
    let r ← record? ["stmts", "fragments"] value
    return (Block.ofStmts (← r.required "stmts" (Stmt.listOfJson? room))).withFragments
      (← r.required "fragments" (texts? room))

/-- A branch. -/
def Branch.ofJson? (room : Nat) (value : Json) : Option Branch :=
  match room with
  | 0 => none
  | room + 1 => do
    let r ← record? ["cond", "body"] value
    return ⟨← r.required "cond" (Expr.ofJson? room), ← r.required "body" (Stmt.ofJson? room)⟩

/-- The branches of an array. -/
def Branch.listOfJson? (room : Nat) (value : Json) : Option (List Branch) :=
  match room with
  | 0 => none
  | room + 1 => do (← value.items?).mapM (Branch.ofJson? room)

/-- A statement. -/
def Stmt.ofJson? (room : Nat) (value : Json) : Option Stmt := do
  match ← value.choice?, room with
  | ("return", some body), room + 1 => return .return (← nullable? (Expr.ofJson? room) body)
  | ("block", some body), room + 1 => return .block (← Block.ofJson? room body)
  | ("expr", some body), room + 1 => return .expr (← Expr.ofJson? room body)
  | (tag, some body), room + 2 =>
    match tag with
    | "assign" =>
      let r ← record? ["target", "value"] body
      return .assign (← r.required "target" (Expr.ofJson? room))
        (← r.required "value" (Expr.ofJson? room))
    | "var_decl" =>
      let r ← record? ["scope", "ty", "name", "init"] body
      return .varDecl (← r.required "scope" (Scope.ofJson? room))
        (← r.required "ty" (TypeInfo.ofJson? room)) (← r.required "name" string?)
        (← r.required "init" (nullable? (Expr.ofJson? room)))
    | "conditionals" =>
      let r ← record? ["branches", "otherwise"] body
      return .conditionals (← r.required "branches" (Branch.listOfJson? room))
        (← r.required "otherwise" (nullable? (Stmt.ofJson? room)))
    | "try_catch" =>
      let r ← record? ["body", "catch_param", "catch_body"] body
      return .tryCatch (← r.required "body" (Stmt.ofJson? room))
        (← r.required "catch_param" string?) (← r.required "catch_body" (Stmt.ofJson? room))
    | "throw" =>
      let r ← record? ["ty", "reason"] body
      return .throw (← r.required "ty" (ClassType.ofJson? room))
        (← r.required "reason" (nullable? (Expr.ofJson? room)))
    | "for" =>
      let r ← record? ["init", "cond", "update", "body"] body
      return .loop (← r.required "init" (Stmt.ofJson? room))
        (← r.required "cond" (Expr.ofJson? room)) (← r.required "update" (Expr.ofJson? room))
        (← r.required "body" (Stmt.ofJson? room))
    | "sequence_for" =>
      let r ← record? ["id", "from", "to", "body"] body
      return .sequenceFor (← r.required "id" string?) (← r.required "from" (Expr.ofJson? room))
        (← r.required "to" (Expr.ofJson? room)) (← r.required "body" (Stmt.ofJson? room))
    | "for_each" =>
      let r ← record? ["element", "element_type", "iterable", "body"] body
      return .forEach (← r.required "element" string?)
        (← r.required "element_type" (TypeInfo.ofJson? room))
        (← r.required "iterable" (Expr.ofJson? room)) (← r.required "body" (Stmt.ofJson? room))
    | _ => none
  | _, _ => none

/-- The statements of an array. -/
def Stmt.listOfJson? (room : Nat) (value : Json) : Option (List Stmt) :=
  match room with
  | 0 => none
  | room + 1 => do (← value.items?).mapM (Stmt.ofJson? room)

end

/-- A field. -/
def Field.ofJson? (room : Nat) (value : Json) : Option Field :=
  match room with
  | 0 => none
  | room + 1 => do
    let r ← record? ["name", "ty", "init"] value
    return ⟨← r.required "name" string?, ← r.required "ty" (TypeInfo.ofJson? room),
      ← r.required "init" (nullable? (Expr.ofJson? room))⟩

/-- A method. -/
def Method.ofJson? (room : Nat) (value : Json) : Option Method :=
  match room with
  | 0 => none
  | room + 1 => do
    let r ← record? ["signature", "param_names", "body"] value
    return ⟨← r.required "signature" (Signature.ofJson? room),
      ← r.required "param_names" (texts? room), ← r.required "body" (Block.ofJson? room)⟩

/-- A program. -/
def Unit.ofJson? (room : Nat) (value : Json) : Option Unit :=
  match room with
  | 0 => none
  | room + 1 => do
    let r ← record? ["name", "fields", "methods", "entry"] value
    return ⟨← r.required "name" string?,
      ← r.required "fields" (Source.listOfJson? Field.ofJson? room),
      ← r.required "methods" (Source.listOfJson? Method.ofJson? room),
      ← r.required "entry" (Block.ofJson? room)⟩

end Polyscript.Model
