import Polyscript.Json.Decode
import Polyscript.Json.Reader
import Polyscript.Source.Encode

/-!
# Reading programs

A program is read back from what `toJson` writes, and more generously: fields that
have a value of their own may be left out, and a structure may be an array of its
fields. The reading functions take the room for further levels and end because each
level uses it up.
-/

namespace Polyscript

open Json (string? bool? natural? nullable? record? oneOf? texts? digits?)

/-- The number of different symbols. -/
def SymbolId.bound : Nat := UInt32.size

/-- A symbol's number. -/
def SymbolId.ofJson? (value : Json) : Option SymbolId :=
  (natural? SymbolId.bound value).map UInt32.ofNat

/-- A symbol's number as the key of a member: plain digits without escapes. -/
def SymbolId.ofKey? (key : Written) : Option SymbolId := do
  if key.escaped then none
  else (digits? SymbolId.bound (← key.text).toList).map UInt32.ofNat

namespace Source

/-- A range of the source text. -/
def Span.ofJson? (room : Nat) (value : Json) : Option Span :=
  match room with
  | 0 => none
  | _ + 1 => do
    let r ← record? ["start", "end"] value
    return ⟨← r.required "start" (natural? UInt64.size),
      ← r.required "end" (natural? UInt64.size)⟩

/-- A kind of symbol. -/
def SymbolKind.ofJson? : Nat → Json → Option SymbolKind :=
  oneOf? (SymbolKind.all.map fun kind => (kind.tag, kind))

/-- A kind of class declaration. -/
def ClassDeclKind.ofJson? : Nat → Json → Option ClassDeclKind :=
  oneOf? (ClassDeclKind.all.map fun kind => (kind.tag, kind))

/-- A binary operator. -/
def BinaryKind.ofJson? : Nat → Json → Option BinaryKind :=
  oneOf? (BinaryKind.all.map fun kind => (kind.tag, kind))

/-- A unary operator. -/
def UnaryKind.ofJson? : Nat → Json → Option UnaryKind :=
  oneOf? (UnaryKind.all.map fun kind => (kind.tag, kind))

/-- What a reference names. -/
def RefMode.ofJson? : Nat → Json → Option RefMode :=
  oneOf? [(RefMode.tag .invoke, .invoke), (RefMode.tag .new, .new)]

/-- A primitive type. -/
def primitiveOfJson? : Nat → Json → Option Primitive :=
  oneOf? (Primitive.all.map fun kind => (kind.keyword, kind))

/-- A literal. -/
def Literal.ofJson? (room : Nat) (value : Json) : Option Literal := do
  match ← value.choice? with
  | ("null", none) => some .null
  | (tag, some body) =>
    if room = 0 then none
    else match tag with
      | "null" => if body matches .null then some .null else none
      | "string" => return .string (← body.string?)
      | "boolean" => return .boolean (← body.bool?)
      | "int" => return .int (← body.string?)
      | "long" => return .long (← body.string?)
      | "char" => return .char (← body.char?)
      | "float" => return .float (← body.string?)
      | "double" => return .double (← body.string?)
      | _ => none
  | _ => none

mutual

/-- A type: an alternative with content, or one that is only named. -/
def Ty.ofJson? (room : Nat) (value : Json) : Option Ty :=
  (match room with
    | 0 => none
    | room + 1 => do
      match ← value.choice? with
      | ("primitive", some body) => return .primitive (← primitiveOfJson? room body)
      | ("declared", some body) => Ty.declaredOfJson? room body
      | ("array", some body) => return .array (← Ty.ofJson? room body)
      | ("type_var", some body) => return .variable (← body.string?)
      | _ => none) <|>
    oneOf? [("void", .void), ("null", .null)] room value

/-- A class or interface type. -/
def Ty.declaredOfJson? (room : Nat) (value : Json) : Option Ty :=
  match room with
  | 0 => none
  | room + 1 => do
    let r ← record? ["name", "args"] value
    return .declared (← r.required "name" string?)
      (← r.optional "args" [] (Ty.listOfJson? room))

/-- The types of an array. -/
def Ty.listOfJson? (room : Nat) (value : Json) : Option (List Ty) :=
  match room with
  | 0 => none
  | room + 1 => do (← value.items?).mapM (Ty.ofJson? room)

end

/-- A parameter of a lambda. -/
def LambdaParam.ofJson? (room : Nat) (value : Json) : Option LambdaParam :=
  match room with
  | 0 => none
  | room + 1 => do
    let r ← record? ["name", "sym", "ty", "explicit_type"] value
    return {
      name := ← r.required "name" string?
      sym := ← r.required "sym" SymbolId.ofJson?
      ty := ← r.required "ty" (Ty.ofJson? room)
      explicitType := ← r.optional "explicit_type" false bool? }

mutual

/-- An expression: the object whose only member holds the parts of its form. -/
def Expr.ofJson? (room : Nat) (value : Json) : Option Expr :=
  match room with
  | room + 2 => do
    let (tag, body) ← value.choice?
    let body ← body
    let span (r : Record Json) := r.optional "span" {} (Span.ofJson? room)
    match tag with
    | "ident" =>
      let r ← record? ["name", "sym", "span"] body
      return .ident (← r.required "name" string?) (← r.required "sym" SymbolId.ofJson?) (← span r)
    | "literal" =>
      let r ← record? ["value", "span"] body
      return .literal (← r.required "value" (Literal.ofJson? room)) (← span r)
    | "binary" =>
      let r ← record? ["op", "lhs", "rhs", "span"] body
      return .binary (← r.required "op" (BinaryKind.ofJson? room))
        (← r.required "lhs" (Expr.ofJson? room)) (← r.required "rhs" (Expr.ofJson? room)) (← span r)
    | "unary" =>
      let r ← record? ["op", "operand", "span"] body
      return .unary (← r.required "op" (UnaryKind.ofJson? room))
        (← r.required "operand" (Expr.ofJson? room)) (← span r)
    | "assign" =>
      let r ← record? ["target", "value", "span"] body
      return .assign (← r.required "target" (Expr.ofJson? room))
        (← r.required "value" (Expr.ofJson? room)) (← span r)
    | "compound_assign" =>
      let r ← record? ["op", "target", "value", "span"] body
      return .compoundAssign (← r.required "op" (BinaryKind.ofJson? room))
        (← r.required "target" (Expr.ofJson? room)) (← r.required "value" (Expr.ofJson? room))
        (← span r)
    | "conditional" =>
      let r ← record? ["cond", "then", "otherwise", "span"] body
      return .conditional (← r.required "cond" (Expr.ofJson? room))
        (← r.required "then" (Expr.ofJson? room)) (← r.required "otherwise" (Expr.ofJson? room))
        (← span r)
    | "parens" =>
      let r ← record? ["inner", "span"] body
      return .parens (← r.required "inner" (Expr.ofJson? room)) (← span r)
    | "select" =>
      let r ← record? ["target", "name", "ty", "span"] body
      return .select (← r.required "target" (Expr.ofJson? room)) (← r.required "name" string?)
        (← r.required "ty" (Ty.ofJson? room)) (← span r)
    | "call" =>
      let r ← record? ["callee", "method", "args", "ty", "span"] body
      return .call (← r.required "callee" (Callee.ofJson? room))
        (← r.required "method" SymbolId.ofJson?) (← r.optional "args" [] (Arg.listOfJson? room))
        (← r.required "ty" (Ty.ofJson? room)) (← span r)
    | "new" =>
      let r ← record? ["class", "args", "span"] body
      return .construct (← r.required "class" (Expr.ofJson? room))
        (← r.optional "args" [] (Expr.listOfJson? room)) (← span r)
    | "instance_of" =>
      let r ← record? ["expr", "class", "span"] body
      return .instanceOf (← r.required "expr" (Expr.ofJson? room))
        (← r.required "class" SymbolId.ofJson?) (← span r)
    | "lambda" =>
      let r ← record? ["params", "body", "span"] body
      return .lambda (← r.required "params" (paramsOfJson? room))
        (← r.required "body" (LambdaBody.ofJson? room)) (← span r)
    | "method_ref" =>
      let r ← record? ["qualifier", "name", "mode", "method", "span"] body
      return .methodRef (← r.required "qualifier" (Expr.ofJson? room)) (← r.required "name" string?)
        (← r.required "mode" (RefMode.ofJson? room)) (← r.required "method" SymbolId.ofJson?)
        (← span r)
    | "type_apply" =>
      let r ← record? ["base", "args", "span"] body
      return .typeApply (← r.required "base" (Expr.ofJson? room))
        (← r.optional "args" [] (Ty.listOfJson? room)) (← span r)
    | _ => none
  | _ => none
where
  /-- The parameters of a lambda. -/
  paramsOfJson? (room : Nat) (value : Json) : Option (List LambdaParam) :=
    match room with
    | 0 => none
    | room + 1 => do (← value.items?).mapM (LambdaParam.ofJson? room)

/-- The expressions of an array. -/
def Expr.listOfJson? (room : Nat) (value : Json) : Option (List Expr) :=
  match room with
  | 0 => none
  | room + 1 => do (← value.items?).mapM (Expr.ofJson? room)

/-- The way a call names its method. -/
def Callee.ofJson? (room : Nat) (value : Json) : Option Callee :=
  match room with
  | room + 2 => do
    match ← value.choice? with
    | ("unqualified", some body) =>
      let r ← record? ["name"] body
      return .unqualified (← r.required "name" string?)
    | ("member", some body) =>
      let r ← record? ["target", "name"] body
      return .member (← r.required "target" (Expr.ofJson? room)) (← r.required "name" string?)
    | _ => none
  | _ => none

/-- An argument of a call. -/
def Arg.ofJson? (room : Nat) (value : Json) : Option Arg :=
  match room with
  | 0 => none
  | room + 1 => do
    let r ← record? ["expr", "ty"] value
    return ⟨← r.required "expr" (Expr.ofJson? room), ← r.required "ty" (Ty.ofJson? room)⟩

/-- The arguments of a call. -/
def Arg.listOfJson? (room : Nat) (value : Json) : Option (List Arg) :=
  match room with
  | 0 => none
  | room + 1 => do (← value.items?).mapM (Arg.ofJson? room)

/-- The body of a lambda. -/
def LambdaBody.ofJson? (room : Nat) (value : Json) : Option LambdaBody :=
  match room with
  | 0 => none
  | room + 1 => do
    match ← value.choice? with
    | ("expr", some body) => return .expr (← Expr.ofJson? room body)
    | ("block", some body) => return .block (← Block.ofJson? room body)
    | _ => none

/-- A block. -/
def Block.ofJson? (room : Nat) (value : Json) : Option Block :=
  match room with
  | 0 => none
  | room + 1 => do
    let r ← record? ["stmts", "span"] value
    return ⟨← r.required "stmts" (Stmt.listOfJson? room),
      ← r.optional "span" {} (Span.ofJson? room)⟩

/-- The declaration of a variable. -/
def VarDecl.ofJson? (room : Nat) (value : Json) : Option VarDecl :=
  match room with
  | 0 => none
  | room + 1 => do
    let r ← record? ["name", "sym", "ty", "init", "span"] value
    return {
      name := ← r.required "name" string?
      sym := ← r.required "sym" SymbolId.ofJson?
      ty := ← r.required "ty" (Ty.ofJson? room)
      init := ← r.optional "init" none (nullable? (Expr.ofJson? room))
      span := ← r.optional "span" {} (Span.ofJson? room) }

/-- A catch clause. -/
def CatchClause.ofJson? (room : Nat) (value : Json) : Option CatchClause :=
  match room with
  | 0 => none
  | room + 1 => do
    let r ← record? ["param", "body"] value
    return ⟨← r.required "param" (VarDecl.ofJson? room), ← r.required "body" (Block.ofJson? room)⟩

/-- The catch clauses of a statement. -/
def CatchClause.listOfJson? (room : Nat) (value : Json) : Option (List CatchClause) :=
  match room with
  | 0 => none
  | room + 1 => do (← value.items?).mapM (CatchClause.ofJson? room)

/-- A statement: the object whose only member holds the parts of its form. -/
def Stmt.ofJson? (room : Nat) (value : Json) : Option Stmt :=
  match room with
  | room + 2 => do
    let (tag, body) ← value.choice?
    let body ← body
    let span (r : Record Json) := r.optional "span" {} (Span.ofJson? room)
    match tag with
    | "block" => return .block (← Block.ofJson? (room + 1) body)
    | "local" => return .local (← VarDecl.ofJson? (room + 1) body)
    | "expr" =>
      let r ← record? ["expr", "span"] body
      return .expr (← r.required "expr" (Expr.ofJson? room)) (← span r)
    | "if" =>
      let r ← record? ["cond", "then", "otherwise", "span"] body
      return .conditional (← r.required "cond" (Expr.ofJson? room))
        (← r.required "then" (Stmt.ofJson? room))
        (← r.optional "otherwise" none (nullable? (Stmt.ofJson? room))) (← span r)
    | "for" =>
      let r ← record? ["init", "cond", "update", "body", "span"] body
      return .loop (← r.optional "init" [] (Stmt.listOfJson? room))
        (← r.optional "cond" none (nullable? (Expr.ofJson? room)))
        (← r.optional "update" [] (Expr.listOfJson? room))
        (← r.required "body" (Stmt.ofJson? room)) (← span r)
    | "for_each" =>
      let r ← record? ["var", "iterable", "body", "span"] body
      return .forEach (← r.required "var" (VarDecl.ofJson? room))
        (← r.required "iterable" (Expr.ofJson? room)) (← r.required "body" (Stmt.ofJson? room))
        (← span r)
    | "while" =>
      let r ← record? ["cond", "body", "span"] body
      return .whileLoop (← r.required "cond" (Expr.ofJson? room))
        (← r.required "body" (Stmt.ofJson? room)) (← span r)
    | "try" =>
      let r ← record? ["body", "catches", "finally", "span"] body
      return .tryCatch (← r.required "body" (Block.ofJson? room))
        (← r.optional "catches" [] (CatchClause.listOfJson? room))
        (← r.optional "finally" none (nullable? (Block.ofJson? room))) (← span r)
    | "throw" =>
      let r ← record? ["expr", "span"] body
      return .throw (← r.required "expr" (Expr.ofJson? room)) (← span r)
    | "return" =>
      let r ← record? ["expr", "span"] body
      return .return (← r.optional "expr" none (nullable? (Expr.ofJson? room))) (← span r)
    | "break" => return .break (← span (← record? ["span"] body))
    | "continue" => return .continue (← span (← record? ["span"] body))
    | _ => none
  | _ => none

/-- The statements of an array. -/
def Stmt.listOfJson? (room : Nat) (value : Json) : Option (List Stmt) :=
  match room with
  | 0 => none
  | room + 1 => do (← value.items?).mapM (Stmt.ofJson? room)

end

/-- A symbol. -/
def Symbol.ofJson? (room : Nat) (value : Json) : Option Symbol :=
  match room with
  | 0 => none
  | room + 1 => do
    let r ← record? ["name", "kind", "ty", "owner"] value
    return {
      name := ← r.required "name" string?
      kind := ← r.required "kind" (SymbolKind.ofJson? room)
      ty := ← r.required "ty" (Ty.ofJson? room)
      owner := ← r.optional "owner" none (nullable? string?) }

/-- What is known of a class. -/
def ClassInfo.ofJson? (room : Nat) (value : Json) : Option ClassInfo :=
  match room with
  | 0 => none
  | room + 1 => do
    let r ← record? ["name", "kind", "annotations", "supertypes"] value
    return {
      name := ← r.required "name" string?
      kind := ← r.required "kind" (ClassDeclKind.ofJson? room)
      annotations := ← r.optional "annotations" [] (texts? room)
      supertypes := ← r.optional "supertypes" [] (texts? room) }

/-- The type of a method. -/
def MethodType.ofJson? (room : Nat) (value : Json) : Option MethodType :=
  match room with
  | 0 => none
  | room + 1 => do
    let r ← record? ["name", "owner", "params", "varargs", "ret"] value
    return {
      name := ← r.required "name" string?
      owner := ← r.required "owner" (Ty.ofJson? room)
      params := ← r.optional "params" [] (Ty.listOfJson? room)
      varargs := ← r.optional "varargs" false bool?
      ret := ← r.required "ret" (Ty.ofJson? room) }

/-- A parameter of a method. -/
def Param.ofJson? (room : Nat) (value : Json) : Option Param :=
  match room with
  | 0 => none
  | room + 1 => do
    let r ← record? ["name", "sym", "ty"] value
    return ⟨← r.required "name" string?, ← r.required "sym" SymbolId.ofJson?,
      ← r.required "ty" (Ty.ofJson? room)⟩

/-- The declaration of a field. -/
def FieldDecl.ofJson? (room : Nat) (value : Json) : Option FieldDecl :=
  match room with
  | 0 => none
  | room + 1 => do
    let r ← record? ["name", "sym", "ty", "init"] value
    return {
      name := ← r.required "name" string?
      sym := ← r.required "sym" SymbolId.ofJson?
      ty := ← r.required "ty" (Ty.ofJson? room)
      init := ← r.optional "init" none (nullable? (Expr.ofJson? room)) }

/-- The items of an array, each read by `read` one level further in. -/
def listOfJson? {α : Type} (read : Nat → Json → Option α) (room : Nat) (value : Json) :
    Option (List α) :=
  match room with
  | 0 => none
  | room + 1 => do (← value.items?).mapM (read room)

/-- The declaration of a method. -/
def MethodDecl.ofJson? (room : Nat) (value : Json) : Option MethodDecl :=
  match room with
  | 0 => none
  | room + 1 => do
    let r ← record? ["name", "params", "ret", "body"] value
    return {
      name := ← r.required "name" string?
      params := ← r.optional "params" [] (listOfJson? Param.ofJson? room)
      ret := ← r.required "ret" (Ty.ofJson? room)
      body := ← r.required "body" (Block.ofJson? room) }

/-- A class with its fields and methods. -/
def ClassUnit.ofJson? (room : Nat) (value : Json) : Option ClassUnit :=
  match room with
  | 0 => none
  | room + 1 => do
    let r ← record? ["name", "fields", "methods"] value
    return {
      name := ← r.required "name" string?
      fields := ← r.optional "fields" [] (listOfJson? FieldDecl.ofJson? room)
      methods := ← r.optional "methods" [] (listOfJson? MethodDecl.ofJson? room) }

/-- An entry of a table. -/
def entryOfJson? {κ α : Type} (readKey : Written → Option κ) (read : Json → Option α)
    (m : Written × Json) : Option (κ × α) := do
  return (← readKey m.1, ← read m.2)

/-- A table: an object in which the last member of a key counts. -/
def tableOfJson? {κ α : Type} [Ord κ] [Std.TransOrd κ] (readKey : Written → Option κ)
    (read : Nat → Json → Option α) (room : Nat) (value : Json) : Option (Table κ α) :=
  match room with
  | 0 => none
  | room + 1 => do
    let entries ← (← value.members?).mapM (entryOfJson? readKey (read room))
    return .ofList entries

namespace Program

/-- A program. -/
def ofJson? (value : Json) : Option Program := do
  let room := Json.maxDepth - 1
  let r ← record? ["unit", "source", "symbols", "classes", "methods"] value
  return {
    unit := ← r.required "unit" (ClassUnit.ofJson? room)
    source := ← r.optional "source" none (nullable? string?)
    symbols := ← r.optional "symbols" ∅ (tableOfJson? SymbolId.ofKey? Symbol.ofJson? room)
    classes := ← r.optional "classes" ∅ (tableOfJson? Written.text ClassInfo.ofJson? room)
    methods := ← r.optional "methods" ∅ (tableOfJson? SymbolId.ofKey? MethodType.ofJson? room) }

/-- The program that a text holds. -/
def ofText? (text : String) : Option Program := do ofJson? (← Json.ofText? text)

end Program

end Source

end Polyscript
