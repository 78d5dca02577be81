import Polyscript.Json.Outline
import Polyscript.Json.Printer
import Polyscript.Source.Program

/-!
# Programs as JSON

A structure is written as an object of its fields, a node as an object whose only member is
named for the form of the node, and an alternative without content as its name. The fields
that have a value of their own accord are named as such.
-/

namespace Polyscript

open Json (Outline Field)

/-- A symbol's number. -/
def SymbolId.outline (id : SymbolId) : Outline := .natural id.toNat

/-- A symbol's number as JSON. -/
def SymbolId.toJson (id : SymbolId) : Json := id.outline.toJson

namespace Source

/-- The word for a kind of symbol. -/
def SymbolKind.tag : SymbolKind → String
  | .localVariable => "local_variable"
  | .parameter => "parameter"
  | .exceptionParameter => "exception_parameter"
  | .field => "field"
  | .method => "method"
  | .type => "type"

/-- The word for a kind of class declaration. -/
def ClassDeclKind.tag : ClassDeclKind → String
  | .cls => "class"
  | .interface => "interface"
  | .enum => "enum"
  | .annotationType => "annotation"

/-- The word for a binary operator. -/
def BinaryKind.tag : BinaryKind → String
  | .conditionalAnd => "conditional_and"
  | .conditionalOr => "conditional_or"
  | .equalTo => "equal_to"
  | .notEqualTo => "not_equal_to"
  | .plus => "plus"
  | .minus => "minus"
  | .multiply => "multiply"
  | .divide => "divide"
  | .remainder => "remainder"
  | .lessThan => "less_than"
  | .lessThanEqual => "less_than_equal"
  | .greaterThan => "greater_than"
  | .greaterThanEqual => "greater_than_equal"
  | .and => "and"
  | .or => "or"
  | .xor => "xor"
  | .leftShift => "left_shift"
  | .rightShift => "right_shift"
  | .unsignedRightShift => "unsigned_right_shift"

/-- The word for a unary operator. -/
def UnaryKind.tag : UnaryKind → String
  | .postfixIncrement => "postfix_increment"
  | .postfixDecrement => "postfix_decrement"
  | .prefixIncrement => "prefix_increment"
  | .prefixDecrement => "prefix_decrement"
  | .logicalComplement => "logical_complement"
  | .unaryMinus => "unary_minus"
  | .unaryPlus => "unary_plus"
  | .bitwiseComplement => "bitwise_complement"

/-- The word for what a reference names. -/
def RefMode.tag : RefMode → String
  | .invoke => "invoke"
  | .new => "new"

/-- A range of the source text. -/
def Span.outline (span : Span) : Outline :=
  .struct [.required "start" (.natural span.start), .required "end" (.natural span.stop)]

/-- The range of a node, which starts and ends at zero of its own accord. -/
def Span.field (span : Span) : Field := .optional "span" (decide (span = {})) span.outline

/-- A literal. -/
def Literal.outline : Literal → Outline
  | .null => .text "null"
  | .string value => .choice "string" (.text value)
  | .boolean value => .choice "boolean" (.bool value)
  | .int spelling => .choice "int" (.text spelling)
  | .long spelling => .choice "long" (.text spelling)
  | .char value => .choice "char" (.text (String.singleton value))
  | .float spelling => .choice "float" (.text spelling)
  | .double spelling => .choice "double" (.text spelling)

mutual

/-- A type. -/
def Ty.outline : Ty → Outline
  | .primitive kind => .choice "primitive" (.text kind.keyword)
  | .void => .text "void"
  | .null => .text "null"
  | .declared name args =>
    .choice "declared" (.struct
      [.required "name" (.text name), .optional "args" args.isEmpty (.list (Ty.outlines args))])
  | .array component => .choice "array" component.outline
  | .variable name => .choice "type_var" (.text name)

/-- The types of a list. -/
def Ty.outlines : List Ty → List Outline
  | [] => []
  | ty :: rest => ty.outline :: Ty.outlines rest

end

/-- A parameter of a lambda. -/
def LambdaParam.outline (param : LambdaParam) : Outline :=
  .struct
    [.required "name" (.text param.name), .required "sym" param.sym.outline,
      .required "ty" param.ty.outline,
      .optional "explicit_type" (!param.explicitType) (.bool param.explicitType)]

mutual

/-- An expression. -/
def Expr.outline : Expr → Outline
  | .ident name sym span =>
    .choice "ident" (.struct
      [.required "name" (.text name), .required "sym" sym.outline, span.field])
  | .literal value span =>
    .choice "literal" (.struct [.required "value" value.outline, span.field])
  | .binary op lhs rhs span =>
    .choice "binary" (.struct
      [.required "op" (.text op.tag), .required "lhs" lhs.outline, .required "rhs" rhs.outline,
        span.field])
  | .unary op operand span =>
    .choice "unary" (.struct
      [.required "op" (.text op.tag), .required "operand" operand.outline, span.field])
  | .assign target value span =>
    .choice "assign" (.struct
      [.required "target" target.outline, .required "value" value.outline, span.field])
  | .compoundAssign op target value span =>
    .choice "compound_assign" (.struct
      [.required "op" (.text op.tag), .required "target" target.outline,
        .required "value" value.outline, span.field])
  | .conditional cond yes no span =>
    .choice "conditional" (.struct
      [.required "cond" cond.outline, .required "then" yes.outline,
        .required "otherwise" no.outline, span.field])
  | .parens inner span =>
    .choice "parens" (.struct [.required "inner" inner.outline, span.field])
  | .select target name ty span =>
    .choice "select" (.struct
      [.required "target" target.outline, .required "name" (.text name), .required "ty" ty.outline,
        span.field])
  | .call callee method args ty span =>
    .choice "call" (.struct
      [.required "callee" callee.outline, .required "method" method.outline,
        .optional "args" args.isEmpty (.list (Arg.outlines args)), .required "ty" ty.outline,
        span.field])
  | .construct cls args span =>
    .choice "new" (.struct
      [.required "class" cls.outline, .optional "args" args.isEmpty (.list (Expr.outlines args)),
        span.field])
  | .instanceOf expr cls span =>
    .choice "instance_of" (.struct
      [.required "expr" expr.outline, .required "class" cls.outline, span.field])
  | .lambda params body span =>
    .choice "lambda" (.struct
      [.required "params" (.list (params.map LambdaParam.outline)), .required "body" body.outline,
        span.field])
  | .methodRef qualifier name mode method span =>
    .choice "method_ref" (.struct
      [.required "qualifier" qualifier.outline, .required "name" (.text name),
        .required "mode" (.text mode.tag), .required "method" method.outline, span.field])
  | .typeApply base args span =>
    .choice "type_apply" (.struct
      [.required "base" base.outline, .optional "args" args.isEmpty (.list (Ty.outlines args)),
        span.field])

/-- The expressions of a list. -/
def Expr.outlines : List Expr → List Outline
  | [] => []
  | expr :: rest => expr.outline :: Expr.outlines rest

/-- An expression that may be missing. -/
def Expr.optionOutline : Option Expr → Outline
  | none => .null
  | some expr => expr.outline

/-- The way a call names its method. -/
def Callee.outline : Callee → Outline
  | .unqualified name => .choice "unqualified" (.struct [.required "name" (.text name)])
  | .member target name =>
    .choice "member" (.struct [.required "target" target.outline, .required "name" (.text name)])

/-- An argument of a call. -/
def Arg.outline : Arg → Outline
  | ⟨expr, ty⟩ => .struct [.required "expr" expr.outline, .required "ty" ty.outline]

/-- The arguments of a call. -/
def Arg.outlines : List Arg → List Outline
  | [] => []
  | arg :: rest => arg.outline :: Arg.outlines rest

/-- The body of a lambda. -/
def LambdaBody.outline : LambdaBody → Outline
  | .expr body => .choice "expr" body.outline
  | .block body => .choice "block" body.outline

/-- A block. -/
def Block.outline : Block → Outline
  | ⟨stmts, span⟩ => .struct [.required "stmts" (.list (Stmt.outlines stmts)), span.field]

/-- A block that may be missing. -/
def Block.optionOutline : Option Block → Outline
  | none => .null
  | some block => block.outline

/-- The declaration of a variable. -/
def VarDecl.outline : VarDecl → Outline
  | ⟨name, sym, ty, init, span⟩ =>
    .struct
      [.required "name" (.text name), .required "sym" sym.outline, .required "ty" ty.outline,
        .optional "init" init.isNone (Expr.optionOutline init), span.field]

/-- A catch clause. -/
def CatchClause.outline : CatchClause → Outline
  | ⟨param, body⟩ => .struct [.required "param" param.outline, .required "body" body.outline]

/-- The catch clauses of a statement. -/
def CatchClause.outlines : List CatchClause → List Outline
  | [] => []
  | clause :: rest => clause.outline :: CatchClause.outlines rest

/-- A statement. -/
def Stmt.outline : Stmt → Outline
  | .block b => .choice "block" b.outline
  | .local decl => .choice "local" decl.outline
  | .expr e span => .choice "expr" (.struct [.required "expr" e.outline, span.field])
  | .conditional cond yes no span =>
    .choice "if" (.struct
      [.required "cond" cond.outline, .required "then" yes.outline,
        .optional "otherwise" no.isNone (Stmt.optionOutline no), span.field])
  | .loop init cond update body span =>
    .choice "for" (.struct
      [.optional "init" init.isEmpty (.list (Stmt.outlines init)),
        .optional "cond" cond.isNone (Expr.optionOutline cond),
        .optional "update" update.isEmpty (.list (Expr.outlines update)),
        .required "body" body.outline, span.field])
  | .forEach var iterable body span =>
    .choice "for_each" (.struct
      [.required "var" var.outline, .required "iterable" iterable.outline,
        .required "body" body.outline, span.field])
  | .whileLoop cond body span =>
    .choice "while" (.struct
      [.required "cond" cond.outline, .required "body" body.outline, span.field])
  | .tryCatch body catches cleanup span =>
    .choice "try" (.struct
      [.required "body" body.outline,
        .optional "catches" catches.isEmpty (.list (CatchClause.outlines catches)),
        .optional "finally" cleanup.isNone (Block.optionOutline cleanup), span.field])
  | .throw e span => .choice "throw" (.struct [.required "expr" e.outline, span.field])
  | .return e span =>
    .choice "return" (.struct [.optional "expr" e.isNone (Expr.optionOutline e), span.field])
  | .break span => .choice "break" (.struct [span.field])
  | .continue span => .choice "continue" (.struct [span.field])

/-- The statements of a list. -/
def Stmt.outlines : List Stmt → List Outline
  | [] => []
  | stmt :: rest => stmt.outline :: Stmt.outlines rest

/-- A statement that may be missing. -/
def Stmt.optionOutline : Option Stmt → Outline
  | none => .null
  | some stmt => stmt.outline

end

/-- A symbol. -/
def Symbol.outline (symbol : Symbol) : Outline :=
  .struct
    [.required "name" (.text symbol.name), .required "kind" (.text symbol.kind.tag),
      .required "ty" symbol.ty.outline,
      .optional "owner" symbol.owner.isNone (.nullable (symbol.owner.map .text))]

/-- What is known of a class. -/
def ClassInfo.outline (info : ClassInfo) : Outline :=
  .struct
    [.required "name" (.text info.name), .required "kind" (.text info.kind.tag),
      .optional "annotations" info.annotations.isEmpty (.list (info.annotations.map .text)),
      .optional "supertypes" info.supertypes.isEmpty (.list (info.supertypes.map .text))]

/-- The type of a method. -/
def MethodType.outline (method : MethodType) : Outline :=
  .struct
    [.required "name" (.text method.name), .required "owner" method.owner.outline,
      .optional "params" method.params.isEmpty (.list (Ty.outlines method.params)),
      .optional "varargs" (!method.varargs) (.bool method.varargs),
      .required "ret" method.ret.outline]

/-- A parameter of a method. -/
def Param.outline (param : Param) : Outline :=
  .struct
    [.required "name" (.text param.name), .required "sym" param.sym.outline,
      .required "ty" param.ty.outline]

/-- The declaration of a field. -/
def FieldDecl.outline (decl : FieldDecl) : Outline :=
  .struct
    [.required "name" (.text decl.name), .required "sym" decl.sym.outline,
      .required "ty" decl.ty.outline,
      .optional "init" decl.init.isNone (Expr.optionOutline decl.init)]

/-- The declaration of a method. -/
def MethodDecl.outline (decl : MethodDecl) : Outline :=
  .struct
    [.required "name" (.text decl.name),
      .optional "params" decl.params.isEmpty (.list (decl.params.map Param.outline)),
      .required "ret" decl.ret.outline, .required "body" decl.body.outline]

/-- A class with its fields and methods. -/
def ClassUnit.outline (unit : ClassUnit) : Outline :=
  .struct
    [.required "name" (.text unit.name),
      .optional "fields" unit.fields.isEmpty (.list (unit.fields.map FieldDecl.outline)),
      .optional "methods" unit.methods.isEmpty (.list (unit.methods.map MethodDecl.outline))]

/-! ### Parts of a program as JSON -/

def Span.toJson (span : Span) : Json := span.outline.toJson

def Ty.toJson (ty : Ty) : Json := ty.outline.toJson

def Expr.toJson (e : Expr) : Json := e.outline.toJson

def Arg.toJson (arg : Arg) : Json := arg.outline.toJson

def Block.toJson (block : Block) : Json := block.outline.toJson

def VarDecl.toJson (decl : VarDecl) : Json := decl.outline.toJson

def Stmt.toJson (stmt : Stmt) : Json := stmt.outline.toJson

def Symbol.toJson (symbol : Symbol) : Json := symbol.outline.toJson

def ClassInfo.toJson (info : ClassInfo) : Json := info.outline.toJson

def MethodType.toJson (method : MethodType) : Json := method.outline.toJson

/-- The outline of a table, given what its keys are written as. -/
def tableOutline {κ α : Type} [Ord κ] (key : κ → String) (outline : α → Outline)
    (t : Table κ α) : Outline :=
  .table (t.entries.map fun (k, v) => (key k, outline v))

namespace Program

/-- A program; the tables are objects whose keys are numbers and class names. -/
def outline (p : Program) : Outline :=
  .struct
    [.required "unit" p.unit.outline,
      .optional "source" p.source.isNone (.nullable (p.source.map .text)),
      .optional "symbols" p.symbols.entries.isEmpty
        (tableOutline (fun id => toString id.toNat) Symbol.outline p.symbols),
      .optional "classes" p.classes.entries.isEmpty (tableOutline id ClassInfo.outline p.classes),
      .optional "methods" p.methods.entries.isEmpty
        (tableOutline (fun id => toString id.toNat) MethodType.outline p.methods)]

/-- A program as JSON. -/
def toJson (p : Program) : Json := p.outline.toJson

/-- The printed form of a program. -/
def toText (p : Program) : String := p.toJson.pretty

end Program

end Source

end Polyscript
