import Polyscript.Source.Type

/-!
# Source trees

A source tree has been resolved: names carry the symbol they stand for, calls the
symbol of the method they call, and expressions whose type matters carry it. Nodes
remember the range of the source text they came from.
-/

namespace Polyscript

/-- A symbol by its number. -/
abbrev SymbolId := UInt32

namespace Source

/-- A range of the source text in bytes; `stop` is not part of it. -/
structure Span where
  start : Nat := 0
  stop : Nat := 0
  deriving DecidableEq

/-- The binary operators. -/
inductive BinaryKind where
  | conditionalAnd
  | conditionalOr
  | equalTo
  | notEqualTo
  | plus
  | minus
  | multiply
  | divide
  | remainder
  | lessThan
  | lessThanEqual
  | greaterThan
  | greaterThanEqual
  | and
  | or
  | xor
  | leftShift
  | rightShift
  | unsignedRightShift
  deriving DecidableEq

namespace BinaryKind

/-- Every binary operator. -/
def all : List BinaryKind :=
  [.conditionalAnd, .conditionalOr, .equalTo, .notEqualTo, .plus, .minus, .multiply, .divide,
    .remainder, .lessThan, .lessThanEqual, .greaterThan, .greaterThanEqual, .and, .or, .xor,
    .leftShift, .rightShift, .unsignedRightShift]

/-- The name of an operator, as messages give it. -/
def name : BinaryKind → String
  | .conditionalAnd => "ConditionalAnd"
  | .conditionalOr => "ConditionalOr"
  | .equalTo => "EqualTo"
  | .notEqualTo => "NotEqualTo"
  | .plus => "Plus"
  | .minus => "Minus"
  | .multiply => "Multiply"
  | .divide => "Divide"
  | .remainder => "Remainder"
  | .lessThan => "LessThan"
  | .lessThanEqual => "LessThanEqual"
  | .greaterThan => "GreaterThan"
  | .greaterThanEqual => "GreaterThanEqual"
  | .and => "And"
  | .or => "Or"
  | .xor => "Xor"
  | .leftShift => "LeftShift"
  | .rightShift => "RightShift"
  | .unsignedRightShift => "UnsignedRightShift"

end BinaryKind

/-- The unary operators. -/
inductive UnaryKind where
  | postfixIncrement
  | postfixDecrement
  | prefixIncrement
  | prefixDecrement
  | logicalComplement
  | unaryMinus
  | unaryPlus
  | bitwiseComplement
  deriving DecidableEq

/-- Every unary operator. -/
def UnaryKind.all : List UnaryKind :=
  [.postfixIncrement, .postfixDecrement, .prefixIncrement, .prefixDecrement, .logicalComplement,
    .unaryMinus, .unaryPlus, .bitwiseComplement]

/-- What a reference names: a method of an expression, or a constructor. -/
inductive RefMode where
  | invoke
  | new
  deriving DecidableEq

/-- A literal; numbers keep their spelling. -/
inductive Literal where
  | null
  | string (value : String)
  | boolean (value : Bool)
  | int (spelling : String)
  | long (spelling : String)
  | char (value : Char)
  | float (spelling : String)
  | double (spelling : String)
  deriving DecidableEq

/-- A parameter of a lambda; `explicitType` tells whether its type is written. -/
structure LambdaParam where
  name : String
  sym : SymbolId
  ty : Ty
  explicitType : Bool := false

mutual

/-- An expression. -/
inductive Expr where
  | ident (name : String) (sym : SymbolId) (span : Span := {})
  | literal (value : Literal) (span : Span := {})
  | binary (op : BinaryKind) (lhs rhs : Expr) (span : Span := {})
  | unary (op : UnaryKind) (operand : Expr) (span : Span := {})
  | assign (target value : Expr) (span : Span := {})
  | compoundAssign (op : BinaryKind) (target value : Expr) (span : Span := {})
  | conditional (cond yes no : Expr) (span : Span := {})
  | parens (inner : Expr) (span : Span := {})
  | select (target : Expr) (name : String) (ty : Ty) (span : Span := {})
  | call (callee : Callee) (method : SymbolId) (args : List Arg) (ty : Ty) (span : Span := {})
  | construct (cls : Expr) (args : List Expr) (span : Span := {})
  | instanceOf (expr : Expr) (cls : SymbolId) (span : Span := {})
  | lambda (params : List LambdaParam) (body : LambdaBody) (span : Span := {})
  | methodRef (qualifier : Expr) (name : String) (mode : RefMode) (method : SymbolId)
    (span : Span := {})
  /-- A generic class with its type arguments, as in `new HashMap<String, Object>()`. -/
  | typeApply (base : Expr) (args : List Ty) (span : Span := {})

/-- How a call names its method. -/
inductive Callee where
  /-- By its name alone, on the enclosing instance. -/
  | unqualified (name : String)
  /-- As a member of an expression. -/
  | member (target : Expr) (name : String)

/-- An argument of a call with its type. -/
structure Arg where
  expr : Expr
  ty : Ty

/-- The body of a lambda. -/
inductive LambdaBody where
  | expr (body : Expr)
  | block (body : Block)

/-- Statements between braces; `span` includes the braces. -/
structure Block where
  stmts : List Stmt
  span : Span := {}

/-- The declaration of a local, for-each or catch variable. -/
structure VarDecl where
  name : String
  sym : SymbolId
  ty : Ty
  init : Option Expr := none
  span : Span := {}

/-- A catch clause. -/
structure CatchClause where
  param : VarDecl
  body : Block

/-- A statement. -/
inductive Stmt where
  | block (block : Block)
  | local (decl : VarDecl)
  | expr (expr : Expr) (span : Span := {})
  | conditional (cond : Expr) (yes : Stmt) (no : Option Stmt) (span : Span := {})
  | loop (init : List Stmt) (cond : Option Expr) (update : List Expr) (body : Stmt)
    (span : Span := {})
  | forEach (var : VarDecl) (iterable : Expr) (body : Stmt) (span : Span := {})
  | whileLoop (cond : Expr) (body : Stmt) (span : Span := {})
  | tryCatch (body : Block) (catches : List CatchClause) (cleanup : Option Block)
    (span : Span := {})
  | throw (expr : Expr) (span : Span := {})
  | return (expr : Option Expr) (span : Span := {})
  | break (span : Span := {})
  | continue (span : Span := {})

end

namespace Expr

/-- A string literal. -/
def string (value : String) : Expr := .literal (.string value)

/-- The literal of an integer. -/
def int (value : Int) : Expr := .literal (.int (toString value))

/-- A call of a member. -/
def memberCall (target : Expr) (name : String) (method : SymbolId) (args : List Arg) (ty : Ty) :
    Expr :=
  .call (.member target name) method args ty

/-- A call on the enclosing instance. -/
def localCall (name : String) (method : SymbolId) (args : List Arg) (ty : Ty) : Expr :=
  .call (.unqualified name) method args ty

/-- Where an expression stands. -/
def span : Expr → Span
  | .ident _ _ span | .literal _ span | .binary _ _ _ span | .unary _ _ span
  | .assign _ _ span | .compoundAssign _ _ _ span | .conditional _ _ _ span | .parens _ span
  | .select _ _ _ span | .call _ _ _ _ span | .construct _ _ span | .instanceOf _ _ span
  | .lambda _ _ span | .methodRef _ _ _ _ span | .typeApply _ _ span => span

/-- An expression without the parentheses around it. -/
def stripParens : Expr → Expr
  | .parens inner _ => inner.stripParens
  | e => e

/-- Whether an expression is `this`. -/
def isThis : Expr → Bool
  | .ident name _ _ => name == "this"
  | _ => false

end Expr

namespace Stmt

/-- An expression as a statement, in the place of the expression. -/
def ofExpr (e : Expr) : Stmt := .expr e e.span

/-- Where a statement stands. -/
def span : Stmt → Span
  | .block b => b.span
  | .local decl => decl.span
  | .expr _ span | .conditional _ _ _ span | .loop _ _ _ _ span | .forEach _ _ _ span
  | .whileLoop _ _ span | .tryCatch _ _ _ span | .throw _ span | .return _ span
  | .break span | .continue span => span

/-- A statement moved to another place. -/
def withSpan (span : Span) : Stmt → Stmt
  | .block b => .block { b with span }
  | .local decl => .local { decl with span }
  | .expr e _ => .expr e span
  | .conditional cond yes no _ => .conditional cond yes no span
  | .loop init cond update body _ => .loop init cond update body span
  | .forEach var iterable body _ => .forEach var iterable body span
  | .whileLoop cond body _ => .whileLoop cond body span
  | .tryCatch body catches cleanup _ => .tryCatch body catches cleanup span
  | .throw e _ => .throw e span
  | .return e _ => .return e span
  | .break _ => .break span
  | .continue _ => .continue span

end Stmt

end Source

end Polyscript
