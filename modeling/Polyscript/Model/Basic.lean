import Polyscript.Model.Operator
import Polyscript.Types.Descriptor

/-!
# The model of a program

The model is what all target languages have in common: statements and expressions
in which every name has its scope, calls have their signatures, and the operations
on structured objects, maps, lists, asynchronous results and the console are nodes
of their own.

A block may carry fragments, the blank lines and comments around its statements:
one before each statement and one after the last.
-/

namespace Polyscript.Model

/-- A literal; numbers keep their spelling. -/
inductive Literal where
  | null
  | string (value : String)
  | boolean (value : Bool)
  | int (spelling : String)
  | long (spelling : String)
  | char (value : Char)
  | float (spelling : String)
  | double (spelling : String)
  deriving DecidableEq

/-- A class named in an expression. -/
inductive ClassRef where
  | console
  | arrays
  | throwable (type : ClassType)
  | api (type : ClassType)
  | jsonObject
  | jsonArray
  | dataObject (type : ClassType)
  | enum (type : ClassType)
  | map
  | list
  | plain (type : ClassType)
  deriving DecidableEq

/-- The kinds of values that answer some calls in their own way. -/
inductive ValueKind where
  | jsonObject
  | jsonArray
  | dataObject (type : ClassType)
  | map
  | list
  deriving DecidableEq

mutual

/-- An expression. -/
inductive Expr where
  | identifier (name : String) (scope : Scope)
  | this
  | literal (value : Literal)
  /-- The texts of the parts, one after the other. -/
  | concat (parts : List Expr)
  | parenthesized (inner : Expr)
  | binary (op : BinaryOp) (lhs rhs : Expr)
  | unary (op : UnaryOp) (operand : Expr)
  | conditional (cond yes no : Expr)
  | assign (target value : Expr)
  | field (receiver : Expr) (name : String)
  | invocation (receiver : Expr) (site : CallSite)
  | construct (cls : ClassType) (args : List Expr)
  | instanceOf (expr : Expr) (cls : ClassType)
  | lambda (lambda : Lambda)
  | asyncHandler (handler : AsyncHandler)
  | methodReference (receiver : Expr) (method : Signature)
  | cls (cls : ClassRef)
  | jsonObject (members : List Member)
  | jsonArray (values : List Expr)
  | dataObject (type : ClassType) (members : List Member)
  | list (values : List Expr)
  | newMap
  | newList
  | throwable (type : ClassType) (reason : Option Expr)
  | enumConstant (type : ClassType) (constant : String)
  | console (stream : Stream)
  | consolePrint (stream : Stream) (arg : Expr)
  | asyncResult (name : String) (resultType : TypeInfo)
  | asyncCall (name : String) (resultType : TypeInfo) (op : AsyncOp)
  /-- A value whose type gives it calls of its own. -/
  | typed (value : Expr) (kind : ValueKind)
  | access (access : Access)

/-- Everything about a call but its receiver. The type of a `null` argument is
missing. -/
structure CallSite where
  receiverType : TypeInfo
  method : Signature
  returnType : TypeInfo
  args : List Expr
  argTypes : List (Option TypeInfo)

/-- A member of an object literal: one value, or a sequence that grows. -/
inductive Member where
  | single (name : String) (value : Expr)
  | sequence (name : String) (values : List Expr)

/-- An operation on a container or data object. -/
inductive Access where
  | jsonObjectGet (object key : Expr)
  | jsonObjectPut (object key value : Expr)
  | jsonObjectEncode (object : Expr)
  | jsonArrayGet (array index : Expr)
  | jsonArrayAdd (array value : Expr)
  | jsonArraySize (array : Expr)
  | jsonArrayEncode (array : Expr)
  | dataObjectGet (object : Expr) (name : String)
  | dataObjectSet (object : Expr) (name : String) (value : Expr)
  | mapGet (map key : Expr)
  | mapPut (map key value : Expr)
  | mapForEach (map : Expr) (keyName valueName : String) (body : LambdaBody)
  | listGet (list index : Expr)
  | listAdd (list value : Expr)
  | listSize (list : Expr)

/-- The body of a lambda. -/
inductive LambdaBody where
  | expr (body : Expr)
  | block (body : Block)

/-- A lambda. -/
structure Lambda where
  paramNames : List String
  paramTypes : List TypeInfo
  body : LambdaBody

/-- A callback for an asynchronous result. When its body is a single test for success
or failure, the branches of the test are kept apart. -/
structure AsyncHandler where
  name : String
  paramType : TypeInfo
  resultType : TypeInfo
  body : LambdaBody
  succeeded : Option Stmt
  failed : Option Stmt

/-- Statements with the fragments around them. -/
structure Block where
  stmts : List Stmt
  fragments : List String

/-- A condition with the statement it guards. -/
structure Branch where
  cond : Expr
  body : Stmt

/-- A statement. -/
inductive Stmt where
  | return (value : Option Expr)
  | assign (target value : Expr)
  | varDecl (scope : Scope) (type : TypeInfo) (name : String) (init : Option Expr)
  | conditionals (branches : List Branch) (otherwise : Option Stmt)
  | tryCatch (body : Stmt) (catchParam : String) (catchBody : Stmt)
  | throw (type : ClassType) (reason : Option Expr)
  | block (block : Block)
  | loop (init : Stmt) (cond update : Expr) (body : Stmt)
  /-- A loop over the integers from `start` to before `stop`. -/
  | sequenceFor (id : String) (start stop : Expr) (body : Stmt)
  | forEach (element : String) (elementType : TypeInfo) (iterable : Expr) (body : Stmt)
  | expr (expr : Expr)

end

/-- A method. -/
structure Method where
  signature : Signature
  paramNames : List String
  body : Block

/-- A field. -/
structure Field where
  name : String
  type : TypeInfo
  init : Option Expr

/-- A program: the fields and methods it uses, and the body of its entry method. -/
structure Unit where
  name : String
  fields : List Field
  methods : List Method
  entry : Block

/-- The name of a member. -/
def Member.name : Member → String
  | .single name _ => name
  | .sequence name _ => name

/-- Whether the branches of a callback are kept apart. -/
def AsyncHandler.isSplit (handler : AsyncHandler) : Bool :=
  handler.succeeded.isSome || handler.failed.isSome

namespace Expr

/-- A string literal. -/
def string (value : String) : Expr := .literal (.string value)

/-- The literal `null`. -/
def null : Expr := .literal .null

/-- The text of a string literal. -/
def text? : Expr → Option String
  | .literal (.string value) => some value
  | _ => none

/-- Whether an expression is the literal `null`. -/
def isNull : Expr → Bool
  | .literal .null => true
  | _ => false

/-- Whether an expression is `this`. -/
def isThis : Expr → Bool
  | .this => true
  | _ => false

/-- Whether an expression names a class. -/
def isClass : Expr → Bool
  | .cls _ => true
  | _ => false

/-- An expression without the kinds given to it. -/
def untyped : Expr → Expr
  | .typed value _ => value.untyped
  | e => e

/-- An expression without the parentheses around it. -/
def stripParens : Expr → Expr
  | .parenthesized inner => inner.stripParens
  | e => e

end Expr

namespace Block

/-- A block without fragments. -/
def ofStmts (stmts : List Stmt) : Block := ⟨stmts, []⟩

/-- The block with fragments around its statements, if they are as many as it takes. -/
def withFragments (block : Block) (fragments : List String) : Block :=
  if fragments.length = block.stmts.length + 1 then { block with fragments } else block

end Block

end Polyscript.Model
