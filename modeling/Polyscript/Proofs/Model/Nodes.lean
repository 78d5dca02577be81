import Polyscript.Model.Basic

/-!
# Nodes of models

The expressions, statements and blocks that occur in a model at any depth: below
operands and arguments, in the bodies of lambdas and callbacks, and in the branches of a
callback that are kept apart.
-/

namespace Polyscript.Model

/-- An expression, a statement or a block of a model. -/
inductive Node where
  | expr (expr : Expr)
  | stmt (stmt : Stmt)
  | block (block : Block)

mutual

/-- The nodes of an expression, itself included. -/
def Expr.nodes : Expr → List Node
  | .identifier name scope => [.expr (.identifier name scope)]
  | .this => [.expr .this]
  | .literal value => [.expr (.literal value)]
  | .concat parts => .expr (.concat parts) :: Expr.nodesAll parts
  | .parenthesized inner => .expr (.parenthesized inner) :: inner.nodes
  | .binary op lhs rhs => .expr (.binary op lhs rhs) :: (lhs.nodes ++ rhs.nodes)
  | .unary op operand => .expr (.unary op operand) :: operand.nodes
  | .conditional cond yes no =>
    .expr (.conditional cond yes no) :: (cond.nodes ++ (yes.nodes ++ no.nodes))
  | .assign target value => .expr (.assign target value) :: (target.nodes ++ value.nodes)
  | .field receiver name => .expr (.field receiver name) :: receiver.nodes
  | .invocation receiver site =>
    .expr (.invocation receiver site) :: (receiver.nodes ++ site.nodes)
  | .construct cls args => .expr (.construct cls args) :: Expr.nodesAll args
  | .instanceOf expr cls => .expr (.instanceOf expr cls) :: expr.nodes
  | .lambda lambda => .expr (.lambda lambda) :: lambda.nodes
  | .asyncHandler handler => .expr (.asyncHandler handler) :: handler.nodes
  | .methodReference receiver method =>
    .expr (.methodReference receiver method) :: receiver.nodes
  | .cls cls => [.expr (.cls cls)]
  | .jsonObject members => .expr (.jsonObject members) :: Member.nodesAll members
  | .jsonArray values => .expr (.jsonArray values) :: Expr.nodesAll values
  | .dataObject type members => .expr (.dataObject type members) :: Member.nodesAll members
  | .list values => .expr (.list values) :: Expr.nodesAll values
  | .newMap => [.expr .newMap]
  | .newList => [.expr .newList]
  | .throwable type reason => .expr (.throwable type reason) :: Expr.nodesOption reason
  | .enumConstant type constant => [.expr (.enumConstant type constant)]
  | .console stream => [.expr (.console stream)]
  | .consolePrint stream arg => .expr (.consolePrint stream arg) :: arg.nodes
  | .asyncResult name resultType => [.expr (.asyncResult name resultType)]
  | .asyncCall name resultType op => [.expr (.asyncCall name resultType op)]
  | .typed value kind => .expr (.typed value kind) :: value.nodes
  | .access access => .expr (.access access) :: access.nodes

/-- The nodes of expressions. -/
def Expr.nodesAll : List Expr → List Node
  | [] => []
  | expr :: rest => expr.nodes ++ Expr.nodesAll rest

/-- The nodes of an expression that may be missing. -/
def Expr.nodesOption : Option Expr → List Node
  | none => []
  | some expr => expr.nodes

/-- The nodes of a call's arguments. -/
def CallSite.nodes : CallSite → List Node
  | ⟨_, _, _, args, _⟩ => Expr.nodesAll args

/-- The nodes of a member. -/
def Member.nodes : Member → List Node
  | .single _ value => value.nodes
  | .sequence _ values => Expr.nodesAll values

/-- The nodes of members. -/
def Member.nodesAll : List Member → List Node
  | [] => []
  | member :: rest => member.nodes ++ Member.nodesAll rest

/-- The nodes of an operation. -/
def Access.nodes : Access → List Node
  | .jsonObjectGet object key => object.nodes ++ key.nodes
  | .jsonObjectPut object key value => object.nodes ++ (key.nodes ++ value.nodes)
  | .jsonObjectEncode object => object.nodes
  | .jsonArrayGet array index => array.nodes ++ index.nodes
  | .jsonArrayAdd array value => array.nodes ++ value.nodes
  | .jsonArraySize array => array.nodes
  | .jsonArrayEncode array => array.nodes
  | .dataObjectGet object _ => object.nodes
  | .dataObjectSet object _ value => object.nodes ++ value.nodes
  | .mapGet map key => map.nodes ++ key.nodes
  | .mapPut map key value => map.nodes ++ (key.nodes ++ value.nodes)
  | .mapForEach map _ _ body => map.nodes ++ body.nodes
  | .listGet list index => list.nodes ++ index.nodes
  | .listAdd list value => list.nodes ++ value.nodes
  | .listSize list => list.nodes

/-- The nodes of a lambda's body. -/
def LambdaBody.nodes : LambdaBody → List Node
  | .expr body => body.nodes
  | .block body => body.nodes

/-- The nodes of a lambda. -/
def Lambda.nodes : Lambda → List Node
  | ⟨_, _, body⟩ => body.nodes

/-- The nodes of a callback: of its body and of the branches kept apart. -/
def AsyncHandler.nodes : AsyncHandler → List Node
  | ⟨_, _, _, body, succeeded, failed⟩ =>
    body.nodes ++ (Stmt.nodesOption succeeded ++ Stmt.nodesOption failed)

/-- The nodes of a block, itself included. -/
def Block.nodes : Block → List Node
  | ⟨stmts, fragments⟩ => .block ⟨stmts, fragments⟩ :: Stmt.nodesAll stmts

/-- The nodes of branches. -/
def Branch.nodesAll : List Branch → List Node
  | [] => []
  | ⟨cond, body⟩ :: rest => cond.nodes ++ (body.nodes ++ Branch.nodesAll rest)

/-- The nodes of a statement, itself included. -/
def Stmt.nodes : Stmt → List Node
  | .return value => .stmt (.return value) :: Expr.nodesOption value
  | .assign target value => .stmt (.assign target value) :: (target.nodes ++ value.nodes)
  | .varDecl scope type name init =>
    .stmt (.varDecl scope type name init) :: Expr.nodesOption init
  | .conditionals branches otherwise =>
    .stmt (.conditionals branches otherwise) ::
      (Branch.nodesAll branches ++ Stmt.nodesOption otherwise)
  | .tryCatch body param handler =>
    .stmt (.tryCatch body param handler) :: (body.nodes ++ handler.nodes)
  | .throw type reason => .stmt (.throw type reason) :: Expr.nodesOption reason
  | .block block => .stmt (.block block) :: block.nodes
  | .loop init cond update body =>
    .stmt (.loop init cond update body) ::
      (init.nodes ++ (cond.nodes ++ (update.nodes ++ body.nodes)))
  | .sequenceFor id start stop body =>
    .stmt (.sequenceFor id start stop body) :: (start.nodes ++ (stop.nodes ++ body.nodes))
  | .forEach element type iterable body =>
    .stmt (.forEach element type iterable body) :: (iterable.nodes ++ body.nodes)
  | .expr expr => .stmt (.expr expr) :: expr.nodes

/-- The nodes of statements. -/
def Stmt.nodesAll : List Stmt → List Node
  | [] => []
  | stmt :: rest => stmt.nodes ++ Stmt.nodesAll rest

/-- The nodes of a statement that may be missing. -/
def Stmt.nodesOption : Option Stmt → List Node
  | none => []
  | some stmt => stmt.nodes

end

attribute [simp] Expr.nodes Expr.nodesAll Expr.nodesOption CallSite.nodes Member.nodes
  Member.nodesAll Access.nodes LambdaBody.nodes Lambda.nodes AsyncHandler.nodes Block.nodes
  Branch.nodesAll Stmt.nodes Stmt.nodesAll Stmt.nodesOption

/-- The nodes of a method's body. -/
def Method.nodes (method : Method) : List Node := method.body.nodes

/-- The nodes of a field's initial value. -/
def Field.nodes (field : Field) : List Node := Expr.nodesOption field.init

/-- The nodes of a program: of its fields, its methods and the body of its entry method. -/
def Unit.nodes (unit : Unit) : List Node :=
  unit.fields.flatMap Field.nodes ++ (unit.methods.flatMap Method.nodes ++ unit.entry.nodes)

/-- Whether the fragments of a block, if it has any, stand before each statement and after the
last. -/
def Block.IsFitting (block : Block) : Prop :=
  block.fragments = [] ∨ block.fragments.length = block.stmts.length + 1

end Polyscript.Model
