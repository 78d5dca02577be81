import Polyscript.Lowering.Context
import Polyscript.Lowering.Fragment
import Polyscript.Lowering.Step
import Polyscript.Model.Operation
import Polyscript.Types.Resolver

/-!
# Lowering trees

Source trees are lowered to the model in one pass. Names become variables with
their scopes, calls become the operations of their receivers, and a callback for an
asynchronous result whose body is a single test for success or failure has the
branches of the test kept apart.

A construct outside the supported subset makes the step fail; nothing is left out
silently.

How names are lowered is a parameter of the pass; a compilation uses
`Lowering.identifier`.
-/

namespace Polyscript

open Source (SymbolKind)
open Model (Scope)

namespace Lowering

/-- The operator of the model for a binary operator; shifts have none. -/
def binaryOp : Source.BinaryKind → Except Unsupported Model.BinaryOp
  | .conditionalAnd => .ok .both
  | .conditionalOr => .ok .either
  | .equalTo => .ok .equal
  | .notEqualTo => .ok .notEqual
  | .plus => .ok .add
  | .minus => .ok .subtract
  | .multiply => .ok .multiply
  | .divide => .ok .divide
  | .remainder => .ok .remainder
  | .lessThan => .ok .less
  | .lessThanEqual => .ok .lessEqual
  | .greaterThan => .ok .greater
  | .greaterThanEqual => .ok .greaterEqual
  | .and => .ok .bitAnd
  | .or => .ok .bitOr
  | .xor => .ok .bitXor
  | .leftShift => .error (.shift .leftShift)
  | .rightShift => .error (.shift .rightShift)
  | .unsignedRightShift => .error (.shift .unsignedRightShift)

/-- The operator of the model for a unary operator; the complement of bits has none. -/
def unaryOp : Source.UnaryKind → Except Unsupported Model.UnaryOp
  | .postfixIncrement => .ok .postIncrement
  | .postfixDecrement => .ok .postDecrement
  | .prefixIncrement => .ok .preIncrement
  | .prefixDecrement => .ok .preDecrement
  | .logicalComplement => .ok .not
  | .unaryMinus => .ok .minus
  | .unaryPlus => .ok .plus
  | .bitwiseComplement => .error .bitwiseComplement

/-- The literal of the model for a literal. -/
def literal : Source.Literal → Model.Literal
  | .null => .null
  | .string value => .string value
  | .boolean value => .boolean value
  | .int spelling => .int spelling
  | .long spelling => .long spelling
  | .char value => .char value
  | .float spelling => .float spelling
  | .double spelling => .double spelling

/-- A class named in an expression. -/
def classReference (r : Resolver) (name : String) : Model.Expr :=
  if name = r.names.consoleClass then .cls .console
  else if name = r.names.arraysClass then .cls .arrays
  else
    let type := r.classify name
    .cls (match type.kind with
      | .throwable => .throwable type
      | .jsonObject => .jsonObject
      | .jsonArray => .jsonArray
      | .map => .map
      | .list => .list
      | .api => .api type
      | .dataObject => .dataObject type
      | .enum => .enum type
      | _ => .plain type)

/-- The symbol of a number, looked up in the program's table. -/
def lookUp (r : Resolver) (id : SymbolId) : Step Source.Symbol := do
  Step.noteLookup id
  match r.program.symbol? id with
  | some symbol => return symbol
  | none => Step.fail (.unresolvedSymbol id)

/-- A variable of a known scope and type, whose use is noted if it is a field. -/
def variableOf (name : String) (scope : Scope) (type : TypeInfo) : Step Model.Expr := do
  if scope = .field then Step.useField name
  (Model.Expr.identifier name scope).coerce type

/-- A variable is coerced to its type. -/
theorem coerce_of_variableOf {name : String} {scope : Scope} {type : TypeInfo} {e : Model.Expr}
    {s s' : Progress} (ok : variableOf name scope type s = (.ok e, s')) :
    (Model.Expr.identifier name scope).coerce type = .ok e := by
  unfold variableOf at ok
  split at ok
  · obtain ⟨_, _, _, coerced⟩ := Step.ok_of_bind ok
    exact (Step.ok_of_lift coerced).1
  · exact (Step.ok_of_lift ok).1

/-- A name that is looked up: a class, or a variable that is bound from now on. -/
def unbound (r : Resolver) (name : String) (id : SymbolId) : Step Model.Expr := do
  let symbol ← lookUp r id
  if symbol.kind = .type then
    match symbol.ty.qualifiedName? with
    | some qualified => return classReference r qualified
    | none => Step.fail (.unnamedType symbol.name)
  else
    let scope ← (← Step.progress).scopes.classify symbol
    let type ← r.resolve symbol.ty
    Step.declare id scope type
    variableOf name scope type

/-- A name: `this`, an alias, a bound variable, or a name that is looked up. -/
def identifier (r : Resolver) (ctx : Context) (name : String) (id : SymbolId) :
    Step Model.Expr := do
  if name = "this" then return .this
  if let some e := ctx.alias? id then return e
  match (← Step.progress).scopes.lookup id with
  | some binding => variableOf name binding.scope binding.type
  | none => unbound r name id

theorem identifier_apply (r : Resolver) (ctx : Context) (name : String) (id : SymbolId)
    (s : Progress) : identifier r ctx name id s =
      if name = "this" then (.ok .this, s)
      else match ctx.alias? id with
        | some e => (.ok e, s)
        | none => match s.scopes.lookup id with
          | some binding => variableOf name binding.scope binding.type s
          | none => unbound r name id s := by
  unfold identifier
  split
  · rfl
  cases ctx.alias? id with
  | some e => rfl
  | none =>
    change (match s.scopes.lookup id with | some _ => _ | none => _ : Step Model.Expr) s = _
    cases s.scopes.lookup id <;> rfl

/-- How a name with its symbol is lowered in a context. -/
abbrev Naming : Type := Context → String → SymbolId → Step Model.Expr

/-- The class that an `instanceof` tests for. -/
def testedClass (r : Resolver) (id : SymbolId) : Step ClassType := do
  let symbol ← lookUp r id
  match symbol.ty.qualifiedName? with
  | some name => return r.classify name
  | none => Step.fail (.instanceOfUnnamed symbol.name)

/-- Whether the class declares a field of a name. -/
def hasField (r : Resolver) (name : String) : Bool :=
  r.program.unit.fields.any (·.name == name)

/-- The fragments of a block; none without source text or with an empty span. -/
def blockFragments (r : Resolver) (block : Source.Span) (stmts : List Source.Span) :
    List String :=
  if block.stop ≤ block.start then []
  else (r.program.source.bind fun source => fragments? source block stmts).getD []

/-- A lowered block with its fragments, if they are to be kept. -/
def withFragments (r : Resolver) (ctx : Context) (block : Source.Span)
    (spans : List Source.Span) (stmts : List Model.Stmt) : Model.Block :=
  let lowered := Model.Block.ofStmts stmts
  if ctx.options.keepFragments then lowered.withFragments (blockFragments r block spans)
  else lowered

/-- The only parameter of a callback for an asynchronous result, with the type of the
result. The parameter must have its type written. -/
def asyncParam (r : Resolver) (ctx : Context) (params : List Source.LambdaParam) :
    Except Unsupported (Option (Source.LambdaParam × TypeInfo × TypeInfo)) :=
  match ctx.options.asyncIdiom, params with
  | true, [param] =>
    if param.explicitType then do
      let type ← r.resolve param.ty
      match type.kind, type.args with
      | .asyncResult, [result] => return some (param, type, result)
      | _, _ => return none
    else .ok none
  | _, _ => .ok none

/-- The success and failure branches of a body that is a single test of the result. -/
def split (name : String) : Model.LambdaBody → Option Model.Stmt × Option Model.Stmt
  | .block ⟨[.conditionals [⟨cond, body⟩] otherwise], _⟩ =>
    match cond.stripParens.untyped with
    | .asyncCall target _ op =>
      if target = name then
        match op with
        | .succeeded => (some body, otherwise)
        | .failed => (otherwise, some body)
        | _ => (none, none)
      else (none, none)
    | _ => (none, none)
  | _ => (none, none)

/-- A chain of conditions by its first branch and what is done otherwise: a chain that
follows is continued. -/
def chain (first : Model.Branch) : Option Model.Stmt → Model.Stmt
  | some (.conditionals branches otherwise) => .conditionals (first :: branches) otherwise
  | otherwise => .conditionals [first] otherwise

/-- The resolved types of parameters, each bound in turn. -/
def bindParams (r : Resolver) : List (SymbolId × Source.Ty) → Step (List TypeInfo)
  | [] => return []
  | (id, ty) :: rest => do
    let type ← r.resolve ty
    Step.declare id .parameter type
    return type :: (← bindParams r rest)

/-- The resolved types of arguments. -/
def argTypes (r : Resolver) : List Source.Arg → Except Unsupported (List (Option TypeInfo))
  | [] => .ok []
  | arg :: rest => do return (← r.resolveArg arg.ty) :: (← argTypes r rest)

/-- Note the use of a method by reference. Only a method of an instance can be
referred to. -/
def noteReference (name : String) : Model.Expr → Step Unit
  | .cls _ => Step.fail (.unboundReference name)
  | .this => Step.useMethod name
  | _ => return ()

end Lowering

open Lowering

mutual

/-- Lower an expression. -/
def Source.Expr.lowerWith (n : Naming) (r : Resolver) (ctx : Context) :
    Source.Expr → Step Model.Expr
  | .ident name id _ => n ctx name id
  | .literal value _ => return .literal (Lowering.literal value)
  | .binary kind lhs rhs _ => do
    let op ← binaryOp kind
    let lhs ← lhs.lowerWith n r ctx
    let rhs ← rhs.lowerWith n r ctx
    lhs.applyBinary op rhs
  | .unary kind operand _ => do
    let op ← unaryOp kind
    let operand ← operand.lowerWith n r ctx
    operand.applyUnary op
  | .assign target value _ => do
    let target ← target.lowerWith n r ctx
    let value ← value.lowerWith n r ctx
    return .assign target value
  | .compoundAssign op _ _ _ => Step.fail (.compoundAssignment op)
  | .conditional cond yes no _ => do
    let cond ← cond.lowerWith n r ctx
    let yes ← yes.lowerWith n r ctx
    let no ← no.lowerWith n r ctx
    return .conditional cond yes no
  | .parens inner _ => do return .parenthesized (← inner.lowerWith n r ctx)
  | .select target name ty _ => do
    let type ← r.resolve ty
    if target.stripParens.isThis && hasField r name then
      variableOf name .field type
    else
      let receiver ← target.lowerWith n r ctx
      (← receiver.select name).coerce type
  | .call callee method args ty _ => do
    let receiver ← callee.lowerWith n r ctx
    let argTypes ← argTypes r args
    let args ← Source.Arg.lowerAllWith n r ctx args
    let returnType ← r.resolve ty
    let receiverType ← r.owner method
    let signature ← r.signature method
    let call ← receiver.call ⟨receiverType, signature, returnType, args, argTypes⟩
    call.coerce returnType
  | .construct cls args _ => do
    let cls ← cls.lowerWith n r ctx
    let args ← Source.Expr.lowerAllWith n r ctx args
    cls.constructWith args
  | .instanceOf e cls _ => do
    let cls ← testedClass r cls
    let e ← e.lowerWith n r ctx
    e.testInstance cls
  | .lambda params body _ => do
    match ← asyncParam r ctx params with
    | some (param, type, resultType) => do
      let result := Model.Expr.asyncResult param.name resultType
      let body ← body.lowerWith n r (ctx.withAlias param.sym result)
      let (succeeded, failed) := split param.name body
      return .asyncHandler ⟨param.name, type, resultType, body, succeeded, failed⟩
    | none => do
      let types ← bindParams r (params.map fun param => (param.sym, param.ty))
      let body ← body.lowerWith n r ctx
      return .lambda ⟨params.map (·.name), types, body⟩
  | .methodRef qualifier name mode method _ => do
    if mode = .new then Step.fail .constructorReference
    else
      let receiver ← qualifier.lowerWith n r ctx
      noteReference name receiver
      receiver.refer (← r.signature method)
  | .typeApply base _ _ => base.lowerWith n r ctx

/-- Lower expressions in order. -/
def Source.Expr.lowerAllWith (n : Naming) (r : Resolver) (ctx : Context) :
    List Source.Expr → Step (List Model.Expr)
  | [] => return []
  | expr :: rest => do
    let expr ← expr.lowerWith n r ctx
    return expr :: (← Source.Expr.lowerAllWith n r ctx rest)

/-- Lower an expression that may be missing. -/
def Source.Expr.lowerOptionWith (n : Naming) (r : Resolver) (ctx : Context) :
    Option Source.Expr → Step (Option Model.Expr)
  | none => return none
  | some expr => do return some (← expr.lowerWith n r ctx)

/-- Lower the receiver of a call. A call without one is a use of a method of the
class. -/
def Source.Callee.lowerWith (n : Naming) (r : Resolver) (ctx : Context) :
    Source.Callee → Step Model.Expr
  | .unqualified name => do
    Step.useMethod name
    return .this
  | .member target _ => target.lowerWith n r ctx

/-- Lower arguments in order. -/
def Source.Arg.lowerAllWith (n : Naming) (r : Resolver) (ctx : Context) :
    List Source.Arg → Step (List Model.Expr)
  | [] => return []
  | ⟨expr, _⟩ :: rest => do
    let expr ← expr.lowerWith n r ctx
    return expr :: (← Source.Arg.lowerAllWith n r ctx rest)

/-- Lower the body of a lambda. -/
def Source.LambdaBody.lowerWith (n : Naming) (r : Resolver) (ctx : Context) :
    Source.LambdaBody → Step Model.LambdaBody
  | .expr body => do return .expr (← body.lowerWith n r ctx)
  | .block body => do return .block (← body.lowerWith n r ctx)

/-- Lower a block. -/
def Source.Block.lowerWith (n : Naming) (r : Resolver) (ctx : Context) :
    Source.Block → Step Model.Block
  | ⟨stmts, span⟩ => do
    let lowered ← Source.Stmt.lowerAllWith n r ctx stmts
    return withFragments r ctx span (stmts.map (·.span)) lowered

/-- Lower the declaration of a local variable, which is bound after its initial value
has been lowered. -/
def Source.VarDecl.lowerWith (n : Naming) (r : Resolver) (ctx : Context) :
    Source.VarDecl → Step Model.Stmt
  | ⟨name, id, ty, init, _⟩ => do
    let type ← r.resolve ty
    let init ← Source.Expr.lowerOptionWith n r ctx init
    Step.declare id .variable type
    return .varDecl .variable type name init

/-- Lower a catch clause to the name of its parameter and its body. -/
def Source.CatchClause.lowerWith (n : Naming) (r : Resolver) (ctx : Context) :
    Source.CatchClause → Step (String × Model.Stmt)
  | ⟨param, body⟩ => do
    let type ← r.resolve param.ty
    Step.declare param.sym .variable type
    let body ← body.lowerWith n r ctx
    return (param.name, .block body)

/-- Lower a statement. -/
def Source.Stmt.lowerWith (n : Naming) (r : Resolver) (ctx : Context) :
    Source.Stmt → Step Model.Stmt
  | .block block => do return .block (← block.lowerWith n r ctx)
  | .local decl => decl.lowerWith n r ctx
  | .expr (.assign target value _) _ => do
    let target ← target.lowerWith n r ctx
    let value ← value.lowerWith n r ctx
    return .assign target value
  | .expr e _ => do return .expr (← e.lowerWith n r ctx)
  | .conditional cond yes no _ => do
    let cond ← cond.lowerWith n r ctx
    let body ← yes.lowerWith n r ctx
    let otherwise ← Source.Stmt.lowerOptionWith n r ctx no
    return chain ⟨cond, body⟩ otherwise
  | .loop [init] (some cond) [update] body _ =>
    let general : Step Model.Stmt := do
      let init ← init.lowerWith n r ctx
      let cond ← cond.lowerWith n r ctx
      let update ← update.lowerWith n r ctx
      let body ← body.lowerWith n r ctx
      return .loop init cond update body
    match init, cond, update with
    | .local ⟨name, id, ty, some start, _⟩, .binary .lessThan (.ident tested _ _) stop _,
        .unary .postfixIncrement (.ident stepped _ _) _ =>
      if tested = name ∧ stepped = name then do
        let type ← r.resolve ty
        let start ← start.lowerWith n r ctx
        let stop ← stop.lowerWith n r ctx
        Step.declare id .variable type
        let body ← body.lowerWith n r ctx
        return .sequenceFor name start stop body
      else general
    | _, _, _ => general
  | .loop [_] none [_] _ _ => Step.fail .endlessLoop
  | .loop inits _ updates _ _ => Step.fail (.loopParts inits.length updates.length)
  | .forEach var iterable body _ => do
    let iterable ← iterable.lowerWith n r ctx
    let type ← r.resolve var.ty
    Step.declare var.sym .variable type
    let body ← body.lowerWith n r ctx
    return .forEach var.name type iterable body
  | .whileLoop .. => Step.fail .whileLoop
  | .tryCatch _ _ (some _) _ => Step.fail .cleanupBlock
  | .tryCatch body [clause] none _ => do
    let body ← body.lowerWith n r ctx
    let (param, handler) ← clause.lowerWith n r ctx
    return .tryCatch (.block body) param handler
  | .tryCatch _ clauses none _ => Step.fail (.catchCount clauses.length)
  | .throw e _ => do
    match ← e.lowerWith n r ctx with
    | .throwable type reason => return .throw type reason
    | _ => Step.fail .thrownValue
  | .return e _ => do return .return (← Source.Expr.lowerOptionWith n r ctx e)
  | .break _ => Step.fail .breakStatement
  | .continue _ => Step.fail .continueStatement

/-- Lower a statement that may be missing. -/
def Source.Stmt.lowerOptionWith (n : Naming) (r : Resolver) (ctx : Context) :
    Option Source.Stmt → Step (Option Model.Stmt)
  | none => return none
  | some stmt => do return some (← stmt.lowerWith n r ctx)

/-- Lower statements in order. -/
def Source.Stmt.lowerAllWith (n : Naming) (r : Resolver) (ctx : Context) :
    List Source.Stmt → Step (List Model.Stmt)
  | [] => return []
  | stmt :: rest => do
    let stmt ← stmt.lowerWith n r ctx
    return stmt :: (← Source.Stmt.lowerAllWith n r ctx rest)

end

/-- Lower an expression. -/
def Source.Expr.lower (r : Resolver) (ctx : Context) (e : Source.Expr) : Step Model.Expr :=
  e.lowerWith (identifier r) r ctx

/-- Lower a block. -/
def Source.Block.lower (r : Resolver) (ctx : Context) (block : Source.Block) :
    Step Model.Block :=
  block.lowerWith (identifier r) r ctx

/-- Lower a statement. -/
def Source.Stmt.lower (r : Resolver) (ctx : Context) (stmt : Source.Stmt) : Step Model.Stmt :=
  stmt.lowerWith (identifier r) r ctx

/-- Lower the declaration of a method. -/
def Source.MethodDecl.lowerWith (n : Naming) (r : Resolver) (ctx : Context)
    (decl : Source.MethodDecl) : Step Model.Method := do
  let params ← bindParams r (decl.params.map fun param => (param.sym, param.ty))
  let ret ← r.resolve decl.ret
  let body ← decl.body.lowerWith n r ctx
  return ⟨⟨decl.name, params, false, ret⟩, decl.params.map (·.name), body⟩

/-- Lower the declaration of a method. -/
def Source.MethodDecl.lower (r : Resolver) (ctx : Context) (decl : Source.MethodDecl) :
    Step Model.Method :=
  decl.lowerWith (identifier r) r ctx

/-- Lower the declaration of a field, which is bound before its initial value is
lowered. -/
def Source.FieldDecl.lowerWith (n : Naming) (r : Resolver) (ctx : Context)
    (decl : Source.FieldDecl) : Step Model.Field := do
  let type ← r.resolve decl.ty
  Step.declare decl.sym .field type
  let init ← Source.Expr.lowerOptionWith n r ctx decl.init
  return ⟨decl.name, type, init⟩

/-- Lower the declaration of a field. -/
def Source.FieldDecl.lower (r : Resolver) (ctx : Context) (decl : Source.FieldDecl) :
    Step Model.Field :=
  decl.lowerWith (identifier r) r ctx

end Polyscript
