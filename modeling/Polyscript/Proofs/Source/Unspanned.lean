import Polyscript.Compilation
import Polyscript.Proofs.Lowering.Loop

/-!
# Programs without their places

A program and the same program without its source text and with every span set to
nothing. Programs that differ in source text and spans only are the same program when
these are left out. Types are resolved without either.
-/

namespace Polyscript

namespace Source

mutual

/-- An expression without its places. -/
def Expr.unspanned : Expr → Expr
  | .ident name sym _ => .ident name sym
  | .literal value _ => .literal value
  | .binary op lhs rhs _ => .binary op lhs.unspanned rhs.unspanned
  | .unary op operand _ => .unary op operand.unspanned
  | .assign target value _ => .assign target.unspanned value.unspanned
  | .compoundAssign op target value _ => .compoundAssign op target.unspanned value.unspanned
  | .conditional cond yes no _ => .conditional cond.unspanned yes.unspanned no.unspanned
  | .parens inner _ => .parens inner.unspanned
  | .select target name ty _ => .select target.unspanned name ty
  | .call callee method args ty _ => .call callee.unspanned method (Arg.unspannedAll args) ty
  | .construct cls args _ => .construct cls.unspanned (Expr.unspannedAll args)
  | .instanceOf expr cls _ => .instanceOf expr.unspanned cls
  | .lambda params body _ => .lambda params body.unspanned
  | .methodRef qualifier name mode method _ => .methodRef qualifier.unspanned name mode method
  | .typeApply base args _ => .typeApply base.unspanned args

/-- Expressions without their places. -/
def Expr.unspannedAll : List Expr → List Expr
  | [] => []
  | expr :: rest => expr.unspanned :: Expr.unspannedAll rest

/-- An expression that may be missing, without its places. -/
def Expr.unspannedOption : Option Expr → Option Expr
  | none => none
  | some expr => some expr.unspanned

/-- The way a call names its method, without its places. -/
def Callee.unspanned : Callee → Callee
  | .unqualified name => .unqualified name
  | .member target name => .member target.unspanned name

/-- Arguments without their places. -/
def Arg.unspannedAll : List Arg → List Arg
  | [] => []
  | ⟨expr, ty⟩ :: rest => ⟨expr.unspanned, ty⟩ :: Arg.unspannedAll rest

/-- The body of a lambda without its places. -/
def LambdaBody.unspanned : LambdaBody → LambdaBody
  | .expr body => .expr body.unspanned
  | .block body => .block body.unspanned

/-- A block without its places. -/
def Block.unspanned : Block → Block
  | ⟨stmts, _⟩ => ⟨Stmt.unspannedAll stmts, {}⟩

/-- A block that may be missing, without its places. -/
def Block.unspannedOption : Option Block → Option Block
  | none => none
  | some block => some block.unspanned

/-- The declaration of a variable without its places. -/
def VarDecl.unspanned : VarDecl → VarDecl
  | ⟨name, sym, ty, init, _⟩ => ⟨name, sym, ty, Expr.unspannedOption init, {}⟩

/-- Catch clauses without their places. -/
def CatchClause.unspannedAll : List CatchClause → List CatchClause
  | [] => []
  | ⟨param, body⟩ :: rest => ⟨param.unspanned, body.unspanned⟩ :: CatchClause.unspannedAll rest

/-- A statement without its places. -/
def Stmt.unspanned : Stmt → Stmt
  | .block block => .block block.unspanned
  | .local decl => .local decl.unspanned
  | .expr expr _ => .expr expr.unspanned
  | .conditional cond yes no _ =>
    .conditional cond.unspanned yes.unspanned (Stmt.unspannedOption no)
  | .loop init cond update body _ =>
    .loop (Stmt.unspannedAll init) (Expr.unspannedOption cond) (Expr.unspannedAll update)
      body.unspanned
  | .forEach var iterable body _ => .forEach var.unspanned iterable.unspanned body.unspanned
  | .whileLoop cond body _ => .whileLoop cond.unspanned body.unspanned
  | .tryCatch body catches cleanup _ =>
    .tryCatch body.unspanned (CatchClause.unspannedAll catches) (Block.unspannedOption cleanup)
  | .throw expr _ => .throw expr.unspanned
  | .return expr _ => .return (Expr.unspannedOption expr)
  | .break _ => .break
  | .continue _ => .continue

/-- Statements without their places. -/
def Stmt.unspannedAll : List Stmt → List Stmt
  | [] => []
  | stmt :: rest => stmt.unspanned :: Stmt.unspannedAll rest

/-- A statement that may be missing, without its places. -/
def Stmt.unspannedOption : Option Stmt → Option Stmt
  | none => none
  | some stmt => some stmt.unspanned

end

attribute [simp] Expr.unspanned Expr.unspannedAll Expr.unspannedOption Callee.unspanned
  Arg.unspannedAll LambdaBody.unspanned Block.unspanned Block.unspannedOption VarDecl.unspanned
  CatchClause.unspannedAll Stmt.unspanned Stmt.unspannedAll Stmt.unspannedOption

/-- The declaration of a field without its places. -/
def FieldDecl.unspanned (decl : FieldDecl) : FieldDecl :=
  { decl with init := Expr.unspannedOption decl.init }

/-- The declaration of a method without its places. -/
def MethodDecl.unspanned (decl : MethodDecl) : MethodDecl :=
  { decl with body := decl.body.unspanned }

/-- A class without its places. -/
def ClassUnit.unspanned (unit : ClassUnit) : ClassUnit :=
  { unit with
    fields := unit.fields.map FieldDecl.unspanned
    methods := unit.methods.map MethodDecl.unspanned }

/-- A program without its source text and places. -/
def Program.unspanned (p : Program) : Program :=
  { p with unit := p.unit.unspanned, source := none }

theorem Expr.stripParens_unspanned (e : Expr) :
    e.unspanned.stripParens = e.stripParens.unspanned := by
  fun_induction stripParens e with
  | case1 inner span ih => exact ih
  | case2 e notParens => cases e <;> first | rfl | exact absurd rfl (notParens _ _)

theorem Expr.isThis_unspanned (e : Expr) : e.unspanned.isThis = e.isThis := by
  cases e <;> rfl

theorem Expr.length_unspannedAll (es : List Expr) : (unspannedAll es).length = es.length := by
  induction es with
  | nil => rfl
  | cons e rest ih => simp [ih]

theorem Stmt.length_unspannedAll (stmts : List Stmt) :
    (unspannedAll stmts).length = stmts.length := by
  induction stmts with
  | nil => rfl
  | cons stmt rest ih => simp [ih]

theorem CatchClause.length_unspannedAll (clauses : List CatchClause) :
    (unspannedAll clauses).length = clauses.length := by
  induction clauses with
  | nil => rfl
  | cons clause rest ih =>
    obtain ⟨param, body⟩ := clause
    simp [ih]

end Source

namespace Resolver

/-- What trees are lowered with, without source text and places. -/
def unspanned (r : Resolver) : Resolver := { r with program := r.program.unspanned }

variable (r : Resolver)

theorem classify_unspanned (name : String) : r.unspanned.classify name = r.classify name := rfl

mutual

theorem resolve_unspanned (ty : Source.Ty) : r.unspanned.resolve ty = r.resolve ty := by
  cases ty with
  | declared name args =>
    cases args with
    | nil => simp only [resolve, classify_unspanned]
    | cons arg rest =>
      simp only [resolve, classify_unspanned, resolve_unspanned arg, resolveAll_unspanned rest]
  | array component => simp only [resolve, resolve_unspanned component]
  | _ => rfl

/-- Types in a list are resolved without source text and places. -/
theorem resolveAll_unspanned (tys : List Source.Ty) :
    r.unspanned.resolveAll tys = r.resolveAll tys := by
  cases tys with
  | nil => rfl
  | cons ty rest => simp only [resolveAll, resolve_unspanned ty, resolveAll_unspanned rest]

end

theorem resolveArg_unspanned (ty : Source.Ty) : r.unspanned.resolveArg ty = r.resolveArg ty := by
  cases ty with
  | null => rfl
  | _ => simp only [resolveArg, resolve_unspanned]

theorem method_unspanned (id : SymbolId) : r.unspanned.method id = r.method id := rfl

theorem owner_unspanned (id : SymbolId) : r.unspanned.owner id = r.owner id := by
  simp only [owner, method_unspanned, resolve_unspanned]

theorem signature_unspanned (id : SymbolId) : r.unspanned.signature id = r.signature id := by
  simp only [signature, method_unspanned, resolve_unspanned, resolveAll_unspanned]

end Resolver

namespace Lowering

variable (r : Resolver)

theorem hasField_unspanned (name : String) : hasField r.unspanned name = hasField r name := by
  simp [hasField, Resolver.unspanned, Source.Program.unspanned, Source.ClassUnit.unspanned,
    Source.FieldDecl.unspanned, Function.comp_def]

theorem classReference_unspanned (name : String) :
    classReference r.unspanned name = classReference r name := rfl

theorem lookUp_unspanned (id : SymbolId) : lookUp r.unspanned id = lookUp r id := rfl

theorem unbound_unspanned (name : String) (id : SymbolId) :
    unbound r.unspanned name id = unbound r name id := by
  simp only [unbound, lookUp_unspanned, classReference_unspanned, Resolver.resolve_unspanned]

theorem testedClass_unspanned (id : SymbolId) :
    testedClass r.unspanned id = testedClass r id := rfl

theorem argTypes_unspanned (args : List Source.Arg) :
    argTypes r.unspanned (Source.Arg.unspannedAll args) = argTypes r args := by
  induction args with
  | nil => rfl
  | cons arg rest ih =>
    obtain ⟨expr, ty⟩ := arg
    simp only [Source.Arg.unspannedAll, argTypes, Resolver.resolveArg_unspanned, ih]

theorem bindParams_unspanned (params : List (SymbolId × Source.Ty)) :
    bindParams r.unspanned params = bindParams r params := by
  induction params with
  | nil => rfl
  | cons param rest ih => simp only [bindParams, Resolver.resolve_unspanned, ih]

end Lowering

namespace Source

/-- A loop that counts, without its places. -/
def RangedLoop.unspanned (loop : RangedLoop) : RangedLoop :=
  { loop with start := loop.start.unspanned, stop := loop.stop.unspanned }

/-- Whether a loop counts is not a matter of places. -/
theorem ranged?_unspanned (init : Stmt) (cond update : Expr) :
    ranged? init.unspanned cond.unspanned update.unspanned =
      (ranged? init cond update).map RangedLoop.unspanned := by
  -- every part that the shape of a loop that counts asks for is taken apart; any other
  -- constructor gives no such loop on either side
  cases init with
  | «local» decl =>
    obtain ⟨name, sym, ty, start, span⟩ := decl
    cases start with
    | none => rfl
    | some start =>
      cases cond with
      | binary op tested stop span =>
        cases op with
        | lessThan =>
          cases tested with
          | ident tested sym span =>
            cases update with
            | unary op stepped span =>
              cases op with
              | postfixIncrement =>
                cases stepped with
                | ident stepped sym span =>
                  simp only [Stmt.unspanned, VarDecl.unspanned, Expr.unspannedOption,
                    Expr.unspanned, ranged?, apply_ite (Option.map RangedLoop.unspanned)]
                  rfl
                | _ => rfl
              | _ => rfl
            | _ => rfl
          | _ => rfl
        | _ => rfl
      | _ => rfl
  | _ => rfl

end Source

end Polyscript
