import Polyscript.Model.Basic
import Polyscript.Source.Program

/-!
# Nodes of source trees

The expressions and statements that occur in a tree at any depth, and the variables
that a node declares. A statement about "everything inside" a tree is a statement
about its nodes.
-/

namespace Polyscript.Source

open Model (Scope)

/-- An expression or a statement of a tree. -/
inductive Node where
  | expr (expr : Expr)
  | stmt (stmt : Stmt)

mutual

/-- The nodes of an expression, itself included. -/
def Expr.nodes : Expr → List Node
  | .ident name sym span => [.expr (.ident name sym span)]
  | .literal value span => [.expr (.literal value span)]
  | .binary op lhs rhs span => .expr (.binary op lhs rhs span) :: (lhs.nodes ++ rhs.nodes)
  | .unary op operand span => .expr (.unary op operand span) :: operand.nodes
  | .assign target value span => .expr (.assign target value span) :: (target.nodes ++ value.nodes)
  | .compoundAssign op target value span =>
    .expr (.compoundAssign op target value span) :: (target.nodes ++ value.nodes)
  | .conditional cond yes no span =>
    .expr (.conditional cond yes no span) :: (cond.nodes ++ (yes.nodes ++ no.nodes))
  | .parens inner span => .expr (.parens inner span) :: inner.nodes
  | .select target name ty span => .expr (.select target name ty span) :: target.nodes
  | .call callee method args ty span =>
    .expr (.call callee method args ty span) :: (callee.nodes ++ Arg.nodesAll args)
  | .construct cls args span =>
    .expr (.construct cls args span) :: (cls.nodes ++ Expr.nodesAll args)
  | .instanceOf expr cls span => .expr (.instanceOf expr cls span) :: expr.nodes
  | .lambda params body span => .expr (.lambda params body span) :: body.nodes
  | .methodRef qualifier name mode method span =>
    .expr (.methodRef qualifier name mode method span) :: qualifier.nodes
  | .typeApply base args span => .expr (.typeApply base args span) :: base.nodes

/-- The nodes of expressions. -/
def Expr.nodesAll : List Expr → List Node
  | [] => []
  | expr :: rest => expr.nodes ++ Expr.nodesAll rest

/-- The nodes of an expression that may be missing. -/
def Expr.nodesOption : Option Expr → List Node
  | none => []
  | some expr => expr.nodes

/-- The nodes of a receiver. -/
def Callee.nodes : Callee → List Node
  | .unqualified _ => []
  | .member target _ => target.nodes

/-- The nodes of arguments. -/
def Arg.nodesAll : List Arg → List Node
  | [] => []
  | ⟨expr, _⟩ :: rest => expr.nodes ++ Arg.nodesAll rest

/-- The nodes of a lambda's body. -/
def LambdaBody.nodes : LambdaBody → List Node
  | .expr body => body.nodes
  | .block body => body.nodes

/-- The nodes of a block. -/
def Block.nodes : Block → List Node
  | ⟨stmts, _⟩ => Stmt.nodesAll stmts

/-- The nodes of a variable's initial value. -/
def VarDecl.nodes : VarDecl → List Node
  | ⟨_, _, _, init, _⟩ => Expr.nodesOption init

/-- The nodes of catch clauses. -/
def CatchClause.nodesAll : List CatchClause → List Node
  | [] => []
  | ⟨param, body⟩ :: rest => param.nodes ++ (body.nodes ++ CatchClause.nodesAll rest)

/-- The nodes of a statement, itself included. -/
def Stmt.nodes : Stmt → List Node
  | .block block => .stmt (.block block) :: block.nodes
  | .local decl => .stmt (.local decl) :: decl.nodes
  | .expr expr span => .stmt (.expr expr span) :: expr.nodes
  | .conditional cond yes no span =>
    .stmt (.conditional cond yes no span) :: (cond.nodes ++ (yes.nodes ++ Stmt.nodesOption no))
  | .loop init cond update body span =>
    .stmt (.loop init cond update body span) ::
      (Stmt.nodesAll init ++ (Expr.nodesOption cond ++ (Expr.nodesAll update ++ body.nodes)))
  | .forEach var iterable body span =>
    .stmt (.forEach var iterable body span) :: (var.nodes ++ (iterable.nodes ++ body.nodes))
  | .whileLoop cond body span => .stmt (.whileLoop cond body span) :: (cond.nodes ++ body.nodes)
  | .tryCatch body catches cleanup span =>
    .stmt (.tryCatch body catches cleanup span) ::
      (body.nodes ++ (CatchClause.nodesAll catches ++ Block.nodesOption cleanup))
  | .throw expr span => .stmt (.throw expr span) :: expr.nodes
  | .return expr span => .stmt (.return expr span) :: Expr.nodesOption expr
  | .break span => [.stmt (.break span)]
  | .continue span => [.stmt (.continue span)]

/-- The nodes of statements. -/
def Stmt.nodesAll : List Stmt → List Node
  | [] => []
  | stmt :: rest => stmt.nodes ++ Stmt.nodesAll rest

/-- The nodes of a statement that may be missing. -/
def Stmt.nodesOption : Option Stmt → List Node
  | none => []
  | some stmt => stmt.nodes

/-- The nodes of a block that may be missing. -/
def Block.nodesOption : Option Block → List Node
  | none => []
  | some block => block.nodes

end

/-- The nodes of a field's initial value. -/
def FieldDecl.nodes (decl : FieldDecl) : List Node := Expr.nodesOption decl.init

/-- The nodes of a method's body. -/
def MethodDecl.nodes (decl : MethodDecl) : List Node := decl.body.nodes

/-- The nodes of all declarations of a class. -/
def ClassUnit.nodes (unit : ClassUnit) : List Node :=
  unit.fields.flatMap FieldDecl.nodes ++ unit.methods.flatMap MethodDecl.nodes

/-- The nodes of the tree at a node. -/
def Node.nodes : Node → List Node
  | .expr e => e.nodes
  | .stmt s => s.nodes

/-- The nodes below a node. -/
def Node.below (node : Node) : List Node := node.nodes.tail

theorem Node.nodes_eq_cons (node : Node) : node.nodes = node :: node.below := by
  cases node with
  | expr e => cases e <;> simp [Node.below, Node.nodes, Expr.nodes]
  | stmt s => cases s <;> simp [Node.below, Node.nodes, Stmt.nodes]

theorem Expr.mem_nodes (e : Expr) : .expr e ∈ e.nodes := by
  change _ ∈ (Node.expr e).nodes
  rw [Node.nodes_eq_cons]
  exact List.mem_cons_self

theorem Stmt.mem_nodes (s : Stmt) : .stmt s ∈ s.nodes := by
  change _ ∈ (Node.stmt s).nodes
  rw [Node.nodes_eq_cons]
  exact List.mem_cons_self

section Induction

variable {F C : Node → Prop}

/-- Whether one property of nodes follows for a node that has another one as soon as it holds of
every node below. -/
abbrev Node.Ascends (F C : Node → Prop) : Prop :=
  ∀ node, F node → (∀ part ∈ node.below, C part) → C node

private theorem Node.forall_of_below (step : Ascends F C) {node : Node} (fits : F node)
    (below : ∀ part ∈ node.below, C part) : ∀ part ∈ node.nodes, C part := by
  rw [node.nodes_eq_cons]
  exact List.forall_mem_cons.2 ⟨step node fits below, below⟩

mutual

/-- Induction over a tree: what holds of a node as soon as it holds of every node below
holds of every node of a tree. The nodes may be assumed to be as the tree's nodes are. -/
theorem Expr.forall_nodes (step : Node.Ascends F C) :
    ∀ e : Expr, (∀ node ∈ e.nodes, F node) → ∀ node ∈ e.nodes, C node
  | .ident name sym span, fits =>
    Node.forall_of_below step (fits _ (List.mem_singleton_self _)) (List.forall_mem_nil _)
  | .literal value span, fits =>
    Node.forall_of_below step (fits _ (List.mem_singleton_self _)) (List.forall_mem_nil _)
  | .binary op lhs rhs span, fits => by
    simp only [Expr.nodes, List.forall_mem_cons, List.forall_mem_append] at fits
    exact Node.forall_of_below step fits.1 (List.forall_mem_append.2
      ⟨lhs.forall_nodes step fits.2.1, rhs.forall_nodes step fits.2.2⟩)
  | .unary op operand span, fits => by
    simp only [Expr.nodes, List.forall_mem_cons] at fits
    exact Node.forall_of_below step fits.1 (operand.forall_nodes step fits.2)
  | .assign target value span, fits => by
    simp only [Expr.nodes, List.forall_mem_cons, List.forall_mem_append] at fits
    exact Node.forall_of_below step fits.1 (List.forall_mem_append.2
      ⟨target.forall_nodes step fits.2.1, value.forall_nodes step fits.2.2⟩)
  | .compoundAssign op target value span, fits => by
    simp only [Expr.nodes, List.forall_mem_cons, List.forall_mem_append] at fits
    exact Node.forall_of_below step fits.1 (List.forall_mem_append.2
      ⟨target.forall_nodes step fits.2.1, value.forall_nodes step fits.2.2⟩)
  | .conditional cond yes no span, fits => by
    simp only [Expr.nodes, List.forall_mem_cons, List.forall_mem_append] at fits
    exact Node.forall_of_below step fits.1 (List.forall_mem_append.2
      ⟨cond.forall_nodes step fits.2.1, List.forall_mem_append.2
        ⟨yes.forall_nodes step fits.2.2.1, no.forall_nodes step fits.2.2.2⟩⟩)
  | .parens inner span, fits => by
    simp only [Expr.nodes, List.forall_mem_cons] at fits
    exact Node.forall_of_below step fits.1 (inner.forall_nodes step fits.2)
  | .select target name ty span, fits => by
    simp only [Expr.nodes, List.forall_mem_cons] at fits
    exact Node.forall_of_below step fits.1 (target.forall_nodes step fits.2)
  | .call callee method args ty span, fits => by
    simp only [Expr.nodes, List.forall_mem_cons, List.forall_mem_append] at fits
    exact Node.forall_of_below step fits.1 (List.forall_mem_append.2
      ⟨callee.forall_nodes step fits.2.1, Arg.forall_nodesAll step args fits.2.2⟩)
  | .construct cls args span, fits => by
    simp only [Expr.nodes, List.forall_mem_cons, List.forall_mem_append] at fits
    exact Node.forall_of_below step fits.1 (List.forall_mem_append.2
      ⟨cls.forall_nodes step fits.2.1, Expr.forall_nodesAll step args fits.2.2⟩)
  | .instanceOf e cls span, fits => by
    simp only [Expr.nodes, List.forall_mem_cons] at fits
    exact Node.forall_of_below step fits.1 (e.forall_nodes step fits.2)
  | .lambda params body span, fits => by
    simp only [Expr.nodes, List.forall_mem_cons] at fits
    exact Node.forall_of_below step fits.1 (body.forall_nodes step fits.2)
  | .methodRef qualifier name mode method span, fits => by
    simp only [Expr.nodes, List.forall_mem_cons] at fits
    exact Node.forall_of_below step fits.1 (qualifier.forall_nodes step fits.2)
  | .typeApply base args span, fits => by
    simp only [Expr.nodes, List.forall_mem_cons] at fits
    exact Node.forall_of_below step fits.1 (base.forall_nodes step fits.2)

theorem Expr.forall_nodesAll (step : Node.Ascends F C) : ∀ es : List Expr,
    (∀ node ∈ Expr.nodesAll es, F node) → ∀ node ∈ Expr.nodesAll es, C node
  | [], _ => List.forall_mem_nil _
  | e :: rest, fits => by
    simp only [Expr.nodesAll, List.forall_mem_append] at fits ⊢
    exact ⟨e.forall_nodes step fits.1, Expr.forall_nodesAll step rest fits.2⟩

theorem Expr.forall_nodesOption (step : Node.Ascends F C) : ∀ e : Option Expr,
    (∀ node ∈ Expr.nodesOption e, F node) → ∀ node ∈ Expr.nodesOption e, C node
  | none, _ => List.forall_mem_nil _
  | some e, fits => e.forall_nodes step fits

theorem Callee.forall_nodes (step : Node.Ascends F C) : ∀ callee : Callee,
    (∀ node ∈ callee.nodes, F node) → ∀ node ∈ callee.nodes, C node
  | .unqualified _, _ => List.forall_mem_nil _
  | .member target _, fits => target.forall_nodes step fits

theorem Arg.forall_nodesAll (step : Node.Ascends F C) : ∀ args : List Arg,
    (∀ node ∈ Arg.nodesAll args, F node) → ∀ node ∈ Arg.nodesAll args, C node
  | [], _ => List.forall_mem_nil _
  | ⟨e, _⟩ :: rest, fits => by
    simp only [Arg.nodesAll, List.forall_mem_append] at fits ⊢
    exact ⟨e.forall_nodes step fits.1, Arg.forall_nodesAll step rest fits.2⟩

theorem LambdaBody.forall_nodes (step : Node.Ascends F C) : ∀ body : LambdaBody,
    (∀ node ∈ body.nodes, F node) → ∀ node ∈ body.nodes, C node
  | .expr body, fits => body.forall_nodes step fits
  | .block body, fits => body.forall_nodes step fits

theorem Block.forall_nodes (step : Node.Ascends F C) : ∀ block : Block,
    (∀ node ∈ block.nodes, F node) → ∀ node ∈ block.nodes, C node
  | ⟨stmts, _⟩, fits => Stmt.forall_nodesAll step stmts fits

theorem VarDecl.forall_nodes (step : Node.Ascends F C) : ∀ decl : VarDecl,
    (∀ node ∈ decl.nodes, F node) → ∀ node ∈ decl.nodes, C node
  | ⟨_, _, _, init, _⟩, fits => Expr.forall_nodesOption step init fits

theorem CatchClause.forall_nodesAll (step : Node.Ascends F C) : ∀ catches : List CatchClause,
    (∀ node ∈ CatchClause.nodesAll catches, F node) →
      ∀ node ∈ CatchClause.nodesAll catches, C node
  | [], _ => List.forall_mem_nil _
  | ⟨param, body⟩ :: rest, fits => by
    simp only [CatchClause.nodesAll, List.forall_mem_append] at fits ⊢
    exact ⟨param.forall_nodes step fits.1, body.forall_nodes step fits.2.1,
      CatchClause.forall_nodesAll step rest fits.2.2⟩

theorem Stmt.forall_nodes (step : Node.Ascends F C) :
    ∀ s : Stmt, (∀ node ∈ s.nodes, F node) → ∀ node ∈ s.nodes, C node
  | .block block, fits => by
    simp only [Stmt.nodes, List.forall_mem_cons] at fits
    exact Node.forall_of_below step fits.1 (block.forall_nodes step fits.2)
  | .local decl, fits => by
    simp only [Stmt.nodes, List.forall_mem_cons] at fits
    exact Node.forall_of_below step fits.1 (decl.forall_nodes step fits.2)
  | .expr e span, fits => by
    simp only [Stmt.nodes, List.forall_mem_cons] at fits
    exact Node.forall_of_below step fits.1 (e.forall_nodes step fits.2)
  | .conditional cond yes no span, fits => by
    simp only [Stmt.nodes, List.forall_mem_cons, List.forall_mem_append] at fits
    exact Node.forall_of_below step fits.1 (List.forall_mem_append.2
      ⟨cond.forall_nodes step fits.2.1, List.forall_mem_append.2
        ⟨yes.forall_nodes step fits.2.2.1, Stmt.forall_nodesOption step no fits.2.2.2⟩⟩)
  | .loop init cond update body span, fits => by
    simp only [Stmt.nodes, List.forall_mem_cons, List.forall_mem_append] at fits
    exact Node.forall_of_below step fits.1 (List.forall_mem_append.2
      ⟨Stmt.forall_nodesAll step init fits.2.1, List.forall_mem_append.2
        ⟨Expr.forall_nodesOption step cond fits.2.2.1, List.forall_mem_append.2
          ⟨Expr.forall_nodesAll step update fits.2.2.2.1, body.forall_nodes step fits.2.2.2.2⟩⟩⟩)
  | .forEach var iterable body span, fits => by
    simp only [Stmt.nodes, List.forall_mem_cons, List.forall_mem_append] at fits
    exact Node.forall_of_below step fits.1 (List.forall_mem_append.2
      ⟨var.forall_nodes step fits.2.1, List.forall_mem_append.2
        ⟨iterable.forall_nodes step fits.2.2.1, body.forall_nodes step fits.2.2.2⟩⟩)
  | .whileLoop cond body span, fits => by
    simp only [Stmt.nodes, List.forall_mem_cons, List.forall_mem_append] at fits
    exact Node.forall_of_below step fits.1 (List.forall_mem_append.2
      ⟨cond.forall_nodes step fits.2.1, body.forall_nodes step fits.2.2⟩)
  | .tryCatch body catches cleanup span, fits => by
    simp only [Stmt.nodes, List.forall_mem_cons, List.forall_mem_append] at fits
    exact Node.forall_of_below step fits.1 (List.forall_mem_append.2
      ⟨body.forall_nodes step fits.2.1, List.forall_mem_append.2
        ⟨CatchClause.forall_nodesAll step catches fits.2.2.1,
          Block.forall_nodesOption step cleanup fits.2.2.2⟩⟩)
  | .throw e span, fits => by
    simp only [Stmt.nodes, List.forall_mem_cons] at fits
    exact Node.forall_of_below step fits.1 (e.forall_nodes step fits.2)
  | .return e span, fits => by
    simp only [Stmt.nodes, List.forall_mem_cons] at fits
    exact Node.forall_of_below step fits.1 (Expr.forall_nodesOption step e fits.2)
  | .break span, fits =>
    Node.forall_of_below step (fits _ (List.mem_singleton_self _)) (List.forall_mem_nil _)
  | .continue span, fits =>
    Node.forall_of_below step (fits _ (List.mem_singleton_self _)) (List.forall_mem_nil _)

theorem Stmt.forall_nodesAll (step : Node.Ascends F C) : ∀ stmts : List Stmt,
    (∀ node ∈ Stmt.nodesAll stmts, F node) → ∀ node ∈ Stmt.nodesAll stmts, C node
  | [], _ => List.forall_mem_nil _
  | s :: rest, fits => by
    simp only [Stmt.nodesAll, List.forall_mem_append] at fits ⊢
    exact ⟨s.forall_nodes step fits.1, Stmt.forall_nodesAll step rest fits.2⟩

theorem Stmt.forall_nodesOption (step : Node.Ascends F C) : ∀ s : Option Stmt,
    (∀ node ∈ Stmt.nodesOption s, F node) → ∀ node ∈ Stmt.nodesOption s, C node
  | none, _ => List.forall_mem_nil _
  | some s, fits => s.forall_nodes step fits

theorem Block.forall_nodesOption (step : Node.Ascends F C) : ∀ block : Option Block,
    (∀ node ∈ Block.nodesOption block, F node) → ∀ node ∈ Block.nodesOption block, C node
  | none, _ => List.forall_mem_nil _
  | some block, fits => block.forall_nodes step fits

end

end Induction

/-- A variable with the scope and the type that its declaration gives to it. -/
structure Binder where
  sym : SymbolId
  scope : Scope
  ty : Ty

/-- The binder of a local, for-each or catch variable. -/
def VarDecl.binder (decl : VarDecl) : Binder := ⟨decl.sym, .variable, decl.ty⟩

/-- The binder of a lambda's parameter. -/
def LambdaParam.binder (param : LambdaParam) : Binder := ⟨param.sym, .parameter, param.ty⟩

/-- The binder of a method's parameter. -/
def Param.binder (param : Param) : Binder := ⟨param.sym, .parameter, param.ty⟩

/-- The binder of a field. -/
def FieldDecl.binder (decl : FieldDecl) : Binder := ⟨decl.sym, .field, decl.ty⟩

/-- The variables that a node declares by itself. -/
def Node.binders : Node → List Binder
  | .expr (.lambda params _ _) => params.map LambdaParam.binder
  | .stmt (.local decl) => [decl.binder]
  | .stmt (.forEach var _ _ _) => [var.binder]
  | .stmt (.tryCatch _ catches _ _) => catches.map fun clause => clause.param.binder
  | _ => []

end Polyscript.Source
