import Polyscript.Proofs.Model.Nodes
import Polyscript.Proofs.Model.Rejection

/-!
# Nodes and what is rendered

A node of a part is the part itself or a node of one of the parts that are rendered for it, but
for two kinds of nodes that are hidden: the enclosing instance as the receiver of a call or of a
method reference, and the body of a callback whose branches are kept apart.

## Main statements

* `Part.mem_nodes`: where a node of a part is.
-/

namespace Polyscript.Model

/-- A part as a node. -/
def Part.node : Part → Node
  | .expr _ e => .expr e
  | .stmt s => .stmt s
  | .block b => .block b

/-- The nodes of a part, itself included. -/
def Part.nodes : Part → List Node
  | .expr _ e => e.nodes
  | .stmt s => s.nodes
  | .block b => b.nodes

/-- The nodes of a part below which nothing is rendered. -/
def Part.hidden : Part → List Node
  | .expr _ (.invocation receiver _) | .expr _ (.methodReference receiver _) =>
    if receiver.isThis then receiver.nodes else []
  | .expr _ (.asyncHandler handler) => if handler.isSplit then handler.body.nodes else []
  | _ => []

@[simp] theorem Part.nodes_expr (isStatement : Bool) (e : Expr) :
    (Part.expr isStatement e).nodes = e.nodes :=
  rfl

@[simp] theorem Part.nodes_stmt (s : Stmt) : (Part.stmt s).nodes = s.nodes := rfl

@[simp] theorem Part.nodes_block (b : Block) : (Part.block b).nodes = b.nodes := rfl

/-! ### Lists of nodes -/

theorem Expr.nodesAll_eq (es : List Expr) : Expr.nodesAll es = es.flatMap Expr.nodes := by
  induction es with
  | nil => rfl
  | cons e rest ih => rw [Expr.nodesAll, ih, List.flatMap_cons]

theorem Expr.nodesOption_eq (e : Option Expr) :
    Expr.nodesOption e = e.toList.flatMap Expr.nodes := by
  cases e <;> simp

theorem Stmt.nodesAll_eq (stmts : List Stmt) : Stmt.nodesAll stmts = stmts.flatMap Stmt.nodes := by
  induction stmts with
  | nil => rfl
  | cons s rest ih => rw [Stmt.nodesAll, ih, List.flatMap_cons]

theorem Stmt.nodesOption_eq (s : Option Stmt) :
    Stmt.nodesOption s = s.toList.flatMap Stmt.nodes := by
  cases s <;> simp

theorem Member.nodesAll_eq (members : List Member) :
    Member.nodesAll members = (members.flatMap Member.values).flatMap Expr.nodes := by
  induction members with
  | nil => rfl
  | cons member rest ih =>
    rw [Member.nodesAll, ih, List.flatMap_cons, List.flatMap_append]
    cases member <;> simp [Member.values, Expr.nodesAll_eq]

theorem Branch.nodesAll_eq (branches : List Branch) : Branch.nodesAll branches =
    (branches.flatMap fun branch => [Part.operand branch.cond, .stmt branch.body]).flatMap
      Part.nodes := by
  induction branches with
  | nil => rfl
  | cons branch rest ih =>
    obtain ⟨cond, body⟩ := branch
    simp [Branch.nodesAll, ih]

theorem LambdaBody.nodes_part (isStatement : Bool) (body : LambdaBody) :
    (body.part isStatement).nodes = body.nodes := by
  cases body <;> rfl

theorem flatMap_operand (es : List Expr) :
    (es.map Part.operand).flatMap Part.nodes = es.flatMap Expr.nodes := by
  rw [List.flatMap_map]
  rfl

theorem flatMap_stmt (stmts : List Stmt) :
    (stmts.map Part.stmt).flatMap Part.nodes = stmts.flatMap Stmt.nodes := by
  rw [List.flatMap_map]
  rfl

/-! ### One step -/

theorem Access.nodes_eq (access : Access) :
    access.nodes = access.parts.flatMap Part.nodes := by
  cases access <;> simp [Access.parts, LambdaBody.nodes_part]

theorem Expr.nodes_receiver (receiver : Expr) :
    receiver.nodes = (if receiver.isThis then receiver.nodes else []) ++
      receiver.receiverParts.flatMap Part.nodes := by
  unfold Expr.receiverParts
  split <;> simp

theorem AsyncHandler.nodes_eq (handler : AsyncHandler) :
    handler.nodes = (if handler.isSplit then handler.body.nodes else []) ++
      handler.parts.flatMap Part.nodes := by
  obtain ⟨name, paramType, resultType, body, succeeded, failed⟩ := handler
  cases succeeded <;> cases failed <;>
    simp [AsyncHandler.parts, AsyncHandler.isSplit, LambdaBody.nodes_part]

theorem Expr.nodes_eq (isStatement : Bool) (e : Expr) :
    e.nodes = .expr e :: ((Part.expr isStatement e).hidden ++ e.parts.flatMap Part.nodes) := by
  cases e with
  | concat es | jsonArray es | list es | construct _ es =>
    simp [Part.hidden, Expr.parts, Expr.nodesAll_eq, flatMap_operand]
  | jsonObject members | dataObject _ members =>
    simp [Part.hidden, Expr.parts, Member.nodesAll_eq, flatMap_operand]
  | throwable type reason =>
    simp [Part.hidden, Expr.parts, Expr.nodesOption_eq, flatMap_operand]
  | invocation receiver site =>
    obtain ⟨receiverType, method, returnType, args, argTypes⟩ := site
    rw [Expr.nodes, CallSite.nodes, receiver.nodes_receiver]
    simp [Part.hidden, Expr.parts, Expr.nodesAll_eq, flatMap_operand]
  | methodReference receiver method =>
    rw [Expr.nodes, receiver.nodes_receiver]
    simp [Part.hidden, Expr.parts]
  | lambda function =>
    obtain ⟨paramNames, paramTypes, body⟩ := function
    simp [Part.hidden, Expr.parts, LambdaBody.nodes_part]
  | asyncHandler handler =>
    rw [Expr.nodes, handler.nodes_eq]
    rfl
  | access operation => simp [Part.hidden, Expr.parts, operation.nodes_eq]
  | _ => simp [Part.hidden, Expr.parts]

theorem Stmt.nodes_eq (s : Stmt) : s.nodes = .stmt s :: s.parts.flatMap Part.nodes := by
  cases s with
  | «return» value | varDecl _ _ _ value | throw _ value =>
    simp [Stmt.parts, Expr.nodesOption_eq, flatMap_operand]
  | conditionals branches otherwise =>
    simp [Stmt.parts, Branch.nodesAll_eq, Stmt.nodesOption_eq, flatMap_stmt]
  | _ => simp [Stmt.parts]

/-- The nodes of a part are the part itself, the nodes that are hidden in it, and the nodes of
its parts. -/
theorem Part.nodes_eq (p : Part) :
    p.nodes = p.node :: (p.hidden ++ p.parts.flatMap Part.nodes) := by
  cases p with
  | expr isStatement e => exact e.nodes_eq isStatement
  | stmt s => exact s.nodes_eq
  | block b =>
    obtain ⟨stmts, fragments⟩ := b
    simp [Part.node, Part.hidden, Part.parts, Stmt.nodesAll_eq, flatMap_stmt]

theorem Part.mem_nodes {p : Part} {node : Node} :
    node ∈ p.nodes ↔ node = p.node ∨ node ∈ p.hidden ∨ ∃ q ∈ p.parts, node ∈ q.nodes := by
  rw [nodes_eq, List.mem_cons, List.mem_append, List.mem_flatMap]

/-- What is rendered for a part is a node of it. -/
theorem Part.mem_nodes_of_renders {p q : Part} (renders : p.Renders q) : q.node ∈ p.nodes := by
  induction renders using Relation.ReflTransGen.head_induction_on with
  | refl => exact mem_nodes.2 (.inl rfl)
  | head isPart _ ih => exact mem_nodes.2 (.inr (.inr ⟨_, isPart, ih⟩))

/-! ### Programs -/

theorem Unit.nodes_parts (unit : Unit) :
    unit.parts.flatMap Part.nodes = unit.fields.flatMap Field.nodes ++
      (unit.methods.flatMap Method.nodes ++
        if unit.entry.stmts.isEmpty then [] else unit.entry.nodes) := by
  have fields : (unit.fields.flatMap (·.init.toList.map Part.operand)).flatMap Part.nodes =
      unit.fields.flatMap Field.nodes := by
    rw [List.flatMap_assoc]
    refine List.flatMap_congr fun field _ => ?_
    rw [flatMap_operand, Field.nodes, Expr.nodesOption_eq]
  have methods : (unit.methods.map fun method => Part.block method.body).flatMap Part.nodes =
      unit.methods.flatMap Method.nodes := by
    rw [List.flatMap_map]
    rfl
  rw [Unit.parts, List.flatMap_append, List.flatMap_append, fields, methods]
  split <;> simp

/-- The nodes of a program are the nodes of its parts, and an entry method without statements. -/
theorem Unit.mem_nodes {unit : Unit} {node : Node} : node ∈ unit.nodes ↔
    (∃ p ∈ unit.parts, node ∈ p.nodes) ∨ (unit.entry.stmts = [] ∧ node = .block unit.entry) := by
  rw [← List.mem_flatMap, unit.nodes_parts, Unit.nodes]
  obtain ⟨stmts, fragments⟩ := unit.entry
  cases stmts with
  | nil => simp [or_assoc]
  | cons s rest => simp

end Polyscript.Model
