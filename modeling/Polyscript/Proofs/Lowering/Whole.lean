import Polyscript.Proofs.Lowering.Callback
import Polyscript.Proofs.Lowering.Defined
import Polyscript.Proofs.Model.Comments
import Polyscript.Proofs.Model.Rendered
import Polyscript.Proofs.Model.Written

/-!
# Nodes of compiled programs

The nodes of a compiled program have every property that nodes get as they are made: the
fragments of a block fit its statements, and a callback keeps apart the branches of its body if
the body is a check of the result. So there is little in a compiled program that is not
rendered: the enclosing instance, an entry method without statements, and the bodies of
callbacks whose branches are kept apart, without the branches.

## Main statements

* `Source.Program.every_node`: the nodes of a compiled program have what nodes get.
* `Source.Program.node_rendered`: which nodes of a compiled program are rendered.
* `Source.Program.block_rendered`: the same for blocks.
-/

namespace Polyscript

open Model (Node Part Every)
open Lowering

/-- The nodes of a compiled program have every property that nodes get as they are made. -/
theorem Source.Program.every_node {P : Model.Node → Prop} [Makes (fun _ => True) P]
    {config : Config} {program : Program} {unit : Model.Unit}
    (ok : program.lower config = .ok unit) : Every P unit.nodes := by
  obtain ⟨run, ordered, reordered, _, _, isUnit⟩ := exists_run config program ok
  -- nothing is asked of the uses that are noted, so they need not be looked at
  have own (node : Source.Node) : NotesOwn (fun _ => True) (program.resolver config) node :=
    fun _ _ _ _ _ => trivial
  rw [isUnit]
  exact run.every_nodes reordered (fun node _ => own node) (fun _ _ node _ => own node)
    ⟨fun _ _ => trivial, fun _ _ => trivial⟩ program.unit.name

/-- What every block and every callback is once it is lowered: the fragments of a block fit its
statements, and a callback keeps apart the branches of its body. -/
def Model.Node.IsWhole : Node → Prop
  | .block b => b.IsFitting
  | .expr (.asyncHandler handler) =>
    handler = handlerOf handler.name handler.paramType handler.resultType handler.body
  | _ => True

theorem Model.Node.isWhole_of_isMade {e : Expr} (isMade : e.isMade) : (Node.expr e).IsWhole := by
  cases e with
  | asyncHandler handler => cases isMade
  | _ => trivial

instance : Makes (fun _ => True) Node.IsWhole where
  admits _ isMade := Node.isWhole_of_isMade isMade
  grown grows _ := by cases grows <;> trivial
  used node _ isUse _ := by
    cases node with
    | block b => cases isUse
    | stmt s => trivial
    | expr e =>
      cases e with
      | asyncHandler handler => cases isUse
      | _ => trivial
  handler _ _ _ _ := rfl
  stmt _ := trivial
  block _ fitting := fitting
  external _ := trivial

/-! ### Blocks that are not rendered -/

namespace Model

/-- Whether a node is of a check of a result: the check itself, parentheses or a kind. -/
def Node.IsOfCheck (name : String) : Node → Prop
  | .expr (.asyncCall checked _ op) => checked = name ∧ op ≠ .result
  | .expr (.parenthesized _) | .expr (.typed ..) => True
  | _ => False

/-- A check of a result consists of nothing but the check, parentheses and kinds. -/
theorem Expr.isOfCheck_of_mem {cond : Expr} {name : String} {type : TypeInfo} {op : AsyncOp}
    (isCheck : cond.stripParens.untyped = .asyncCall name type op) (asks : op ≠ .result)
    {node : Node} (mem : node ∈ cond.nodes) : node.IsOfCheck name := by
  have inKinds (e : Expr) (isCheck : e.untyped = .asyncCall name type op)
      (mem : node ∈ e.nodes) : node.IsOfCheck name := by
    fun_induction Expr.untyped e with
    | case1 value kind ih =>
      rcases List.mem_cons.1 mem with rfl | mem
      · trivial
      · exact ih isCheck mem
    | case2 e =>
      rw [isCheck] at mem
      obtain rfl := List.mem_singleton.1 mem
      exact ⟨rfl, asks⟩
  fun_induction Expr.stripParens cond with
  | case1 inner ih =>
    rcases List.mem_cons.1 mem with rfl | mem
    · trivial
    · exact ih isCheck mem
  | case2 e => exact inKinds e isCheck mem

/-- The nodes of the body of a callback whose branches are kept apart that are of none of them:
the body, the test in it, and what is tested. -/
def Node.IsOfBody (handler : AsyncHandler) : Node → Prop
  | .block b => handler.body = .block b
  | .stmt (.conditionals ..) => True
  | node => node.IsOfCheck handler.name

/-- A node of the body of a callback whose branches are kept apart is in one of the branches or
in none of them. -/
theorem AsyncHandler.mem_body {name : String} {type result : TypeInfo} {body : LambdaBody}
    (isSplit : (handlerOf name type result body).isSplit) {node : Node}
    (mem : node ∈ body.nodes) :
    node.IsOfBody (handlerOf name type result body) ∨
      ∃ q ∈ (handlerOf name type result body).parts, node ∈ q.nodes := by
  obtain ⟨cond, branch, otherwise, fragments, _, op, rfl, isCheck, which⟩ :=
    handlerOf_isSplit.1 isSplit
  have parts : ∀ s, s = branch ∨ some s = otherwise →
      .stmt s ∈ (handlerOf name type result
        (.block ⟨[.conditionals [⟨cond, branch⟩] otherwise], fragments⟩)).parts := by
    intro s kept
    rw [AsyncHandler.parts, if_pos isSplit, handlerOf, split_check isCheck]
    rcases which with rfl | rfl <;> rcases kept with rfl | rfl <;> simp
  simp only [LambdaBody.nodes, Block.nodes, Stmt.nodesAll, Stmt.nodes, Branch.nodesAll,
    List.mem_cons, List.mem_append, List.not_mem_nil, or_false] at mem
  rcases mem with rfl | rfl | (inCheck | inBranch) | inOther
  · exact .inl rfl
  · exact .inl trivial
  · have asks : op ≠ .result := by rcases which with rfl | rfl <;> simp
    have ofCheck := Expr.isOfCheck_of_mem isCheck asks inCheck
    cases node with
    | expr e => exact .inl ofCheck
    | _ => cases ofCheck
  · exact .inr ⟨_, parts branch (.inl rfl), inBranch⟩
  · cases otherwise with
    | none => cases inOther
    | some s => exact .inr ⟨_, parts s (.inr rfl), inOther⟩

/-- What is not rendered for a part itself is the enclosing instance or in the body of a callback
whose branches are kept apart. There it may still be in one of the branches. -/
theorem Part.of_hidden {p : Part} (whole : Every Node.IsWhole p.nodes) {node : Node}
    (hidden : node ∈ p.hidden) :
    node = .expr .this ∨ (∃ q ∈ p.parts, node ∈ q.nodes) ∨
      ∃ handler, .expr (.asyncHandler handler) ∈ p.nodes ∧ handler.isSplit ∧
        node.IsOfBody handler := by
  cases p with
  | block | stmt => cases hidden
  | expr isStatement e =>
    cases e with
    | asyncHandler handler =>
      have isHandler : handler = handlerOf handler.name handler.paramType handler.resultType
          handler.body :=
        whole _ (mem_nodes.2 (.inl rfl))
      simp only [Part.hidden] at hidden
      split at hidden
      next isSplit =>
        -- the lemma on bodies is about callbacks in the form that they are built in
        rw [isHandler] at isSplit
        rcases AsyncHandler.mem_body isSplit hidden with ofBody | inBranch
        · rw [← isHandler] at isSplit ofBody
          exact .inr (.inr ⟨handler, mem_nodes.2 (.inl rfl), isSplit, ofBody⟩)
        · rw [← isHandler] at inBranch
          exact .inr (.inl inBranch)
      next => cases hidden
    | invocation receiver site | methodReference receiver method =>
      simp only [Part.hidden] at hidden
      split at hidden
      next isThis =>
        cases receiver with
        | this => exact .inl (List.mem_singleton.1 hidden)
        | _ => cases isThis
      next => cases hidden
    | _ => cases hidden

/-- A node of a part is rendered for it, unless it is the enclosing instance or in the body of a
callback whose branches are kept apart, but in none of them. -/
theorem Part.renders_node {p : Part} (whole : Every Node.IsWhole p.nodes) {node : Node}
    (mem : node ∈ p.nodes) :
    (∃ q, q.node = node ∧ p.Renders q) ∨ node = .expr .this ∨
      ∃ handler, .expr (.asyncHandler handler) ∈ p.nodes ∧ handler.isSplit ∧
        node.IsOfBody handler := by
  induction p using Part.induction with
  | step p ih =>
    have inPart : (∃ q ∈ p.parts, node ∈ q.nodes) →
        (∃ q, q.node = node ∧ p.Renders q) ∨ node = .expr .this ∨
          ∃ handler, .expr (.asyncHandler handler) ∈ p.nodes ∧ handler.isSplit ∧
            node.IsOfBody handler := by
      rintro ⟨q, isPart, mem⟩
      have below (node : Node) (mem : node ∈ q.nodes) : node ∈ p.nodes :=
        mem_nodes.2 (.inr (.inr ⟨q, isPart, mem⟩))
      rcases ih q isPart (fun node mem => whole node (below node mem)) mem with
        ⟨r, isNode, renders⟩ | isThis | ⟨handler, isNode, ofBody⟩
      · exact .inl ⟨r, isNode, .head isPart renders⟩
      · exact .inr (.inl isThis)
      · exact .inr (.inr ⟨handler, below _ isNode, ofBody⟩)
    rcases mem_nodes.1 mem with isPart | hidden | inner
    · exact .inl ⟨p, isPart.symm, .refl⟩
    · rcases Part.of_hidden whole hidden with isThis | inner | ofBody
      · exact .inr (.inl isThis)
      · exact inPart inner
      · exact .inr (.inr ofBody)
    · exact inPart inner

end Model

variable {config : Config} {program : Source.Program} {unit : Model.Unit}

/-- A node of a compiled program is rendered, unless it is the enclosing instance, an entry
method without statements, or in the body of a callback whose branches are kept apart, but in
none of them. -/
theorem Source.Program.node_rendered (lowers : program.lower config = .ok unit)
    {node : Model.Node} (mem : node ∈ unit.nodes) :
    (∃ q, q.node = node ∧ unit.Renders q) ∨ node = .expr .this ∨
      (unit.entry.stmts = [] ∧ node = .block unit.entry) ∨
      ∃ handler, .expr (.asyncHandler handler) ∈ unit.nodes ∧ handler.isSplit ∧
        node.IsOfBody handler := by
  have whole : Every Model.Node.IsWhole unit.nodes := every_node lowers
  rcases Model.Unit.mem_nodes.1 mem with ⟨p, isPart, mem⟩ | isEntry
  · have below (node : Model.Node) (mem : node ∈ p.nodes) : node ∈ unit.nodes :=
      Model.Unit.mem_nodes.2 (.inl ⟨p, isPart, mem⟩)
    rcases Part.renders_node (fun node mem => whole node (below node mem)) mem with
      ⟨q, isNode, renders⟩ | isThis | ⟨handler, isNode, ofBody⟩
    · exact .inl ⟨q, isNode, p, isPart, renders⟩
    · exact .inr (.inl isThis)
    · exact .inr (.inr (.inr ⟨handler, below _ isNode, ofBody⟩))
  · exact .inr (.inr (.inl isEntry))

/-- A block of a compiled program is rendered, unless it is an entry method without statements
or the body of a callback whose branches are kept apart. -/
theorem Source.Program.block_rendered (lowers : program.lower config = .ok unit) {b : Model.Block}
    (mem : .block b ∈ unit.nodes) :
    b ∈ unit.blocks ∨ (unit.entry.stmts = [] ∧ b = unit.entry) ∨
      ∃ handler, .expr (.asyncHandler handler) ∈ unit.nodes ∧ handler.isSplit ∧
        handler.body = .block b := by
  rcases node_rendered lowers mem with ⟨q, isNode, p, isPart, renders⟩ | isThis | ⟨none, isEntry⟩ |
    ofBody
  · cases q with
    | block b' =>
      obtain rfl := Model.Node.block.inj isNode
      exact .inl (List.mem_flatMap.2 ⟨p, isPart, Part.mem_blocks.2 renders⟩)
    | _ => cases isNode
  · cases isThis
  · exact .inr (.inl ⟨none, Model.Node.block.inj isEntry⟩)
  · exact .inr (.inr ofBody)

/-- The blocks that are rendered for a compiled program have fitting fragments. -/
theorem Source.Program.blocks_fitting (lowers : program.lower config = .ok unit) :
    ∀ b ∈ unit.blocks, b.IsFitting := by
  have whole : Every Model.Node.IsWhole unit.nodes := every_node lowers
  intro b mem
  obtain ⟨p, isPart, mem⟩ := List.mem_flatMap.1 mem
  have isNode := Part.mem_nodes_of_renders (Part.mem_blocks.1 mem)
  exact whole _ (Model.Unit.mem_nodes.2 (.inl ⟨p, isPart, isNode⟩))

end Polyscript
