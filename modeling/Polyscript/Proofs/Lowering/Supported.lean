import Polyscript.Proofs.Lowering.Defined

/-!
# Nothing unsupported is left out

Lowering has no form for some constructs and fails when it meets one. It also meets all of
a tree: whatever way a tree is lowered, part by part, as a loop that counts or as a field of
the enclosing instance, nothing that is passed over holds such a construct. A tree that has
been lowered is therefore free of them at every depth.

The one place that is never looked at is an initial value on the variable of a for-each loop
or of a catch clause, which no source text can write.
-/

namespace Polyscript

open Lowering Source

namespace Source

/-- Whether a node is of a form that has a model. -/
def Node.IsSupported : Node → Prop
  | .expr (.binary op _ _ _) => op ∉ [.leftShift, .rightShift, .unsignedRightShift]
  | .expr (.unary op _ _) => op ≠ .bitwiseComplement
  | .expr (.compoundAssign ..) => False
  | .expr (.methodRef _ _ mode _ _) => mode ≠ .new
  | .stmt (.loop inits cond updates _ _) =>
    inits.length = 1 ∧ cond.isSome ∧ updates.length = 1
  | .stmt (.tryCatch _ clauses cleanup _) => clauses.length = 1 ∧ cleanup.isNone
  | .stmt (.whileLoop ..) | .stmt (.break _) | .stmt (.continue _) => False
  | _ => True

/-- Whether the variables of for-each loops and catch clauses have no initial value. -/
def Node.BindsBare : Node → Prop
  | .stmt (.forEach var _ _ _) => var.init.isNone
  | .stmt (.tryCatch _ clauses _ _) => ∀ clause ∈ clauses, clause.param.init.isNone
  | _ => True

instance (node : Node) : Decidable node.BindsBare :=
  match node with
  | .stmt (.forEach var _ _ _) => inferInstanceAs (Decidable (var.init.isNone = true))
  | .stmt (.tryCatch _ clauses _ _) =>
    inferInstanceAs (Decidable (∀ clause ∈ clauses, clause.param.init.isNone = true))
  | .expr _ | .stmt (.block _) | .stmt (.local _) | .stmt (.expr ..) | .stmt (.conditional ..)
  | .stmt (.loop ..) | .stmt (.whileLoop ..) | .stmt (.throw ..) | .stmt (.return ..)
  | .stmt (.break _) | .stmt (.continue _) => isTrue trivial

/-- Whether all nodes are of forms that have models. -/
def AllSupported (nodes : List Node) : Prop := ∀ node ∈ nodes, node.IsSupported

@[simp] theorem allSupported_nil : AllSupported [] := List.forall_mem_nil _

@[simp] theorem allSupported_append {nodes others : List Node} :
    AllSupported (nodes ++ others) ↔ AllSupported nodes ∧ AllSupported others :=
  List.forall_mem_append

@[simp] theorem allSupported_cons {node : Node} {nodes : List Node} :
    AllSupported (node :: nodes) ↔ node.IsSupported ∧ AllSupported nodes :=
  List.forall_mem_cons

/-- Parentheses around the enclosing instance hold nothing else. -/
theorem Expr.allSupported_of_isThis {e : Expr} (isThis : e.stripParens.isThis) :
    AllSupported e.nodes := by
  induction e using Expr.stripParens.induct with
  | case1 inner span ih =>
    rw [Expr.stripParens] at isThis
    simp [Expr.nodes, Node.IsSupported, ih isThis]
  | case2 e notParens =>
    cases e with
    | ident name id span => simp [Expr.nodes, Node.IsSupported]
    | parens inner span => exact absurd rfl (notParens inner span)
    | _ => cases isThis

end Source

namespace Step

variable {α β : Type}

/-- Whether a step gives a result in some state. -/
def Succeeds (x : Step α) : Prop := ∃ s a t, x s = (.ok a, t)

theorem Succeeds.of_bind {x : Step α} {f : α → Step β} (succeeds : (x >>= f).Succeeds) :
    x.Succeeds ∧ ∃ a, (f a).Succeeds := by
  obtain ⟨s, b, t, ok⟩ := succeeds
  obtain ⟨a, s', first, next⟩ := ok_of_bind ok
  exact ⟨⟨s, a, s', first⟩, a, s', b, t, next⟩

theorem Succeeds.of_lift_bind {result : Except Unsupported α} {f : α → Step β}
    (succeeds : (Step.lift result >>= f).Succeeds) : ∃ a, result = .ok a ∧ (f a).Succeeds := by
  cases result with
  | ok a => exact ⟨a, rfl, succeeds⟩
  | error cause =>
    obtain ⟨s, b, t, ok⟩ := succeeds
    cases ok

theorem not_succeeds_fail (cause : Unsupported) : ¬(fail cause : Step α).Succeeds := by
  rintro ⟨s, a, t, ok⟩
  cases ok

end Step

open Step

theorem Lowering.notShift_of_binaryOp {kind : BinaryKind} {op : Model.BinaryOp}
    (ok : binaryOp kind = .ok op) : kind ∉ [.leftShift, .rightShift, .unsignedRightShift] := by
  intro isShift
  simp only [List.mem_cons, List.not_mem_nil, or_false] at isShift
  rcases isShift with rfl | rfl | rfl <;> cases ok

theorem Lowering.ne_complement_of_unaryOp {kind : UnaryKind} {op : Model.UnaryOp}
    (ok : unaryOp kind = .ok op) : kind ≠ .bitwiseComplement := by
  rintro rfl
  cases ok

/-- A tree that is lowered at a node has supported nodes only. -/
def Lowering.MeetsAll (r : Resolver) : Source.Node → Prop
  | .expr e => ∀ ctx, (e.lower r ctx).Succeeds → AllSupported e.nodes
  | .stmt s => ∀ ctx, (s.lower r ctx).Succeeds → AllSupported s.nodes

section Parts

variable {r : Resolver} {ctx : Context}

theorem Source.Expr.supported_of_lowerAll {es : List Source.Expr}
    (meets : ∀ node ∈ Expr.nodesAll es, MeetsAll r node)
    (succeeds : (Expr.lowerAllWith (identifier r) r ctx es).Succeeds) :
    AllSupported (Expr.nodesAll es) := by
  induction es with
  | nil => simp [Expr.nodesAll]
  | cons e rest ih =>
    obtain ⟨first, others⟩ := List.forall_mem_append.1 meets
    rw [Expr.lowerAllWith] at succeeds
    obtain ⟨here, _, succeeds⟩ := succeeds.of_bind
    exact allSupported_append.2 ⟨first _ e.mem_nodes ctx here, ih others succeeds.of_bind.1⟩

theorem Source.Expr.supported_of_lowerOption {e : Option Source.Expr}
    (meets : ∀ node ∈ Expr.nodesOption e, MeetsAll r node)
    (succeeds : (Expr.lowerOptionWith (identifier r) r ctx e).Succeeds) :
    AllSupported (Expr.nodesOption e) := by
  cases e with
  | none => simp [Expr.nodesOption]
  | some e =>
    rw [Expr.lowerOptionWith] at succeeds
    exact meets _ e.mem_nodes ctx succeeds.of_bind.1

theorem Source.Callee.supported_of_lower {callee : Callee}
    (meets : ∀ node ∈ callee.nodes, MeetsAll r node)
    (succeeds : (callee.lowerWith (identifier r) r ctx).Succeeds) :
    AllSupported callee.nodes := by
  cases callee with
  | unqualified name => simp [Callee.nodes]
  | member target name =>
    rw [Callee.lowerWith] at succeeds
    exact meets _ target.mem_nodes ctx succeeds

theorem Source.Arg.supported_of_lowerAll {args : List Arg}
    (meets : ∀ node ∈ Arg.nodesAll args, MeetsAll r node)
    (succeeds : (Arg.lowerAllWith (identifier r) r ctx args).Succeeds) :
    AllSupported (Arg.nodesAll args) := by
  induction args with
  | nil => simp [Arg.nodesAll]
  | cons arg rest ih =>
    obtain ⟨e, ty⟩ := arg
    obtain ⟨first, others⟩ := List.forall_mem_append.1 meets
    rw [Arg.lowerAllWith] at succeeds
    obtain ⟨here, _, succeeds⟩ := succeeds.of_bind
    exact allSupported_append.2 ⟨first _ e.mem_nodes ctx here, ih others succeeds.of_bind.1⟩

theorem Source.Stmt.supported_of_lowerAll {stmts : List Source.Stmt}
    (meets : ∀ node ∈ Stmt.nodesAll stmts, MeetsAll r node)
    (succeeds : (Stmt.lowerAllWith (identifier r) r ctx stmts).Succeeds) :
    AllSupported (Stmt.nodesAll stmts) := by
  induction stmts with
  | nil => simp [Stmt.nodesAll]
  | cons stmt rest ih =>
    obtain ⟨first, others⟩ := List.forall_mem_append.1 meets
    rw [Stmt.lowerAllWith] at succeeds
    obtain ⟨here, _, succeeds⟩ := succeeds.of_bind
    exact allSupported_append.2 ⟨first _ stmt.mem_nodes ctx here, ih others succeeds.of_bind.1⟩

theorem Source.Stmt.supported_of_lowerOption {stmt : Option Source.Stmt}
    (meets : ∀ node ∈ Stmt.nodesOption stmt, MeetsAll r node)
    (succeeds : (Stmt.lowerOptionWith (identifier r) r ctx stmt).Succeeds) :
    AllSupported (Stmt.nodesOption stmt) := by
  cases stmt with
  | none => simp [Stmt.nodesOption]
  | some stmt =>
    rw [Stmt.lowerOptionWith] at succeeds
    exact meets _ stmt.mem_nodes ctx succeeds.of_bind.1

theorem Source.Block.supported_of_lower {block : Source.Block}
    (meets : ∀ node ∈ block.nodes, MeetsAll r node)
    (succeeds : (block.lowerWith (identifier r) r ctx).Succeeds) : AllSupported block.nodes := by
  obtain ⟨stmts, span⟩ := block
  rw [Block.lowerWith] at succeeds
  exact Stmt.supported_of_lowerAll meets succeeds.of_bind.1

theorem Source.LambdaBody.supported_of_lower {body : Source.LambdaBody}
    (meets : ∀ node ∈ body.nodes, MeetsAll r node)
    (succeeds : (body.lowerWith (identifier r) r ctx).Succeeds) : AllSupported body.nodes := by
  cases body with
  | expr e =>
    rw [LambdaBody.lowerWith] at succeeds
    exact meets _ e.mem_nodes ctx succeeds.of_bind.1
  | block b =>
    rw [LambdaBody.lowerWith] at succeeds
    exact b.supported_of_lower meets succeeds.of_bind.1

end Parts

variable {r : Resolver}

/-- An expression that is lowered has supported nodes only, if that holds of all below it. -/
theorem Source.Expr.meetsAll_of_below (e : Source.Expr)
    (below : ∀ part ∈ (Source.Node.expr e).below, MeetsAll r part) : MeetsAll r (.expr e) := by
  intro ctx succeeds
  rw [Source.Expr.lower] at succeeds
  cases e with
  | ident name id span => simp [Expr.nodes, Node.IsSupported]
  | literal value span => simp [Expr.nodes, Node.IsSupported]
  | binary op lhs rhs span =>
    obtain ⟨left, right⟩ := List.forall_mem_append.1 below
    rw [Expr.lowerWith] at succeeds
    obtain ⟨_, isOp, succeeds⟩ := succeeds.of_lift_bind
    obtain ⟨hl, _, succeeds⟩ := succeeds.of_bind
    obtain ⟨hr, _⟩ := succeeds.of_bind
    rw [Expr.nodes, allSupported_cons, allSupported_append]
    exact ⟨notShift_of_binaryOp isOp, left _ lhs.mem_nodes ctx hl, right _ rhs.mem_nodes ctx hr⟩
  | unary op operand span =>
    rw [Expr.lowerWith] at succeeds
    obtain ⟨_, isOp, succeeds⟩ := succeeds.of_lift_bind
    rw [Expr.nodes, allSupported_cons]
    exact ⟨ne_complement_of_unaryOp isOp, below _ operand.mem_nodes ctx succeeds.of_bind.1⟩
  | assign target value span =>
    obtain ⟨left, right⟩ := List.forall_mem_append.1 below
    rw [Expr.lowerWith] at succeeds
    obtain ⟨ht, _, succeeds⟩ := succeeds.of_bind
    rw [Expr.nodes, allSupported_cons, allSupported_append]
    exact ⟨trivial, left _ target.mem_nodes ctx ht,
      right _ value.mem_nodes ctx succeeds.of_bind.1⟩
  | compoundAssign op target value span =>
    rw [Expr.lowerWith] at succeeds
    exact absurd succeeds (not_succeeds_fail _)
  | conditional cond yes no span =>
    obtain ⟨conds, branches⟩ := List.forall_mem_append.1 below
    obtain ⟨yeses, nos⟩ := List.forall_mem_append.1 branches
    rw [Expr.lowerWith] at succeeds
    obtain ⟨hc, _, succeeds⟩ := succeeds.of_bind
    obtain ⟨hy, _, succeeds⟩ := succeeds.of_bind
    rw [Expr.nodes, allSupported_cons, allSupported_append, allSupported_append]
    exact ⟨trivial, conds _ cond.mem_nodes ctx hc, yeses _ yes.mem_nodes ctx hy,
      nos _ no.mem_nodes ctx succeeds.of_bind.1⟩
  | parens inner span =>
    rw [Expr.lowerWith] at succeeds
    rw [Expr.nodes, allSupported_cons]
    exact ⟨trivial, below _ inner.mem_nodes ctx succeeds.of_bind.1⟩
  | select target name ty span =>
    rw [Expr.lowerWith] at succeeds
    obtain ⟨type, _, succeeds⟩ := succeeds.of_lift_bind
    rw [Expr.nodes, allSupported_cons]
    refine ⟨trivial, ?_⟩
    -- a field of the enclosing instance is lowered without its target
    split at succeeds
    next ownField =>
      exact target.allSupported_of_isThis (Bool.and_eq_true_iff.1 ownField).1
    next => exact below _ target.mem_nodes ctx succeeds.of_bind.1
  | call callee method args ty span =>
    obtain ⟨callees, arguments⟩ := List.forall_mem_append.1 below
    rw [Expr.lowerWith] at succeeds
    obtain ⟨hc, _, succeeds⟩ := succeeds.of_bind
    obtain ⟨_, _, succeeds⟩ := succeeds.of_lift_bind
    rw [Expr.nodes, allSupported_cons, allSupported_append]
    exact ⟨trivial, callee.supported_of_lower callees hc,
      Arg.supported_of_lowerAll arguments succeeds.of_bind.1⟩
  | construct cls args span =>
    obtain ⟨classes, arguments⟩ := List.forall_mem_append.1 below
    rw [Expr.lowerWith] at succeeds
    obtain ⟨hc, _, succeeds⟩ := succeeds.of_bind
    rw [Expr.nodes, allSupported_cons, allSupported_append]
    exact ⟨trivial, classes _ cls.mem_nodes ctx hc,
      Expr.supported_of_lowerAll arguments succeeds.of_bind.1⟩
  | instanceOf e cls span =>
    rw [Expr.lowerWith] at succeeds
    obtain ⟨_, _, succeeds⟩ := succeeds.of_bind
    rw [Expr.nodes, allSupported_cons]
    exact ⟨trivial, below _ e.mem_nodes ctx succeeds.of_bind.1⟩
  | lambda params body span =>
    rw [Expr.lowerWith] at succeeds
    obtain ⟨found, _, succeeds⟩ := succeeds.of_lift_bind
    rw [Expr.nodes, allSupported_cons]
    refine ⟨trivial, ?_⟩
    cases found with
    | some callback => exact body.supported_of_lower below succeeds.of_bind.1
    | none =>
      obtain ⟨_, _, succeeds⟩ := succeeds.of_bind
      exact body.supported_of_lower below succeeds.of_bind.1
  | methodRef qualifier name mode method span =>
    rw [Expr.lowerWith] at succeeds
    split at succeeds
    next => exact absurd succeeds (not_succeeds_fail _)
    next notNew =>
      rw [Expr.nodes, allSupported_cons]
      exact ⟨notNew, below _ qualifier.mem_nodes ctx succeeds.of_bind.1⟩
  | typeApply base args span =>
    rw [Expr.lowerWith] at succeeds
    rw [Expr.nodes, allSupported_cons]
    exact ⟨trivial, below _ base.mem_nodes ctx succeeds⟩

/-- A loop that counts is lowered by its bounds alone; what else its parts hold is the
variable that is counted. -/
theorem Source.supported_of_ranged? {init : Source.Stmt} {cond update : Source.Expr}
    {loop : RangedLoop} (isRanged : ranged? init cond update = some loop)
    (start : AllSupported loop.start.nodes) (stop : AllSupported loop.stop.nodes) :
    AllSupported init.nodes ∧ AllSupported cond.nodes ∧ AllSupported update.nodes := by
  unfold ranged? at isRanged
  split at isRanged
  next =>
    split at isRanged
    · obtain rfl := Option.some.inj isRanged
      simp [Stmt.nodes, VarDecl.nodes, Expr.nodesOption, Expr.nodes, Node.IsSupported, start, stop]
    · cases isRanged
  next => cases isRanged

/-- A statement that is lowered has supported nodes only, if that holds of all below it. -/
theorem Source.Stmt.meetsAll_of_below (s : Source.Stmt) (bare : (Source.Node.stmt s).BindsBare)
    (below : ∀ part ∈ (Source.Node.stmt s).below, MeetsAll r part) : MeetsAll r (.stmt s) := by
  intro ctx succeeds
  rw [Source.Stmt.lower] at succeeds
  cases s with
  | block block =>
    rw [Stmt.lowerWith] at succeeds
    rw [Stmt.nodes, allSupported_cons]
    exact ⟨trivial, block.supported_of_lower below succeeds.of_bind.1⟩
  | «local» decl =>
    obtain ⟨name, id, ty, init, span⟩ := decl
    rw [Stmt.lowerWith, VarDecl.lowerWith] at succeeds
    obtain ⟨_, _, succeeds⟩ := succeeds.of_lift_bind
    rw [Stmt.nodes, allSupported_cons]
    exact ⟨trivial, Expr.supported_of_lowerOption below succeeds.of_bind.1⟩
  | expr e span =>
    rw [Stmt.nodes, allSupported_cons]
    refine ⟨trivial, ?_⟩
    have meets := below _ e.mem_nodes ctx
    cases e with
    | assign target value place =>
      -- an assignment that is a statement is lowered part by part, not as an expression
      obtain ⟨left, right⟩ := List.forall_mem_append.1 (List.forall_mem_cons.1 below).2
      rw [Stmt.lowerWith] at succeeds
      obtain ⟨ht, _, succeeds⟩ := succeeds.of_bind
      rw [Expr.nodes, allSupported_cons, allSupported_append]
      exact ⟨trivial, left _ target.mem_nodes ctx ht,
        right _ value.mem_nodes ctx succeeds.of_bind.1⟩
    | _ =>
      simp only [Stmt.lowerWith] at succeeds
      exact meets succeeds.of_bind.1
  | conditional cond yes no span =>
    obtain ⟨conds, branches⟩ := List.forall_mem_append.1 below
    obtain ⟨yeses, nos⟩ := List.forall_mem_append.1 branches
    rw [Stmt.lowerWith] at succeeds
    obtain ⟨hc, _, succeeds⟩ := succeeds.of_bind
    obtain ⟨hy, _, succeeds⟩ := succeeds.of_bind
    rw [Stmt.nodes, allSupported_cons, allSupported_append, allSupported_append]
    exact ⟨trivial, conds _ cond.mem_nodes ctx hc, yeses _ yes.mem_nodes ctx hy,
      Stmt.supported_of_lowerOption nos succeeds.of_bind.1⟩
  | loop inits cond updates body span =>
    obtain ⟨hi, rest⟩ := List.forall_mem_append.1 below
    obtain ⟨hc, rest⟩ := List.forall_mem_append.1 rest
    obtain ⟨hu, hb⟩ := List.forall_mem_append.1 rest
    -- more or fewer than one of each part is refused, so a single case remains
    rcases inits with _ | ⟨init, _ | _⟩
    case cons.nil =>
      rcases updates with _ | ⟨update, _ | _⟩
      case cons.nil =>
        cases cond with
        | none =>
          simp only [Stmt.lowerWith] at succeeds
          exact absurd succeeds (not_succeeds_fail _)
        | some cond =>
          rw [Source.Stmt.lowerWith_loop] at succeeds
          have parts : AllSupported init.nodes ∧ AllSupported cond.nodes ∧
              AllSupported update.nodes ∧ AllSupported body.nodes := by
            cases isRanged : ranged? init cond update with
            | some count =>
              obtain ⟨mem, mem', _⟩ := mem_nodes_of_ranged? isRanged
              rw [isRanged] at succeeds
              obtain ⟨_, _, succeeds⟩ := succeeds.of_lift_bind
              obtain ⟨start, _, succeeds⟩ := succeeds.of_bind
              obtain ⟨stop, _, succeeds⟩ := succeeds.of_bind
              obtain ⟨_, _, succeeds⟩ := succeeds.of_bind
              have bounds := supported_of_ranged? isRanged
                (hi _ (List.mem_append_left [] mem) ctx start) (hc _ mem' ctx stop)
              exact ⟨bounds.1, bounds.2.1, bounds.2.2,
                hb _ body.mem_nodes ctx succeeds.of_bind.1⟩
            | none =>
              rw [isRanged] at succeeds
              obtain ⟨init', _, succeeds⟩ := succeeds.of_bind
              obtain ⟨cond', _, succeeds⟩ := succeeds.of_bind
              obtain ⟨update', _, succeeds⟩ := succeeds.of_bind
              exact ⟨hi _ (List.mem_append_left [] init.mem_nodes) ctx init',
                hc _ cond.mem_nodes ctx cond',
                hu _ (List.mem_append_left [] update.mem_nodes) ctx update',
                hb _ body.mem_nodes ctx succeeds.of_bind.1⟩
          obtain ⟨init, cond, update, body⟩ := parts
          simp [Stmt.nodes, Stmt.nodesAll, Expr.nodesAll, Expr.nodesOption, Node.IsSupported,
            init, cond, update, body]
      all_goals
        simp only [Stmt.lowerWith] at succeeds
        exact absurd succeeds (not_succeeds_fail _)
    all_goals
      simp only [Stmt.lowerWith] at succeeds
      exact absurd succeeds (not_succeeds_fail _)
  | forEach var iterable body span =>
    obtain ⟨name, id, ty, init, varSpan⟩ := var
    obtain ⟨_, rest⟩ := List.forall_mem_append.1 below
    obtain ⟨hi, hb⟩ := List.forall_mem_append.1 rest
    -- the variable is bound without being lowered, so it must not hold anything
    obtain rfl := Option.isNone_iff_eq_none.1 bare
    rw [Stmt.lowerWith] at succeeds
    obtain ⟨iterable', _, succeeds⟩ := succeeds.of_bind
    obtain ⟨_, _, succeeds⟩ := succeeds.of_lift_bind
    obtain ⟨_, _, succeeds⟩ := succeeds.of_bind
    simp [Stmt.nodes, VarDecl.nodes, Expr.nodesOption, Node.IsSupported,
      hi _ iterable.mem_nodes ctx iterable', hb _ body.mem_nodes ctx succeeds.of_bind.1]
  | whileLoop cond body span =>
    rw [Stmt.lowerWith] at succeeds
    exact absurd succeeds (not_succeeds_fail _)
  | tryCatch body clauses cleanup span =>
    obtain ⟨hb, rest⟩ := List.forall_mem_append.1 below
    obtain ⟨hc, _⟩ := List.forall_mem_append.1 rest
    -- a cleanup is refused, and so is any number of clauses but one
    cases cleanup with
    | some cleanup =>
      rw [Stmt.lowerWith] at succeeds
      exact absurd succeeds (not_succeeds_fail _)
    | none =>
      rcases clauses with _ | ⟨⟨⟨name, id, ty, init, paramSpan⟩, handler⟩, _ | _⟩
      case cons.nil =>
        obtain ⟨_, handlers⟩ := List.forall_mem_append.1 hc
        obtain ⟨hh, _⟩ := List.forall_mem_append.1 handlers
        obtain rfl := Option.isNone_iff_eq_none.1 (bare _ (List.mem_singleton_self _))
        rw [Stmt.lowerWith, CatchClause.lowerWith] at succeeds
        obtain ⟨body', _, succeeds⟩ := succeeds.of_bind
        obtain ⟨_, _, clause⟩ := succeeds.of_bind.1.of_lift_bind
        obtain ⟨_, _, clause⟩ := clause.of_bind
        simp [Stmt.nodes, CatchClause.nodesAll, VarDecl.nodes, Expr.nodesOption,
          Block.nodesOption, Node.IsSupported, body.supported_of_lower hb body',
          handler.supported_of_lower hh clause.of_bind.1]
      all_goals
        simp only [Stmt.lowerWith] at succeeds
        exact absurd succeeds (not_succeeds_fail _)
  | throw e span =>
    rw [Stmt.lowerWith] at succeeds
    rw [Stmt.nodes, allSupported_cons]
    exact ⟨trivial, below _ e.mem_nodes ctx succeeds.of_bind.1⟩
  | «return» e span =>
    rw [Stmt.lowerWith] at succeeds
    rw [Stmt.nodes, allSupported_cons]
    exact ⟨trivial, Expr.supported_of_lowerOption below succeeds.of_bind.1⟩
  | «break» span =>
    rw [Stmt.lowerWith] at succeeds
    exact absurd succeeds (not_succeeds_fail _)
  | «continue» span =>
    rw [Stmt.lowerWith] at succeeds
    exact absurd succeeds (not_succeeds_fail _)

/-- Whatever is lowered is supported throughout, since every node below is. -/
theorem Lowering.meetsAll_of_bindsBare (node : Source.Node) (bare : node.BindsBare)
    (below : ∀ part ∈ node.below, MeetsAll r part) : MeetsAll r node := by
  cases node with
  | expr e => exact e.meetsAll_of_below below
  | stmt s => exact s.meetsAll_of_below bare below

variable {ctx : Context}

theorem Source.MethodDecl.supported_of_lower {decl : MethodDecl}
    (bare : ∀ node ∈ decl.nodes, node.BindsBare) (succeeds : (decl.lower r ctx).Succeeds) :
    AllSupported decl.nodes := by
  have meets := decl.body.forall_nodes (meetsAll_of_bindsBare (r := r)) bare
  unfold MethodDecl.lower MethodDecl.lowerWith at succeeds
  obtain ⟨_, _, succeeds⟩ := succeeds.of_bind
  obtain ⟨_, _, succeeds⟩ := succeeds.of_lift_bind
  exact decl.body.supported_of_lower meets succeeds.of_bind.1

theorem Source.FieldDecl.supported_of_lower {decl : FieldDecl}
    (bare : ∀ node ∈ decl.nodes, node.BindsBare) (succeeds : (decl.lower r ctx).Succeeds) :
    AllSupported decl.nodes := by
  have meets := Expr.forall_nodesOption (meetsAll_of_bindsBare (r := r)) decl.init bare
  unfold FieldDecl.lower FieldDecl.lowerWith at succeeds
  obtain ⟨_, _, succeeds⟩ := succeeds.of_lift_bind
  obtain ⟨_, _, succeeds⟩ := succeeds.of_bind
  exact Expr.supported_of_lowerOption meets succeeds.of_bind.1

theorem Declaration.supported_of_lower {d : Declaration}
    (bare : ∀ node ∈ d.nodes, node.BindsBare) (succeeds : (d.lower r ctx).Succeeds) :
    AllSupported d.nodes := by
  cases d with
  | field decl => exact decl.supported_of_lower bare succeeds.of_bind.1
  | method decl => exact decl.supported_of_lower bare succeeds.of_bind.1

/-- Each declaration that is visited has been lowered. -/
theorem Lowering.LowersInTurn.succeeds {s t : Progress} {visits : List Visit}
    (inTurn : LowersInTurn r ctx s visits t) :
    ∀ visit ∈ visits, (visit.decl.2.lower r ctx).Succeeds := by
  induction inTurn with
  | nil s => exact List.forall_mem_nil _
  | cons visit first _ ih => exact List.forall_mem_cons.2 ⟨⟨_, _, _, first⟩, ih⟩

/-- The nodes of a declaration are nodes of the class. -/
theorem Source.ClassUnit.mem_nodes_of_mem_declarations {unit : ClassUnit}
    {d : Placed Declaration} (declared : d ∈ unit.declarations) {node : Source.Node}
    (mem : node ∈ d.2.nodes) : node ∈ unit.nodes := by
  rw [ClassUnit.declarations, placed, List.mem_map] at declared
  obtain ⟨⟨decl, place⟩, isPlaced, rfl⟩ := declared
  have isDecl : decl ∈ unit.fields.map .field ++ unit.methods.map .method :=
    List.fst_mem_of_mem_zipIdx isPlaced
  rcases List.mem_append.1 isDecl with among | among
  · obtain ⟨field, isField, rfl⟩ := List.mem_map.1 among
    exact List.mem_append_left _ (List.mem_flatMap.2 ⟨field, isField, mem⟩)
  · obtain ⟨method, isMethod, rfl⟩ := List.mem_map.1 among
    exact List.mem_append_right _ (List.mem_flatMap.2 ⟨method, isMethod, mem⟩)

theorem Source.ClassUnit.entry_mem_declarations {unit : ClassUnit} {name : String}
    {entry : Placed MethodDecl} (isEntry : unit.entry? name = some entry) :
    (entry.1, .method entry.2) ∈ unit.declarations := by
  obtain ⟨⟨place, d⟩, mem, found⟩ := List.exists_of_findSome?_eq_some isEntry
  cases d with
  | field decl => cases found
  | method decl =>
    rw [Lowering.entry?] at found
    split at found
    · obtain rfl := Option.some.inj found
      exact mem
    · cases found

/-- A declaration that a compiled unit has been given was lowered. -/
theorem Source.Program.succeeds_of_has {config : Config} {program : Program}
    {unit : Model.Unit} (ok : program.lower config = .ok unit) {entryPlace : Nat}
    {entry : MethodDecl}
    (isEntry : program.unit.entry? config.entryMethod = some (entryPlace, entry)) :
    (entry.lower (program.resolver config) config.context).Succeeds ∧
      ∀ d ∈ program.unit.helpers entryPlace, unit.Has d.2 →
        (d.2.lower (program.resolver config) config.context).Succeeds := by
  obtain ⟨run, ordered, reordered, decls, _, rfl⟩ := exists_run config program ok
  obtain ⟨rfl, rfl⟩ := Prod.mk.inj (Option.some.inj (run.isEntry.symm.trans isEntry))
  refine ⟨⟨_, _, _, run.lowersEntry⟩, fun d isHelper has => ?_⟩
  obtain ⟨visit, visited, rfl⟩ := (run.exists_visit_iff_has reordered decls).2 ⟨isHelper, has⟩
  exact run.inTurn.succeeds visit visited

/-- If a program is compiled, then the entry method and every field and method that the unit
has are free of unsupported constructs at every depth. -/
theorem Source.Program.lower_supported {config : Config} {program : Program}
    {unit : Model.Unit} (ok : program.lower config = .ok unit)
    (bare : ∀ node ∈ program.unit.nodes, node.BindsBare) :
    ∃ entryPlace entry,
      program.unit.entry? config.entryMethod = some (entryPlace, entry) ∧
      (∀ node ∈ entry.nodes, node.IsSupported) ∧
      ∀ d ∈ program.unit.helpers entryPlace, unit.Has d.2 →
        ∀ node ∈ d.2.nodes, node.IsSupported := by
  obtain ⟨run, _⟩ := exists_run config program ok
  obtain ⟨lowersEntry, lowersHelpers⟩ := succeeds_of_has ok run.isEntry
  refine ⟨run.entryPlace, run.entryDecl, run.isEntry, ?_, fun d isHelper has => ?_⟩
  · refine run.entryDecl.supported_of_lower (fun node mem => bare node ?_) lowersEntry
    exact ClassUnit.mem_nodes_of_mem_declarations
      (ClassUnit.entry_mem_declarations run.isEntry) mem
  · refine d.2.supported_of_lower (fun node mem => bare node ?_) (lowersHelpers d isHelper has)
    exact ClassUnit.mem_nodes_of_mem_declarations (List.mem_of_mem_filter isHelper) mem

namespace Source.Program

/-- A class whose entry method counts, and in each round calls a method that goes through a
list, until something is thrown. -/
def guarded : Program where
  unit := {
    name := "Guarded"
    fields := [⟨"items", 4, .declared "java.util.List" [], none⟩]
    methods := [
      ⟨"start", [], .void, ⟨[.loop
        [.local ⟨"i", 1, .primitive .int, some (.int 0), {}⟩]
        (some (.binary .lessThan (.ident "i" 1) (.int 3)))
        [.unary .postfixIncrement (.ident "i" 1)]
        (.tryCatch ⟨[.ofExpr (.localCall "visit" 2 [] .void)], {}⟩
          [⟨⟨"e", 5, .declared "java.lang.Exception" [], none, {}⟩, ⟨[.return none], {}⟩⟩] none)],
        {}⟩⟩,
      ⟨"visit", [], .void, ⟨[.forEach ⟨"item", 6, .primitive .int, none, {}⟩
        (.select (.ident "this" 0) "items" (.declared "java.util.List" []))
        (.conditional (.binary .lessThan (.ident "item" 6) (.int 0))
          (.block ⟨[.return none], {}⟩) none)], {}⟩⟩] }
  methods := .ofList [(2, ⟨"visit", .declared "Guarded" [], [], false, .void⟩)]

theorem lower_supported_guarded :
    (∀ node ∈ guarded.unit.nodes, node.BindsBare) ∧
    ∃ unit, guarded.lower {} = .ok unit ∧ unit.methods.map (·.signature.name) = ["visit"] ∧
      unit.fields.map (·.name) = ["items"] ∧
      ∃ entryPlace entry, guarded.unit.entry? "start" = some (entryPlace, entry) ∧
        (∀ node ∈ entry.nodes, node.IsSupported) ∧
        ∀ d ∈ guarded.unit.helpers entryPlace, unit.Has d.2 →
          ∀ node ∈ d.2.nodes, node.IsSupported := by
  have bare : ∀ node ∈ guarded.unit.nodes, node.BindsBare := by decide +kernel
  have names : ((guarded.lower {}).toOption.map fun unit =>
      (unit.methods.map (·.signature.name), unit.fields.map (·.name))) =
      some (["visit"], ["items"]) := by decide +kernel
  refine ⟨bare, ?_⟩
  cases lowers : guarded.lower {} with
  | error cause =>
    rw [lowers] at names
    cases names
  | ok unit =>
    rw [lowers] at names
    obtain ⟨methods, fields⟩ := Prod.mk.inj (Option.some.inj names)
    exact ⟨unit, rfl, methods, fields, lower_supported lowers bare⟩

end Source.Program

end Polyscript
