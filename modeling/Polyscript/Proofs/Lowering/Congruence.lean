import Polyscript.Proofs.Lowering.Loop
import Polyscript.Proofs.Lowering.Tables

/-!
# Congruences of lowering

Lowering puts steps together from a few primitive ones: results, causes, symbols bound
or looked up, uses noted, and names lowered. A relation between steps that holds for
the primitive ones and is kept by sequencing therefore holds between any two ways of
lowering a tree that differ only in how names are lowered and in which fields the class
declares.
-/

namespace Polyscript

open Lowering

/-- A relation between steps that holds of primitive steps and is kept by sequencing. -/
structure Step.Congruence (P : ∀ {α : Type}, Step α → Step α → Prop) : Prop where
  pure {α : Type} (a : α) : P (pure a : Step α) (pure a)
  fail {α : Type} (cause : Unsupported) : P (Step.fail cause : Step α) (Step.fail cause)
  bind {α β : Type} {x y : Step α} {f g : α → Step β} :
    P x y → (∀ a, P (f a) (g a)) → P (x >>= f) (y >>= g)
  useMethod (name : String) : P (Step.useMethod name) (Step.useMethod name)
  noteLookup (id : SymbolId) : P (Step.noteLookup id) (Step.noteLookup id)

/-- The field of a name on the enclosing instance, if the class declares one, and otherwise
what a step gives. -/
def Lowering.ownField (r : Resolver) (name : String) (type : TypeInfo)
    (otherwise : Step Model.Expr) : Step Model.Expr :=
  if hasField r name then variableOf name .field type else otherwise

/-- What a relation has to say of the steps that a node of a tree contributes: of its
name, if the node is one, of a selection on the enclosing instance, and of the variables that
the node declares. The class is replaced by another one on the other side. -/
structure Lowering.Fits (P : ∀ {α : Type}, Step α → Step α → Prop) (n n' : Naming)
    (r : Resolver) (unit : Source.ClassUnit) (node : Source.Node) : Prop where
  name {name : String} {id : SymbolId} {span : Source.Span} :
    node = .expr (.ident name id span) → ∀ ctx, P (n ctx name id) (n' ctx name id)
  own {target : Source.Expr} {name : String} {ty : Source.Ty} {span : Source.Span} :
    node = .expr (.select target name ty span) → ∀ {type : TypeInfo} {x y : Step Model.Expr},
      P x y → P (ownField r name type x) (ownField (r.withUnit unit) name type y)
  binder {binder : Source.Binder} : binder ∈ node.binders →
    ∀ {type : TypeInfo}, r.resolve binder.ty = .ok type →
      P (Step.declare binder.sym binder.scope type) (Step.declare binder.sym binder.scope type)

namespace Step.Congruence

variable {P : ∀ {α : Type}, Step α → Step α → Prop} (congr : Step.Congruence P)
include congr

/-- A computation without a state is a result or a cause. -/
theorem lift {α : Type} (result : Except Unsupported α) :
    P (Step.lift result) (Step.lift result) :=
  match result with
  | .ok a => congr.pure a
  | .error cause => congr.fail cause

/-- What follows a computation without a state may rely on its result. -/
theorem lift_bind {α β : Type} {result : Except Unsupported α} {f g : α → Step β}
    (next : ∀ a, result = .ok a → P (f a) (g a)) :
    P (Step.lift result >>= f) (Step.lift result >>= g) :=
  match result, next with
  | .ok a, next => next a rfl
  | .error cause, _ => congr.fail cause

variable (r : Resolver)

theorem lookUp (id : SymbolId) : P (Lowering.lookUp r id) (Lowering.lookUp r id) := by
  unfold Lowering.lookUp
  refine congr.bind (congr.noteLookup id) fun _ => ?_
  split
  · exact congr.pure _
  · exact congr.fail _

theorem variableOf {name : String} {scope : Model.Scope}
    (noted : scope = .field → P (Step.useField name) (Step.useField name)) (type : TypeInfo) :
    P (Lowering.variableOf name scope type) (Lowering.variableOf name scope type) := by
  unfold Lowering.variableOf
  split
  next isField => exact congr.bind (noted isField) fun _ => congr.lift _
  next => exact congr.bind (congr.pure _) fun _ => congr.lift _

/-- A field of one name is noted in related ways and declared on both sides or on neither. -/
theorem ownField {r : Resolver} {name : String}
    (noted : P (Step.useField name) (Step.useField name)) (type : TypeInfo)
    {x y : Step Model.Expr} (otherwise : P x y) :
    P (Lowering.ownField r name type x) (Lowering.ownField r name type y) := by
  unfold Lowering.ownField
  split
  · exact congr.variableOf (fun _ => noted) type
  · exact otherwise

theorem testedClass (id : SymbolId) :
    P (Lowering.testedClass r id) (Lowering.testedClass r id) := by
  unfold Lowering.testedClass
  refine congr.bind (congr.lookUp r id) fun symbol => ?_
  split
  · exact congr.pure _
  · exact congr.fail _

theorem noteReference (name : String) (receiver : Model.Expr) :
    P (Lowering.noteReference name receiver) (Lowering.noteReference name receiver) := by
  unfold Lowering.noteReference
  split
  · exact congr.fail _
  · exact congr.useMethod name
  · exact congr.pure _

/-- Parameters are bound one after the other. -/
theorem bindParams (params : List (SymbolId × Source.Ty))
    (declares : ∀ param ∈ params, ∀ {type}, r.resolve param.2 = .ok type →
      P (Step.declare param.1 .parameter type) (Step.declare param.1 .parameter type)) :
    P (Lowering.bindParams r params) (Lowering.bindParams r params) := by
  induction params with
  | nil => exact congr.pure []
  | cons param rest ih =>
    obtain ⟨first, others⟩ := List.forall_mem_cons.1 declares
    exact congr.lift_bind fun type resolved =>
      congr.bind (first resolved) fun _ => congr.bind (ih others) fun _ => congr.pure _

end Step.Congruence

open Source

section Trees

variable {P : ∀ {α : Type}, Step α → Step α → Prop} {n n' : Naming} {r : Resolver}
  {unit : ClassUnit}

/-- The two ways of lowering a node are related in every context. -/
def Lowering.Related (P : ∀ {α : Type}, Step α → Step α → Prop) (n n' : Naming)
    (r : Resolver) (unit : ClassUnit) : Source.Node → Prop
  | .expr e => ∀ ctx, P (e.lowerWith n r ctx) (e.lowerWith n' (r.withUnit unit) ctx)
  | .stmt s => ∀ ctx, P (s.lowerWith n r ctx) (s.lowerWith n' (r.withUnit unit) ctx)

variable (congr : Step.Congruence P) (ctx : Context)

include congr

theorem Source.Expr.lowerAllWith_congr {es : List Source.Expr}
    (related : ∀ node ∈ Expr.nodesAll es, Related P n n' r unit node) :
    P (Expr.lowerAllWith n r ctx es) (Expr.lowerAllWith n' (r.withUnit unit) ctx es) := by
  induction es with
  | nil =>
    rw [Expr.lowerAllWith, Expr.lowerAllWith]
    exact congr.pure []
  | cons e rest ih =>
    obtain ⟨first, others⟩ := List.forall_mem_append.1 related
    rw [Expr.lowerAllWith, Expr.lowerAllWith]
    exact congr.bind (first _ e.mem_nodes ctx) fun _ =>
      congr.bind (ih others) fun _ => congr.pure _

theorem Source.Expr.lowerOptionWith_congr {e : Option Source.Expr}
    (related : ∀ node ∈ Expr.nodesOption e, Related P n n' r unit node) :
    P (Expr.lowerOptionWith n r ctx e) (Expr.lowerOptionWith n' (r.withUnit unit) ctx e) := by
  cases e with
  | none =>
    rw [Expr.lowerOptionWith, Expr.lowerOptionWith]
    exact congr.pure none
  | some e =>
    rw [Expr.lowerOptionWith, Expr.lowerOptionWith]
    exact congr.bind (related _ e.mem_nodes ctx) fun _ => congr.pure _

theorem Source.Callee.lowerWith_congr {callee : Source.Callee}
    (related : ∀ node ∈ callee.nodes, Related P n n' r unit node) :
    P (callee.lowerWith n r ctx) (callee.lowerWith n' (r.withUnit unit) ctx) := by
  cases callee with
  | unqualified name =>
    rw [Callee.lowerWith, Callee.lowerWith]
    exact congr.bind (congr.useMethod name) fun _ => congr.pure _
  | member target name =>
    rw [Callee.lowerWith, Callee.lowerWith]
    exact related _ target.mem_nodes ctx

theorem Source.Arg.lowerAllWith_congr {args : List Source.Arg}
    (related : ∀ node ∈ Arg.nodesAll args, Related P n n' r unit node) :
    P (Arg.lowerAllWith n r ctx args) (Arg.lowerAllWith n' (r.withUnit unit) ctx args) := by
  induction args with
  | nil =>
    rw [Arg.lowerAllWith, Arg.lowerAllWith]
    exact congr.pure []
  | cons arg rest ih =>
    obtain ⟨e, ty⟩ := arg
    obtain ⟨first, others⟩ := List.forall_mem_append.1 related
    rw [Arg.lowerAllWith, Arg.lowerAllWith]
    exact congr.bind (first _ e.mem_nodes ctx) fun _ =>
      congr.bind (ih others) fun _ => congr.pure _

theorem Source.Stmt.lowerAllWith_congr {stmts : List Source.Stmt}
    (related : ∀ node ∈ Stmt.nodesAll stmts, Related P n n' r unit node) :
    P (Stmt.lowerAllWith n r ctx stmts) (Stmt.lowerAllWith n' (r.withUnit unit) ctx stmts) := by
  induction stmts with
  | nil =>
    rw [Stmt.lowerAllWith, Stmt.lowerAllWith]
    exact congr.pure []
  | cons stmt rest ih =>
    obtain ⟨first, others⟩ := List.forall_mem_append.1 related
    rw [Stmt.lowerAllWith, Stmt.lowerAllWith]
    exact congr.bind (first _ stmt.mem_nodes ctx) fun _ =>
      congr.bind (ih others) fun _ => congr.pure _

theorem Source.Stmt.lowerOptionWith_congr {stmt : Option Source.Stmt}
    (related : ∀ node ∈ Stmt.nodesOption stmt, Related P n n' r unit node) :
    P (Stmt.lowerOptionWith n r ctx stmt) (Stmt.lowerOptionWith n' (r.withUnit unit) ctx stmt) := by
  cases stmt with
  | none =>
    rw [Stmt.lowerOptionWith, Stmt.lowerOptionWith]
    exact congr.pure none
  | some stmt =>
    rw [Stmt.lowerOptionWith, Stmt.lowerOptionWith]
    exact congr.bind (related _ stmt.mem_nodes ctx) fun _ => congr.pure _

theorem Source.Block.lowerWith_congr_of_related {block : Source.Block}
    (related : ∀ node ∈ block.nodes, Related P n n' r unit node) :
    P (block.lowerWith n r ctx) (block.lowerWith n' (r.withUnit unit) ctx) := by
  obtain ⟨stmts, span⟩ := block
  rw [Block.lowerWith, Block.lowerWith]
  exact congr.bind (Stmt.lowerAllWith_congr congr ctx related) fun _ => congr.pure _

theorem Source.LambdaBody.lowerWith_congr {body : Source.LambdaBody}
    (related : ∀ node ∈ body.nodes, Related P n n' r unit node) :
    P (body.lowerWith n r ctx) (body.lowerWith n' (r.withUnit unit) ctx) := by
  cases body with
  | expr body =>
    rw [LambdaBody.lowerWith, LambdaBody.lowerWith]
    exact congr.bind (related _ body.mem_nodes ctx) fun _ => congr.pure _
  | block body =>
    rw [LambdaBody.lowerWith, LambdaBody.lowerWith]
    exact congr.bind (Block.lowerWith_congr_of_related congr ctx related) fun _ => congr.pure _

/-- An expression whose nodes below are lowered in related ways is so itself. -/
theorem Source.Expr.related_of_below (e : Source.Expr) (fits : Fits P n n' r unit (.expr e))
    (below : ∀ part ∈ (Source.Node.expr e).below, Related P n n' r unit part) :
    Related P n n' r unit (.expr e) := by
  intro ctx
  cases e with
  | ident name id span =>
    rw [Expr.lowerWith, Expr.lowerWith]
    exact fits.name rfl ctx
  | literal value span =>
    rw [Expr.lowerWith, Expr.lowerWith]
    exact congr.pure _
  | binary op lhs rhs span =>
    obtain ⟨hl, hr⟩ := List.forall_mem_append.1 below
    rw [Expr.lowerWith, Expr.lowerWith]
    exact congr.lift_bind fun op _ => congr.bind (hl _ lhs.mem_nodes ctx) fun lhs =>
      congr.bind (hr _ rhs.mem_nodes ctx) fun rhs => congr.lift _
  | unary op operand span =>
    rw [Expr.lowerWith, Expr.lowerWith]
    exact congr.lift_bind fun op _ => congr.bind (below _ operand.mem_nodes ctx) fun operand =>
      congr.lift _
  | assign target value span =>
    obtain ⟨ht, hv⟩ := List.forall_mem_append.1 below
    rw [Expr.lowerWith, Expr.lowerWith]
    exact congr.bind (ht _ target.mem_nodes ctx) fun target =>
      congr.bind (hv _ value.mem_nodes ctx) fun value => congr.pure _
  | compoundAssign op target value span =>
    rw [Expr.lowerWith, Expr.lowerWith]
    exact congr.fail _
  | conditional cond yes no span =>
    obtain ⟨hc, branches⟩ := List.forall_mem_append.1 below
    obtain ⟨hy, hn⟩ := List.forall_mem_append.1 branches
    rw [Expr.lowerWith, Expr.lowerWith]
    exact congr.bind (hc _ cond.mem_nodes ctx) fun cond =>
      congr.bind (hy _ yes.mem_nodes ctx) fun yes =>
        congr.bind (hn _ no.mem_nodes ctx) fun no => congr.pure _
  | parens inner span =>
    rw [Expr.lowerWith, Expr.lowerWith]
    exact congr.bind (below _ inner.mem_nodes ctx) fun inner => congr.pure _
  | select target name ty span =>
    rw [Expr.lowerWith, Expr.lowerWith, r.resolve_withUnit]
    refine congr.lift_bind fun type _ => ?_
    -- only a selection on the enclosing instance asks for the fields of the class
    cases target.stripParens.isThis with
    | true =>
      rw [Bool.true_and, Bool.true_and]
      exact fits.own rfl (congr.bind (below _ target.mem_nodes ctx) fun receiver =>
        congr.lift_bind fun field _ => congr.lift _)
    | false =>
      rw [Bool.false_and, Bool.false_and]
      exact congr.bind (below _ target.mem_nodes ctx) fun receiver =>
        congr.lift_bind fun field _ => congr.lift _
  | call callee method args ty span =>
    obtain ⟨hc, ha⟩ := List.forall_mem_append.1 below
    rw [Expr.lowerWith, Expr.lowerWith]
    simp only [argTypes_withUnit, Resolver.resolve_withUnit, Resolver.owner_withUnit,
      Resolver.signature_withUnit]
    exact congr.bind (Callee.lowerWith_congr congr ctx hc) fun receiver =>
      congr.lift_bind fun argTypes _ =>
        congr.bind (Arg.lowerAllWith_congr congr ctx ha) fun args =>
          congr.lift_bind fun returnType _ => congr.lift_bind fun receiverType _ =>
            congr.lift_bind fun signature _ => congr.lift_bind fun call _ => congr.lift _
  | construct cls args span =>
    obtain ⟨hc, ha⟩ := List.forall_mem_append.1 below
    rw [Expr.lowerWith, Expr.lowerWith]
    exact congr.bind (hc _ cls.mem_nodes ctx) fun cls =>
      congr.bind (Expr.lowerAllWith_congr congr ctx ha) fun args => congr.lift _
  | instanceOf e cls span =>
    rw [Expr.lowerWith, Expr.lowerWith]
    exact congr.bind (congr.testedClass r cls) fun cls =>
      congr.bind (below _ e.mem_nodes ctx) fun e => congr.lift _
  | lambda params body span =>
    rw [Expr.lowerWith, Expr.lowerWith, asyncParam_withUnit]
    simp only [bindParams_withUnit]
    refine congr.lift_bind fun found _ => ?_
    cases found with
    | some callback =>
      -- the body of a callback has a context of its own, so nodes are related in every one
      exact congr.bind (LambdaBody.lowerWith_congr congr _ below) fun body => congr.pure _
    | none =>
      refine congr.bind (congr.bindParams r _ fun param mem type resolved => ?_) fun types =>
        congr.bind (LambdaBody.lowerWith_congr congr ctx below) fun body => congr.pure _
      obtain ⟨lambdaParam, isParam, rfl⟩ := List.mem_map.1 mem
      exact fits.binder (List.mem_map_of_mem isParam) resolved
  | methodRef qualifier name mode method span =>
    rw [Expr.lowerWith, Expr.lowerWith, Resolver.signature_withUnit]
    split
    · exact congr.fail _
    · exact congr.bind (below _ qualifier.mem_nodes ctx) fun receiver =>
        congr.bind (congr.noteReference name receiver) fun _ =>
          congr.lift_bind fun signature _ => congr.lift _
  | typeApply base args span =>
    rw [Expr.lowerWith, Expr.lowerWith]
    exact below _ base.mem_nodes ctx

/-- A loop with one part of each kind is lowered in related ways if its parts are. -/
theorem Source.Stmt.related_loop {init body : Source.Stmt} {cond update : Source.Expr}
    {span : Span}
    (fits : ∀ part ∈ (Source.Node.stmt (.loop [init] (some cond) [update] body span)).below,
      Fits P n n' r unit part)
    (below : ∀ part ∈ (Source.Node.stmt (.loop [init] (some cond) [update] body span)).below,
      Related P n n' r unit part) :
    P ((Source.Stmt.loop [init] (some cond) [update] body span).lowerWith n r ctx)
      ((Source.Stmt.loop [init] (some cond) [update] body span).lowerWith n'
        (r.withUnit unit) ctx) := by
  obtain ⟨hi, rest⟩ := List.forall_mem_append.1 below
  obtain ⟨hc, rest⟩ := List.forall_mem_append.1 rest
  obtain ⟨hu, hb⟩ := List.forall_mem_append.1 rest
  rw [Stmt.lowerWith_loop, Stmt.lowerWith_loop]
  cases found : ranged? init cond update with
  | some count =>
    obtain ⟨start, stop, decl, rfl, binder⟩ := mem_nodes_of_ranged? found
    -- the declaration is not lowered as a statement here, so it has to fit by itself
    have fitsDecl := fits (.stmt (.local decl)) List.mem_cons_self
    have declares : (⟨count.sym, .variable, count.ty⟩ : Source.Binder) ∈
        (Source.Node.stmt (.local decl)).binders := by
      rw [Source.Node.binders, binder]
      exact List.mem_singleton_self _
    simp only [Resolver.resolve_withUnit]
    exact congr.lift_bind fun type resolved =>
      congr.bind (hi _ (List.mem_append_left [] start) ctx) fun start =>
        congr.bind (hc _ stop ctx) fun stop =>
          congr.bind (fitsDecl.binder declares resolved) fun _ =>
            congr.bind (hb _ body.mem_nodes ctx) fun body => congr.pure _
  | none =>
    exact congr.bind (hi _ (List.mem_append_left [] init.mem_nodes) ctx) fun init =>
      congr.bind (hc _ cond.mem_nodes ctx) fun cond =>
        congr.bind (hu _ (List.mem_append_left [] update.mem_nodes) ctx) fun update =>
          congr.bind (hb _ body.mem_nodes ctx) fun body => congr.pure _

/-- A body with one catch clause is lowered in related ways if both are. -/
theorem Source.Stmt.related_tryCatch {body : Source.Block} {clause : Source.CatchClause}
    {span : Span} (fits : Fits P n n' r unit (.stmt (.tryCatch body [clause] none span)))
    (below : ∀ part ∈ (Source.Node.stmt (.tryCatch body [clause] none span)).below,
      Related P n n' r unit part) :
    P ((Source.Stmt.tryCatch body [clause] none span).lowerWith n r ctx)
      ((Source.Stmt.tryCatch body [clause] none span).lowerWith n' (r.withUnit unit) ctx) := by
  obtain ⟨param, handler⟩ := clause
  obtain ⟨hb, rest⟩ := List.forall_mem_append.1 below
  obtain ⟨hc, _⟩ := List.forall_mem_append.1 rest
  obtain ⟨_, handlers⟩ := List.forall_mem_append.1 hc
  obtain ⟨hh, _⟩ := List.forall_mem_append.1 handlers
  rw [Stmt.lowerWith, Stmt.lowerWith, CatchClause.lowerWith, CatchClause.lowerWith,
    r.resolve_withUnit]
  refine congr.bind (Block.lowerWith_congr_of_related congr ctx hb) fun body =>
    congr.bind (congr.lift_bind fun type resolved => ?_) fun clause => congr.pure _
  exact congr.bind (fits.binder (List.mem_singleton_self _) resolved) fun _ =>
    congr.bind (Block.lowerWith_congr_of_related congr ctx hh) fun handler => congr.pure _

/-- A statement whose nodes below are lowered in related ways is so itself. -/
theorem Source.Stmt.related_of_below (s : Source.Stmt) (fits : Fits P n n' r unit (.stmt s))
    (fitsBelow : ∀ part ∈ (Source.Node.stmt s).below, Fits P n n' r unit part)
    (below : ∀ part ∈ (Source.Node.stmt s).below, Related P n n' r unit part) :
    Related P n n' r unit (.stmt s) := by
  intro ctx
  cases s with
  | block block =>
    rw [Stmt.lowerWith, Stmt.lowerWith]
    exact congr.bind (Block.lowerWith_congr_of_related congr ctx below) fun block => congr.pure _
  | «local» decl =>
    obtain ⟨name, id, ty, init, span⟩ := decl
    rw [Stmt.lowerWith, Stmt.lowerWith, VarDecl.lowerWith, VarDecl.lowerWith,
      r.resolve_withUnit]
    exact congr.lift_bind fun type resolved =>
      congr.bind (Expr.lowerOptionWith_congr congr ctx below) fun init =>
        congr.bind (fits.binder (List.mem_singleton_self _) resolved) fun _ => congr.pure _
  | expr e span =>
    have he := below _ e.mem_nodes ctx
    cases e with
    | assign target value span =>
      obtain ⟨ht, hv⟩ := List.forall_mem_append.1 (List.forall_mem_cons.1 below).2
      rw [Stmt.lowerWith, Stmt.lowerWith]
      exact congr.bind (ht _ target.mem_nodes ctx) fun target =>
        congr.bind (hv _ value.mem_nodes ctx) fun value => congr.pure _
    | _ =>
      simp only [Stmt.lowerWith]
      exact congr.bind he fun e => congr.pure _
  | conditional cond yes no span =>
    obtain ⟨hc, branches⟩ := List.forall_mem_append.1 below
    obtain ⟨hy, hn⟩ := List.forall_mem_append.1 branches
    rw [Stmt.lowerWith, Stmt.lowerWith]
    exact congr.bind (hc _ cond.mem_nodes ctx) fun cond =>
      congr.bind (hy _ yes.mem_nodes ctx) fun yes =>
        congr.bind (Stmt.lowerOptionWith_congr congr ctx hn) fun no => congr.pure _
  | loop inits cond updates body span =>
    rcases inits with _ | ⟨init, _ | ⟨_, _⟩⟩
    case cons.nil =>
      rcases updates with _ | ⟨update, _ | ⟨_, _⟩⟩
      case cons.nil =>
        cases cond with
        | some cond => exact Stmt.related_loop congr ctx fitsBelow below
        | none =>
          rw [Stmt.lowerWith, Stmt.lowerWith]
          exact congr.fail _
      all_goals
        simp only [Stmt.lowerWith]
        exact congr.fail _
    all_goals
      simp only [Stmt.lowerWith]
      exact congr.fail _
  | forEach var iterable body span =>
    obtain ⟨_, rest⟩ := List.forall_mem_append.1 below
    obtain ⟨hi, hb⟩ := List.forall_mem_append.1 rest
    rw [Stmt.lowerWith, Stmt.lowerWith, r.resolve_withUnit]
    exact congr.bind (hi _ iterable.mem_nodes ctx) fun iterable =>
      congr.lift_bind fun type resolved =>
        congr.bind (fits.binder (List.mem_singleton_self _) resolved) fun _ =>
          congr.bind (hb _ body.mem_nodes ctx) fun body => congr.pure _
  | whileLoop cond body span =>
    rw [Stmt.lowerWith, Stmt.lowerWith]
    exact congr.fail _
  | tryCatch body catches cleanup span =>
    cases cleanup with
    | some cleanup =>
      rw [Stmt.lowerWith, Stmt.lowerWith]
      exact congr.fail _
    | none =>
      rcases catches with _ | ⟨clause, _ | ⟨_, _⟩⟩
      case cons.nil => exact Stmt.related_tryCatch congr ctx fits below
      all_goals
        simp only [Stmt.lowerWith]
        exact congr.fail _
  | throw e span =>
    rw [Stmt.lowerWith, Stmt.lowerWith]
    refine congr.bind (below _ e.mem_nodes ctx) fun thrown => ?_
    split
    · exact congr.pure _
    · exact congr.fail _
  | «return» e span =>
    rw [Stmt.lowerWith, Stmt.lowerWith]
    exact congr.bind (Expr.lowerOptionWith_congr congr ctx below) fun e => congr.pure _
  | «break» span =>
    rw [Stmt.lowerWith, Stmt.lowerWith]
    exact congr.fail _
  | «continue» span =>
    rw [Stmt.lowerWith, Stmt.lowerWith]
    exact congr.fail _

/-- In a tree whose nodes fit, every node is lowered in related ways. -/
theorem Lowering.related_of_fits (node : Source.Node) (fits : Fits P n n' r unit node)
    (below : ∀ part ∈ node.below, Fits P n n' r unit part ∧ Related P n n' r unit part) :
    Fits P n n' r unit node ∧ Related P n n' r unit node := by
  have fitsBelow := fun part mem => (below part mem).1
  have related := fun part mem => (below part mem).2
  cases node with
  | expr e => exact ⟨fits, e.related_of_below congr fits related⟩
  | stmt s => exact ⟨fits, s.related_of_below congr fits fitsBelow related⟩

theorem Source.Expr.lowerWith_congr {e : Source.Expr}
    (fits : ∀ node ∈ e.nodes, Fits P n n' r unit node) :
    P (e.lowerWith n r ctx) (e.lowerWith n' (r.withUnit unit) ctx) :=
  (e.forall_nodes (related_of_fits congr) fits _ e.mem_nodes).2 ctx

theorem Source.Stmt.lowerWith_congr {s : Source.Stmt}
    (fits : ∀ node ∈ s.nodes, Fits P n n' r unit node) :
    P (s.lowerWith n r ctx) (s.lowerWith n' (r.withUnit unit) ctx) :=
  (s.forall_nodes (related_of_fits congr) fits _ s.mem_nodes).2 ctx

theorem Source.Block.lowerWith_congr {block : Source.Block}
    (fits : ∀ node ∈ block.nodes, Fits P n n' r unit node) :
    P (block.lowerWith n r ctx) (block.lowerWith n' (r.withUnit unit) ctx) :=
  Block.lowerWith_congr_of_related congr ctx fun node mem =>
    (block.forall_nodes (related_of_fits congr) fits node mem).2

/-- The declaration of a method is lowered in related ways if its body's nodes fit and its
parameters are bound in related ways. -/
theorem Source.MethodDecl.lowerWith_congr {decl : Source.MethodDecl}
    (params : ∀ param ∈ decl.params, ∀ {type}, r.resolve param.ty = .ok type →
      P (Step.declare param.sym .parameter type) (Step.declare param.sym .parameter type))
    (fits : ∀ node ∈ decl.nodes, Fits P n n' r unit node) :
    P (decl.lowerWith n r ctx) (decl.lowerWith n' (r.withUnit unit) ctx) := by
  unfold MethodDecl.lowerWith
  rw [bindParams_withUnit, r.resolve_withUnit]
  refine congr.bind (congr.bindParams r _ fun param mem type resolved => ?_) fun types =>
    congr.lift_bind fun ret _ =>
      congr.bind (Block.lowerWith_congr congr ctx fits) fun body => congr.pure _
  obtain ⟨param, isParam, rfl⟩ := List.mem_map.1 mem
  exact params param isParam resolved

/-- The declaration of a field is lowered in related ways if its initial value's nodes fit
and it is bound in related ways. -/
theorem Source.FieldDecl.lowerWith_congr {decl : Source.FieldDecl}
    (declares : ∀ {type}, r.resolve decl.ty = .ok type →
      P (Step.declare decl.sym .field type) (Step.declare decl.sym .field type))
    (fits : ∀ node ∈ decl.nodes, Fits P n n' r unit node) :
    P (decl.lowerWith n r ctx) (decl.lowerWith n' (r.withUnit unit) ctx) := by
  unfold FieldDecl.lowerWith
  rw [r.resolve_withUnit]
  exact congr.lift_bind fun type resolved => congr.bind (declares resolved) fun _ =>
    congr.bind (Expr.lowerOptionWith_congr congr ctx fun node mem =>
      (Expr.forall_nodesOption (related_of_fits congr) decl.init fits node mem).2) fun init =>
        congr.pure _

end Trees

end Polyscript
